import ShareKeeper.Proofs.Permission.Requests
import ShareKeeper.Proofs.Share.Requests

/-!
# The ways of a pass

Whatever the answers are, a pass over an object takes one of four ways (`Walk`): the object is
rejected, the entity cannot be looked at, it is absent and gets created, or it is there and is brought
in line. What is known of the managers of both kinds is said here of a manager of any kind, so that
what follows from it need not tell them apart.
-/

namespace ShareKeeper

open Pass

/-- The request by which the entity of an object is created. -/
def Resource.creation : {k : Kind} → Resource k → Request
  | .permission, r => .createPermission (Permission.input r)
  | .share, r => .createShare (Share.input r)

namespace Exchange

/-- The ARN of the entity that was created, if one was and its ARN is told. -/
def createdArn? : Exchange → Option String
  | ⟨.createPermission _, .ok d⟩ => d.arn
  | ⟨.createShare _, .ok d⟩ => d.arn
  | _ => none

end Exchange

/-! ## Managers of any kind -/

section Managers

variable {k : Kind} (r latest : Resource k) (d : Delta)

theorem creates_creation (answer : Answer r.creation) :
    Exchange.creates ⟨r.creation, answer⟩ = true := by
  cases k <;> rfl

theorem not_isLook_creation (answer : Answer r.creation) :
    Exchange.isLook ⟨r.creation, answer⟩ = false := by
  cases k <;> rfl

theorem asks_readOne : (k.manager.readOne r).Asks fun q => q.operation.isRead = true := by
  cases k with
  | permission => exact Permission.asks_readOne r
  | share => exact Share.asks_readOne r

theorem asks_create : (k.manager.create r).Asks fun q => q = r.creation := by
  cases k with
  | permission => exact Asks.bind (asks_recorded rfl) fun _ => trivial
  | share => exact Share.asks_create r

theorem asks_update : (k.manager.update r latest d).Asks fun q => q.operation.isChange = true := by
  cases k with
  | permission => exact Permission.asks_update r latest d
  | share =>
    exact (Share.asks_update r latest d).mono fun _ h => Operation.isChange_of_update h

theorem stopsOn_readOne {bad : ApiError → Prop} : (k.manager.readOne r).StopsOn bad := by
  cases k with
  | permission => exact Permission.stopsOn_readOne r
  | share => exact Share.stopsOn_readOne r

theorem stopsOn_update {bad : ApiError → Prop} : (k.manager.update r latest d).StopsOn bad := by
  cases k with
  | permission => exact Permission.stopsOn_update r latest d
  | share => exact Share.stopsOn_update r latest d

theorem raises_readOne : (k.manager.readOne r).Raises fun e => e = .notFound := by
  cases k with
  | permission => exact (Permission.raises_readOne r).mono fun _ h => h.1
  | share => exact Share.raises_readOne r

theorem raises_create {sort : Failure → Prop} : (k.manager.create r).Raises sort := by
  cases k <;> exact (raises_recorded _).bind fun _ => trivial

theorem yields_readOne :
    (k.manager.readOne r).Yields Exchange.Honest fun latest => latest.arn = r.arn := by
  cases k with
  | permission => exact Permission.yields_readOne r
  | share => exact Share.yields_readOne r

theorem yields_update :
    (k.manager.update r latest d).Yields Exchange.Honest fun x => x.arn = latest.arn := by
  cases k with
  | permission => exact Permission.yields_update r latest d
  | share => exact Share.yields_update r latest d

variable {r} {σ : Type} {service : Service σ} {s s' : σ} {heard : List Exchange}
  {out : Except Failure (Resource k)}

/-- **When an entity counts as absent without a refusal:** no ARN is recorded, or the share is only
still listed. -/
theorem readOne_eq_notFound_iff (h : Dialogue service (k.manager.readOne r) s heard out s') :
    out = .error .notFound ↔ r.arn = none ∨ ∃ x ∈ heard, x.ListsDeleted := by
  cases k with
  | share => exact Share.readOne_eq_notFound_iff r h
  | permission =>
    obtain ⟨e, hlift, rfl⟩ | ⟨arn, s₁, l, look, hlift, hlook, rfl⟩ := h.bind_cases
    · obtain ⟨rfl, he, -⟩ := hlift.lift_inv
      obtain ⟨rfl, harn⟩ := of_requireArn_error he.symm
      exact iff_of_true rfl (.inl harn)
    · obtain ⟨rfl, harn, rfl⟩ := hlift.lift_inv
      have hsome : r.arn ≠ none := by simp [arn_of_requireArn harn.symm]
      obtain ⟨e, -, rfl, rfl⟩ | ⟨detail, s₁, rest, -, hrest, rfl⟩ := hlook.recorded_bind_cases
      · exact iff_of_false (fun h => by cases h) (by simp [hsome, Exchange.ListsDeleted])
      · obtain ⟨rfl, rfl, -⟩ := hrest.done_inv
        exact iff_of_false (fun h => by cases h) (by simp [hsome, Exchange.ListsDeleted])

/-- **A creation is one request,** and the object then names the entity whose ARN is told. -/
theorem create_cases (h : Dialogue service (k.manager.create r) s heard out s') :
    ∃ answer, service r.creation s = (answer, s') ∧ heard = [⟨r.creation, answer⟩] ∧
      ((∃ e, answer = .error e ∧ out = .error (.api e)) ∨
        ∃ v x, answer = .ok v ∧ out = .ok x ∧
          x.arn = (Exchange.createdArn? ⟨r.creation, answer⟩).or r.arn) := by
  cases k with
  | permission =>
    obtain ⟨e, hserve, rfl, rfl⟩ | ⟨v, s₁, rest, hserve, hrest, rfl⟩ := h.recorded_bind_cases
    · exact ⟨_, hserve, rfl, .inl ⟨e, rfl, rfl⟩⟩
    · obtain ⟨rfl, rfl, rfl⟩ := hrest.done_inv
      exact ⟨_, hserve, rfl, .inr ⟨v, _, rfl, rfl, Permission.arn_observe r v⟩⟩
  | share =>
    obtain ⟨e, hserve, rfl, rfl⟩ | ⟨v, s₁, rest, hserve, hrest, rfl⟩ := h.recorded_bind_cases
    · exact ⟨_, hserve, rfl, .inl ⟨e, rfl, rfl⟩⟩
    · obtain ⟨rfl, rfl, rfl⟩ := hrest.done_inv
      exact ⟨_, hserve, rfl,
        .inr ⟨v, _, rfl, rfl, (Share.arn_withSources _ _).trans (Share.arn_observe r v)⟩⟩

end Managers

/-! ## Bringing in line -/

section BringInLine

variable {k : Kind} (r latest : Resource k)

theorem asks_bringInLine :
    (bringInLine k.manager r latest).Asks fun q => q.operation.isChange = true := by
  rw [bringInLine]
  split
  · trivial
  · exact (asks_update r latest _).bind fun _ => trivial

theorem stopsOn_bringInLine {bad : ApiError → Prop} :
    (bringInLine k.manager r latest).StopsOn bad := by
  rw [bringInLine]
  split
  · trivial
  · exact (stopsOn_update r latest _).bind fun _ => trivial

theorem yields_bringInLine :
    (bringInLine k.manager r latest).Yields Exchange.Honest fun x => x.1.arn = latest.arn := by
  rw [bringInLine]
  split
  · rfl
  · exact (yields_update r latest _).bind fun _ h => h

end BringInLine

/-! ## Passes -/

/-- **The ways of a pass.** -/
inductive Walk {k : Kind} {σ : Type} (service : Service σ) (region : Option String) (now : Instant)
    (r : Resource k) (s : σ) : List Exchange → Except Failure (Reconciled k) → σ → Prop
  /-- The object asks for what can never be reached. -/
  | rejected {e : Failure} (hvalid : k.manager.validate r = .error e) :
      Walk service region now r s [] (.error e) s
  /-- The look at the entity fails, and not because it is absent. -/
  | lost {looks : List Exchange} {e : Failure} {s' : σ} (hvalid : k.manager.validate r = .ok ())
      (hlook : Dialogue service (k.manager.readOne r) s looks (.error e) s')
      (he : e.isNotFound = false) : Walk service region now r s looks (.error e) s'
  | created {looks said : List Exchange} {e : Failure} {s₁ s' : σ}
      {x : Except Failure (Resource k)} (hvalid : k.manager.validate r = .ok ())
      (hlook : Dialogue service (k.manager.readOne r) s looks (.error e) s₁)
      (he : e.isNotFound = true) (hcreate : Dialogue service (k.manager.create r) s₁ said x s') :
      Walk service region now r s (looks ++ said)
        (x.map fun created => conclude region now created false) s'
  | found {looks said : List Exchange} {latest : Resource k} {s₁ s' : σ}
      {x : Except Failure (Resource k × Bool)} (hvalid : k.manager.validate r = .ok ())
      (hlook : Dialogue service (k.manager.readOne r) s looks (.ok latest) s₁)
      (hline : Dialogue service (bringInLine k.manager r latest) s₁ said x s') :
      Walk service region now r s (looks ++ said) (x.map fun x => conclude region now x.1 x.2) s'

section Walk

variable {k : Kind} {σ : Type} {service : Service σ} {region : Option String} {now : Instant}
  {r : Resource k} {s s' : σ} {heard : List Exchange}

/-- A part of a pass that is only concluded. -/
theorem Pass.Dialogue.map_inv {α β : Type} {p : Pass α} {f : α → β} {out : Except Failure β}
    (h : Dialogue service (p >>= fun a => pure (f a)) s heard out s') :
    ∃ x, Dialogue service p s heard x s' ∧ out = x.map f := by
  obtain ⟨e, hp, rfl⟩ | ⟨a, s₁, l, l', hp, hf, rfl⟩ := h.bind_cases
  · exact ⟨.error e, hp, rfl⟩
  · obtain ⟨rfl, rfl, rfl⟩ := hf.done_inv
    exact ⟨.ok a, (List.append_nil l).symm ▸ hp, rfl⟩

/-- **Every pass takes one of the ways.** -/
theorem walk_of_dialogue {out : Except Failure (Reconciled k)}
    (h : Dialogue service (reconcile k.manager region now r) s heard out s') :
    Walk service region now r s heard out s' := by
  obtain ⟨e, hlift, rfl⟩ | ⟨u, s₁, l, rest, hlift, hrest, rfl⟩ := h.bind_cases
  · obtain ⟨rfl, he, rfl⟩ := hlift.lift_inv
    exact .rejected he.symm
  · obtain ⟨rfl, hvalid, rfl⟩ := hlift.lift_inv
    obtain ⟨x, happly, rfl⟩ := hrest.map_inv
    obtain ⟨y, s₁, looks, said, hlook, hnext, rfl⟩ := happly.attempt_bind_inv
    rw [List.nil_append]
    cases y with
    | ok latest => exact .found hvalid.symm hlook hnext
    | error e =>
      dsimp only at hnext
      split at hnext
      · next he =>
        obtain ⟨x, hcreate, rfl⟩ := hnext.map_inv
        have hcomp : (x.map fun created => (created, false)).map
            (fun x => conclude region now x.1 x.2)
            = x.map fun created => conclude region now created false := by cases x <;> rfl
        exact hcomp ▸ .created hvalid.symm hlook he hcreate
      · next he =>
        obtain ⟨rfl, rfl, rfl⟩ := hnext.fail_inv
        rw [List.append_nil]
        exact .lost hvalid.symm hlook (by simpa using he)

/-- **A change is made in an update** of what was looked at before. -/
theorem updated_of_isChange {out : Except Failure (Reconciled k)}
    (h : Dialogue service (reconcile k.manager region now r) s heard out s') {x : Exchange}
    (hx : x ∈ heard) (hchange : x.1.operation.isChange = true) :
    ∃ looks said latest s₁ updated, heard = looks ++ said ∧ x ∈ said ∧
      Dialogue service (k.manager.readOne r) s looks (.ok latest) s₁ ∧
      Dialogue service (k.manager.update r latest (k.manager.delta (some r) (some latest))) s₁ said
        updated s' ∧
      out = updated.map fun y => conclude region now y
        (k.manager.requeueAfterUpdate (k.manager.delta (some r) (some latest))) := by
  have hlooked : ∀ {looks y s₁}, Dialogue service (k.manager.readOne r) s looks y s₁ → x ∉ looks := by
    intro looks y s₁ hlook hx
    have hread : x.isLook = true := hlook.asked (asks_readOne r) x hx
    rw [Exchange.not_isLook_of_isChange hchange] at hread
    cases hread
  cases walk_of_dialogue h with
  | rejected => cases hx
  | lost _ hlook => exact absurd hx (hlooked hlook)
  | created _ hlook _ hcreate =>
    have hsaid := (List.mem_append.1 hx).resolve_left (hlooked hlook)
    obtain ⟨answer, -, rfl, -⟩ := create_cases hcreate
    cases List.mem_singleton.1 hsaid
    have hcreates := creates_creation r answer
    rw [Exchange.not_creates_of_isChange hchange] at hcreates
    cases hcreates
  | found _ hlook hline =>
    have hsaid := (List.mem_append.1 hx).resolve_left (hlooked hlook)
    rw [bringInLine] at hline
    split at hline
    · obtain ⟨rfl, -, -⟩ := hline.done_inv
      cases hsaid
    · obtain ⟨updated, hupdate, rfl⟩ := hline.map_inv
      refine ⟨_, _, _, _, updated, rfl, hsaid, hlook, hupdate, ?_⟩
      cases updated <;> rfl

end Walk

end ShareKeeper
