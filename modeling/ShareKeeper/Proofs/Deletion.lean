import ShareKeeper.Proofs.Identity
import ShareKeeper.Proofs.Locality
import ShareKeeper.Proofs.Share.Convergence

/-!
# Deletions

The finalizer of an object is released once its deletion gets through, and from then on nobody looks after
the entity. So a deletion may only get through if the entity is gone. It looks at the entity, asks for its
deletion if it is there, and takes only the absence of the entity for a success (`Removal`). Whatever
trouble there is on the way, a deletion that gets through leaves no entity behind, one that fails changes
nothing, and neither touches anything else (`deletes_of_harmless`).
-/

namespace ShareKeeper

open Pass

/-! ## The ways of a deletion -/

section Ways

variable {k : Kind} {σ : Type} {service : Service σ} {r latest : Resource k} {s s' : σ}
  {heard : List Exchange}

/-- **The ways of a deletion.** -/
inductive Removal (service : Service σ) (r : Resource k) (s : σ) :
    List Exchange → Except Failure Unit → σ → Prop
  /-- No entity was ever recorded. -/
  | unrecorded (harn : r.arn = none) : Removal service r s [] (.ok ()) s
  /-- The look at the entity fails, and not because it is absent. -/
  | lost {looks : List Exchange} {e : Failure} {s' : σ}
      (hlook : Dialogue service (k.manager.readOne r) s looks (.error e) s')
      (he : e.isNotFound = false) : Removal service r s looks (.error e) s'
  | absent {looks : List Exchange} {e : Failure} {s' : σ}
      (hlook : Dialogue service (k.manager.readOne r) s looks (.error e) s')
      (he : e.isNotFound = true) : Removal service r s looks (.ok ()) s'
  /-- The entity is deleted, or is gone by the time that this is asked for. -/
  | deleted {looks : List Exchange} {latest : Resource k} {s₁ s' : σ} {arn : String}
      {answer : Answer (k.deletion arn)}
      (hlook : Dialogue service (k.manager.readOne r) s looks (.ok latest) s₁)
      (harn : latest.arn = some arn) (hserve : service (k.deletion arn) s₁ = (answer, s'))
      (he : ∀ e, answer = .error e → ¬ e.IsTrouble) :
      Removal service r s (looks ++ [⟨k.deletion arn, answer⟩]) (.ok ()) s'
  | refused {looks : List Exchange} {latest : Resource k} {s₁ s' : σ} {arn : String}
      {answer : Answer (k.deletion arn)} {e : ApiError}
      (hlook : Dialogue service (k.manager.readOne r) s looks (.ok latest) s₁)
      (harn : latest.arn = some arn) (hserve : service (k.deletion arn) s₁ = (answer, s'))
      (hanswer : answer = .error e) (he : e.IsTrouble) :
      Removal service r s (looks ++ [⟨k.deletion arn, answer⟩]) (.error (.api e)) s'

/-- An entity that was looked at has an ARN. -/
theorem exists_arn_of_look (h : Dialogue service (k.manager.readOne r) s heard (.ok latest) s')
    {arn : String} (harn : r.arn = some arn) : ∃ x, latest.arn = some x := by
  rcases knownOrTold_of_look h with hknown | ⟨y, hy, x, -, htold⟩
  · exact ⟨arn, hknown.trans harn⟩
  · exact ⟨x, htold⟩

/-- The deletion of an entity is one request. -/
theorem delete_cases {out : Except Failure Unit} {arn : String} (harn : latest.arn = some arn)
    (h : Dialogue service (k.manager.delete latest) s heard out s') :
    ∃ answer, service (k.deletion arn) s = (answer, s') ∧ heard = [⟨k.deletion arn, answer⟩] ∧
      ((∃ v, answer = .ok v ∧ out = .ok ()) ∨ ∃ e, answer = .error e ∧ out = .error (.api e)) := by
  have hrequired := requireArn_of_arn harn
  cases k with
  | permission =>
    have hask : Dialogue service
        (ask (.deletePermission arn) >>= record ⟨Purpose.delete.label, "DeletePermission"⟩)
        s heard out s' := h.lift_ok_inv hrequired
    exact hask.recorded_cases
  | share =>
    have hask : Dialogue service
        (ask (.deleteShare arn) >>= record ⟨Purpose.delete.label, "DeleteResourceShare"⟩)
        s heard out s' := h.lift_ok_inv hrequired
    exact hask.recorded_cases

/-- Of a failure, only the absence of the entity is forgiven. -/
theorem forgiveAbsence_cases {e : Failure} {out : Except Failure Unit}
    (h : Dialogue service (forgiveAbsence (.error e)) s heard out s') :
    heard = [] ∧ s' = s ∧
      (e.isNotFound = true ∧ out = .ok () ∨ e.isNotFound = false ∧ out = .error e) := by
  rw [forgiveAbsence] at h
  split at h
  · next he =>
    obtain ⟨rfl, rfl, rfl⟩ := h.done_inv
    exact ⟨rfl, rfl, .inl ⟨he, rfl⟩⟩
  · next he =>
    obtain ⟨rfl, rfl, rfl⟩ := h.fail_inv
    exact ⟨rfl, rfl, .inr ⟨by simpa using he, rfl⟩⟩

/-- A deletion of an entity that was found. -/
theorem removal_of_found {looks said : List Exchange} {s₁ : σ} {arn : String}
    {out : Except Failure Unit} (hlook : Dialogue service (k.manager.readOne r) s looks (.ok latest) s₁)
    (harn : latest.arn = some arn)
    (h : Dialogue service ((k.manager.delete latest).attempt >>= forgiveAbsence) s₁ said out s') :
    Removal service r s (looks ++ said) out s' := by
  obtain ⟨result, s₂, asked, rest, hdelete, hforgive, rfl⟩ := h.attempt_bind_inv
  obtain ⟨answer, hserve, rfl, ⟨v, hanswer, rfl⟩ | ⟨e, hanswer, rfl⟩⟩ := delete_cases harn hdelete
  · obtain ⟨rfl, rfl, rfl⟩ := hforgive.done_inv
    refine .deleted hlook harn hserve ?_
    intro e he
    cases hanswer.symm.trans he
  · obtain ⟨rfl, rfl, ⟨he, rfl⟩ | ⟨he, rfl⟩⟩ := forgiveAbsence_cases hforgive
    · refine .deleted hlook harn hserve ?_
      intro e' he' htrouble
      cases hanswer.symm.trans he'
      cases htrouble.isNotFound_eq.symm.trans he
    · refine .refused hlook harn hserve hanswer ?_
      intro hkind
      simp [Failure.isNotFound, hkind] at he

/-- **Every deletion takes one of the ways.** -/
theorem removal_of_dialogue {out : Except Failure Unit}
    (h : Dialogue service (deleteEntity k.manager r) s heard out s') :
    Removal service r s heard out s' := by
  cases harn : r.arn with
  | none =>
    rw [deleteEntity, harn] at h
    obtain ⟨rfl, rfl, rfl⟩ := h.done_inv
    exact .unrecorded harn
  | some recorded =>
    rw [deleteEntity, harn] at h
    obtain ⟨seen, s₁, looks, said, hlook, hnext, rfl⟩ := h.attempt_bind_inv
    cases seen with
    | error e =>
      obtain ⟨rfl, rfl, hforgiven⟩ := forgiveAbsence_cases hnext
      rw [List.append_nil]
      rcases hforgiven with ⟨he, rfl⟩ | ⟨he, rfl⟩
      · exact .absent hlook he
      · exact .lost hlook he
    | ok latest =>
      obtain ⟨arn, hlatest⟩ := exists_arn_of_look hlook harn
      exact removal_of_found hlook hlatest hnext

/-- What is asked for in a deletion: looks at the recorded entity, and then at most its deletion. -/
theorem Removal.asked {out : Except Failure Unit} (h : Removal service r s heard out s')
    (hhonest : ∀ x ∈ heard, x.Honest) :
    ∃ looks said, heard = looks ++ said ∧
      (∀ x ∈ looks, x.1.operation.isRead = true ∧ r.arn = some x.1.address) ∧
      (said = [] ∨ ∃ arn answer, r.arn = some arn ∧ said = [⟨k.deletion arn, answer⟩]) := by
  have hlooks : ∀ {looks s₁ x}, Dialogue service (k.manager.readOne r) s looks x s₁ →
      ∀ x ∈ looks, x.1.operation.isRead = true ∧ r.arn = some x.1.address := by
    intro looks s₁ x hlook y hy
    exact ⟨hlook.asked (asks_readOne r) y hy, hlook.asked (addresses_readOne r) y hy⟩
  have hseen : ∀ {looks said latest s₁ arn}, (∀ x ∈ looks ++ said, x.Honest) →
      Dialogue service (k.manager.readOne r) s looks (.ok latest) s₁ → latest.arn = some arn →
      r.arn = some arn := by
    intro looks said latest s₁ arn hhonest hlook hlatest
    have hsame : latest.arn = r.arn := (yields_readOne r).of_dialogue hlook
      fun x hx => hhonest x (List.mem_append_left _ hx)
    exact hsame.symm.trans hlatest
  cases h with
  | unrecorded => exact ⟨[], [], rfl, fun x hx => absurd hx List.not_mem_nil, .inl rfl⟩
  | lost hlook | absent hlook =>
    exact ⟨heard, [], (List.append_nil heard).symm, hlooks hlook, .inl rfl⟩
  | deleted hlook harn | refused hlook harn =>
    exact ⟨_, _, rfl, hlooks hlook, .inr ⟨_, _, hseen hhonest hlook harn, rfl⟩⟩

end Ways

/-! ## Deletions on an account -/

/-- A refusal to delete leaves the entity as it is. -/
theorem account_of_refused {k : Kind} {s s' : Stage} {arn : String} {answer : Answer (k.deletion arn)}
    {e : ApiError} (hs : s.script.Harmless) (hserve : Stage.serve (k.deletion arn) s = (answer, s'))
    (hanswer : answer = .error e) : s'.account = s.account := by
  obtain ⟨-, ⟨hgenuine, haccount⟩ | ⟨e', -, -, haccount⟩⟩ := Stage.serve_cases hs (k.deletion arn)
  · rw [hserve] at hgenuine haccount
    rw [haccount]
    rw [hanswer] at hgenuine
    -- the account itself refuses only to delete what it does not have
    cases k with
    | permission =>
      cases hp : s.account.permissions.find? arn with
      | none =>
        show (Account.serve (.deletePermission arn) s.account).2 = s.account
        rw [Account.serve_deletePermission_absent hp]
      | some p =>
        have hgranted := hgenuine.trans (congrArg Prod.fst (Account.serve_deletePermission hp))
        cases hgranted
    | share =>
      cases hp : s.account.shares.find? arn with
      | none =>
        show (Account.serve (.deleteShare arn) s.account).2 = s.account
        rw [Account.serve, Account.changeShare, Account.withShare, hp]
      | some p =>
        have hgranted := hgenuine.trans (congrArg Prod.fst
          (Account.changeShare_of_find? hp .deleteResourceShare _))
        cases hgranted
  · rw [hserve] at haccount
    exact haccount

section Account

variable {k : Kind} {r : Resource k} {s s' : Stage} {heard : List Exchange}

/-- A look under a harmless script changes nothing. -/
theorem account_of_look {out : Except Failure (Resource k)} (hs : s.script.Harmless)
    (h : Dialogue Stage.serve (k.manager.readOne r) s heard out s') : s'.account = s.account := by
  have hsame := run_stage_invariant (P := fun a => a = s.account) (asks_readOne r)
    (fun q a hq ha => (Account.serve_look hq a).trans ha) hs rfl
  rw [h.run_eq] at hsame
  exact hsame

/-- **A deletion that fails changes nothing.** -/
theorem account_of_failed {e : Failure} (hs : s.script.Harmless)
    (h : Dialogue Stage.serve (deleteEntity k.manager r) s heard (.error e) s') :
    s'.account = s.account := by
  have hremoval := removal_of_dialogue h
  generalize hended : Except.error e = ended at hremoval
  cases hremoval with
  | unrecorded => rfl
  | lost hlook | absent hlook => exact account_of_look hs hlook
  | deleted => cases hended
  | @refused looks latest s₁ s' arn answer e' hlook harn hserve hanswer he =>
    have hharmless : s₁.script.Harmless := by
      have hrun : (run Stage.serve (k.manager.readOne r) s).2.script.Harmless :=
        run_invariant (P := fun t : Stage => t.script.Harmless) (asks_readOne r)
          (fun q t _ ht => (Stage.serve_cases ht q).1) hs
      rw [hlook.run_eq] at hrun
      exact hrun
    rw [account_of_refused hharmless hserve hanswer, account_of_look hs hlook]

/-- A deletion touches nothing but the recorded entity. -/
theorem staysIn_deleteEntity {a : ShareKeeper.Account} (ha : a.ByArn) (r : Resource k) :
    (deleteEntity k.manager r).StaysIn (fun x => r.arn = some x) a := by
  have hdialogue : Dialogue Account.serve (deleteEntity k.manager r) a _ _ _ := ⟨rfl, rfl⟩
  have hhonest := Account.honest_transcript (deleteEntity k.manager r) ha
  obtain ⟨looks, said, hheard, hlooks, hsaid⟩ := (removal_of_dialogue hdialogue).asked hhonest
  intro x hx
  rw [hheard] at hx
  rcases List.mem_append.1 hx with hx | hx
  · exact (hlooks x hx).2
  · rcases hsaid with rfl | ⟨arn, answer, harn, rfl⟩
    · cases hx
    · cases List.mem_singleton.1 hx
      rw [address_deletion]
      exact harn

/-- Where the entity is gone, a deletion is a look. -/
theorem course_deleteEntity_again {a : ShareKeeper.Account}
    (hgone : ∀ arn, r.arn = some arn → ¬ a.Alive k arn) :
    ∃ asked, Course Account.serve (deleteEntity k.manager r) a asked (.ok ()) a ∧
      ∀ q ∈ asked, q.operation.isRead = true := by
  cases harn : r.arn with
  | none =>
    refine ⟨[], ?_, fun q hq => absurd hq List.not_mem_nil⟩
    rw [deleteEntity, harn]
    exact .done ()
  | some arn =>
    obtain ⟨e, asked, he, habsent⟩ := course_look_absent hgone
    refine ⟨asked, ?_, ?_⟩
    · rw [deleteEntity, harn]
      refine habsent.attempt.bind_done ?_
      show forgiveAbsence (.error e) = _
      rw [forgiveAbsence, if_pos he]
      rfl
    · intro q hq
      rw [← habsent.requests_eq] at hq
      obtain ⟨x, hx, rfl⟩ := List.mem_map.1 hq
      exact (asks_readOne r).of_mem x hx

/-- What a deletion comes to, whatever trouble is prepared for it. -/
structure Deletes (r : Resource k) (s : Stage) : Prop where
  /-- It only looks, and then asks at most for the deletion of the recorded entity. -/
  asked : ∃ looks said, requests Stage.serve (deleteEntity k.manager r) s = looks ++ said ∧
    (∀ q ∈ looks, q.operation.isRead = true) ∧
      (said = [] ∨ ∃ arn, r.arn = some arn ∧ said = [k.deletion arn])
  /-- Nothing is changed but what is held under the recorded ARN. -/
  frame : ∀ x, r.arn ≠ some x →
    (run Stage.serve (deleteEntity k.manager r) s).2.account.entries x = s.account.entries x
  /-- If it gets through, the entity is gone. -/
  gone : (run Stage.serve (deleteEntity k.manager r) s).1 = .ok () → ∀ arn, r.arn = some arn →
    ¬ (run Stage.serve (deleteEntity k.manager r) s).2.account.Alive k arn
  /-- If it fails, nothing is changed at all. -/
  failed : ∀ e, (run Stage.serve (deleteEntity k.manager r) s).1 = .error e →
    (run Stage.serve (deleteEntity k.manager r) s).2.account = s.account
  /-- Once it got through, and with no trouble prepared, it gets through again and only looks. -/
  again : (run Stage.serve (deleteEntity k.manager r) s).1 = .ok () → ∃ asked,
    Course Account.serve (deleteEntity k.manager r)
      (run Stage.serve (deleteEntity k.manager r) s).2.account asked (.ok ())
      (run Stage.serve (deleteEntity k.manager r) s).2.account ∧
      ∀ q ∈ asked, q.operation.isRead = true
  /-- Where no entity is recorded, nothing is asked for. -/
  unrecorded : r.arn = none → Course Stage.serve (deleteEntity k.manager r) s [] (.ok ()) s

section Harmless

variable (r : Resource k) (hscript : s.script.Harmless)

include hscript

/-- A deletion looks, and then asks at most for the deletion of the recorded entity. -/
theorem requests_deleteEntity (harns : s.account.ByArn) :
    ∃ looks said, requests Stage.serve (deleteEntity k.manager r) s = looks ++ said ∧
      (∀ q ∈ looks, q.operation.isRead = true) ∧
        (said = [] ∨ ∃ arn, r.arn = some arn ∧ said = [k.deletion arn]) := by
  have hdialogue : Dialogue Stage.serve (deleteEntity k.manager r) s _ _ _ := ⟨rfl, rfl⟩
  have hhonest := Stage.honest_transcript (deleteEntity k.manager r) hscript harns
  obtain ⟨looks, said, hheard, hlooks, hsaid⟩ := (removal_of_dialogue hdialogue).asked hhonest
  refine ⟨looks.map Sigma.fst, said.map Sigma.fst, ?_, ?_, ?_⟩
  · rw [requests, hheard, List.map_append]
  · intro q hq
    obtain ⟨x, hx, rfl⟩ := List.mem_map.1 hq
    exact (hlooks x hx).1
  · rcases hsaid with rfl | ⟨arn, answer, harn, rfl⟩
    · exact .inl rfl
    · exact .inr ⟨arn, harn, rfl⟩

/-- A deletion that gets through met no trouble, and so it went as on the account alone. -/
theorem run_of_deleted (hok : (run Stage.serve (deleteEntity k.manager r) s).1 = .ok ()) :
    run Account.serve (deleteEntity k.manager r) s.account
      = (.ok (), (run Stage.serve (deleteEntity k.manager r) s).2.account) :=
  run_of_stage_ok (stopsOn_deleteEntity r) hscript hok

theorem not_alive_of_deleted (harns : s.account.ByArn)
    (hok : (run Stage.serve (deleteEntity k.manager r) s).1 = .ok ()) {arn : String}
    (harn : r.arn = some arn) :
    ¬ (run Stage.serve (deleteEntity k.manager r) s).2.account.Alive k arn := by
  intro halive
  obtain ⟨-, hother⟩ := (deleteEntity_alive_iff harns (run_of_deleted r hscript hok) arn).1 halive
  exact hother harn

end Harmless

/-- **A deletion deletes, or it changes nothing and says so.** -/
theorem deletes_of_harmless (r : Resource k) (hscript : s.script.Harmless) (harns : s.account.ByArn) :
    Deletes r s := by
  have hfailed : ∀ e, (run Stage.serve (deleteEntity k.manager r) s).1 = .error e →
      (run Stage.serve (deleteEntity k.manager r) s).2.account = s.account := by
    intro e he
    have hdialogue : Dialogue Stage.serve (deleteEntity k.manager r) s _ (.error e) _ :=
      ⟨Prod.ext he rfl, rfl⟩
    exact account_of_failed hscript hdialogue
  constructor
  · exact requests_deleteEntity r hscript harns
  · intro x hx
    cases hout : (run Stage.serve (deleteEntity k.manager r) s).1 with
    | error e => rw [hfailed e hout]
    | ok u =>
      have hentries := (staysIn_deleteEntity harns r).entries_run hx
      rw [run_of_deleted r hscript hout] at hentries
      exact hentries
  · intro hok arn harn
    exact not_alive_of_deleted r hscript harns hok harn
  · exact hfailed
  · intro hok
    exact course_deleteEntity_again fun arn harn => not_alive_of_deleted r hscript harns hok harn
  · intro harn
    rw [deleteEntity, harn]
    exact .done ()

end Account

/-- A share in an account that refuses once to delete it. -/
def Share.guarded : Stage where
  account := (Account.serve (.createShare teamInput) .empty).2
  script := Script.none.set .deleteResourceShare
    [.refuse ⟨.other, "DeleteResourceShare", none, "try again later"⟩]

theorem Share.harmless_guarded : guarded.script.Harmless := by
  refine Script.harmless_none.set ?_
  intro c hc
  cases List.mem_singleton.1 hc
  intro hkind
  cases hkind

/-- An object of which that share is recorded. -/
def Share.leftover : Share := recorded crewSpec (Account.shareArn "team") []

/-- The first deletion fails, and the second one gets through. -/
theorem Share.deletes_guarded :
    guarded.script.Harmless ∧ guarded.account.ByArn ∧ Deletes leftover guarded ∧
      (run Stage.serve (deleteEntity Kind.share.manager leftover) guarded).1.isOk = false ∧
      (run Stage.serve (deleteEntity Kind.share.manager leftover)
        (run Stage.serve (deleteEntity Kind.share.manager leftover) guarded).2).1.isOk = true := by
  have harns : guarded.account.ByArn := Account.byArn_serve (.createShare teamInput) Account.byArn_empty
  refine ⟨harmless_guarded, harns, deletes_of_harmless leftover harmless_guarded harns, ?_, ?_⟩
  · decide +kernel
  · decide +kernel

end ShareKeeper
