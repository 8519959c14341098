import ShareKeeper.Proofs.Life

/-!
# What was created

A ledger keeps, beside an account and what is prepared for it, the ARNs of all entities that were
created so far. As long as nothing but trouble is prepared, the answers are honest and what is alive
either was alive before or stands in the ledger (`Sound.accounts`). A pass over an object adds at most
one ARN to it, which is then the ARN of the outcome, and only if nothing was alive under the recorded
one (`Sound.settled`). A deletion adds none and takes the recorded entity away (`Sound.deleted`).
-/

namespace ShareKeeper

open Pass

/-! ## Honest answers -/

/-- An account answers honestly. -/
theorem Account.honest_serve {a : Account} (h : a.ByArn) (q : Request) :
    Exchange.Honest ⟨q, (Account.serve q a).1⟩ := by
  cases q with
  | getPermission arn version =>
    cases hp : a.permissions.find? arn with
    | none =>
      rw [Account.serve_getPermission_absent hp]
      trivial
    | some p =>
      rw [Account.serve_getPermission hp]
      exact h.permissions arn p hp
  | createPermissionVersion arn policy =>
    cases hp : a.permissions.find? arn with
    | none =>
      rw [Account.serve, Account.withPermission, hp]
      trivial
    | some p =>
      rw [Account.serve_createPermissionVersion hp]
      exact h.permissions arn p hp
  | getShare arn =>
    cases hs : a.shares.find? arn with
    | none =>
      rw [Account.serve_getShare_absent hs]
      trivial
    | some s =>
      rw [Account.serve_getShare hs]
      exact h.shares arn s hs
  | updateShare arn name allow =>
    cases hs : a.shares.find? arn with
    | none =>
      rw [Account.serve, Account.withShare, hs]
      trivial
    | some s =>
      rw [Account.serve_updateShare hs]
      exact h.shares arn s hs
  | _ => trivial

/-- Under a harmless script the answers are honest, too, and an account in order is kept so. -/
theorem Stage.honest_serve {s : Stage} (hscript : s.script.Harmless) (harns : s.account.ByArn)
    (q : Request) :
    (serve q s).2.script.Harmless ∧ (serve q s).2.account.ByArn ∧
      Exchange.Honest ⟨q, (serve q s).1⟩ := by
  obtain ⟨hnext, ⟨hanswer, haccount⟩ | ⟨e, -, hanswer, haccount⟩⟩ := serve_cases hscript q
  · rw [hanswer, haccount]
    exact ⟨hnext, Account.byArn_serve q harns, Account.honest_serve harns q⟩
  · rw [hanswer, haccount]
    exact ⟨hnext, harns, Exchange.honest_error e⟩

/-! ## Ledgers -/

/-- A stage, and the ARNs of everything that was created on it. -/
structure Ledger where
  stage : Stage
  created : List String

namespace Ledger

/-- Answers as the stage does, and notes the ARN of what is created. -/
def serve : Service Ledger := fun r l =>
  let (answer, stage) := Stage.serve r l.stage
  (answer, ⟨stage, l.created ++ (Exchange.createdArn? ⟨r, answer⟩).toList⟩)

/-- There is an entity with an ARN. -/
abbrev Alive (l : Ledger) (k : Kind) (arn : String) : Prop := l.stage.account.Alive k arn

/-- Nothing but trouble is prepared, and every entity is held under the ARN that it reports. -/
structure Sound (l : Ledger) : Prop where
  harmless : l.stage.script.Harmless
  byArn : l.stage.account.ByArn

variable {α : Type} {l l' : Ledger} {heard : List Exchange}

/-- The ARNs of what was created, in the order of it. -/
def createdArns (heard : List Exchange) : List String :=
  heard.flatMap fun x => x.createdArn?.toList

theorem createdArns_append (heard heard' : List Exchange) :
    createdArns (heard ++ heard') = createdArns heard ++ createdArns heard' :=
  List.flatMap_append

/-- A ledger leaves the course of a pass alone. -/
theorem run_serve (p : Pass α) (l : Ledger) :
    (run serve p l).1 = (run Stage.serve p l.stage).1 ∧
      (run serve p l).2.stage = (run Stage.serve p l.stage).2 := by
  induction p generalizing l with
  | done a => exact ⟨rfl, rfl⟩
  | fail e => exact ⟨rfl, rfl⟩
  | call r next ih => exact ih (Stage.serve r l.stage).1 (serve r l).2
  | note c next ih => exact ih l

/-! ## One request -/

theorem createdArn?_of_not_creates {x : Exchange} (h : x.creates = false) :
    x.createdArn? = none := by
  obtain ⟨q, answer⟩ := x
  cases q <;> first | rfl | cases h

/-- What was asked and answered between two states of a sound ledger accounts for all that happened
to it. -/
structure Accounts (l : Ledger) (heard : List Exchange) (l' : Ledger) : Prop where
  sound : l'.Sound
  honest : ∀ x ∈ heard, x.Honest
  created : l'.created = l.created ++ createdArns heard
  alive : ∀ k arn, l'.Alive k arn → l.Alive k arn ∨ arn ∈ createdArns heard

/-- Nothing was asked. -/
theorem Accounts.refl (h : l.Sound) : Accounts l [] l :=
  ⟨h, fun _ hx => absurd hx List.not_mem_nil, (List.append_nil _).symm, fun _ _ => .inl⟩

/-- **One request on a sound ledger.** -/
theorem Sound.step (h : l.Sound) (q : Request) :
    (serve q l).2.Sound ∧ Exchange.Honest ⟨q, (serve q l).1⟩ ∧
      ∀ k arn, (serve q l).2.Alive k arn →
        l.Alive k arn ∨ Exchange.createdArn? ⟨q, (serve q l).1⟩ = some arn := by
  obtain ⟨hharmless, hbyArn, hhonest⟩ := Stage.honest_serve h.harmless h.byArn q
  refine ⟨⟨hharmless, hbyArn⟩, hhonest, ?_⟩
  intro k arn halive
  obtain ⟨-, ⟨hanswer, haccount⟩ | ⟨e, -, -, haccount⟩⟩ := Stage.serve_cases h.harmless q
  · have hans : (serve q l).1 = (Account.serve q l.stage.account).1 := hanswer
    have hacc : (serve q l).2.stage.account = (Account.serve q l.stage.account).2 := haccount
    rw [hans]
    rw [Alive, hacc] at halive
    exact Account.alive_serve halive
  · -- a refusal is without effect
    have hacc : (serve q l).2.stage.account = l.stage.account := haccount
    rw [Alive, hacc] at halive
    exact .inl halive

/-- **A pass accounts for what it does.** -/
theorem Sound.accounts {p : Pass α} {out : Except Failure α} (h : l.Sound)
    (hd : Dialogue serve p l heard out l') : Accounts l heard l' := by
  induction p generalizing l heard with
  | done a =>
    obtain ⟨rfl, -, rfl⟩ := hd.done_inv
    exact .refl h
  | fail e =>
    obtain ⟨rfl, -, rfl⟩ := hd.fail_inv
    exact .refl h
  | call q next ih =>
    obtain ⟨rest, rfl, hrest⟩ := hd.call_inv
    obtain ⟨hsound, hhonest, halive⟩ := h.step q
    have hnext := ih _ hsound hrest
    have hcons : createdArns (⟨q, (serve q l).1⟩ :: rest)
        = (Exchange.createdArn? ⟨q, (serve q l).1⟩).toList ++ createdArns rest := rfl
    refine ⟨hnext.sound, List.forall_mem_cons.2 ⟨hhonest, hnext.honest⟩, ?_, fun k arn hlive => ?_⟩
    · rw [hcons, ← List.append_assoc]
      exact hnext.created
    · rw [hcons, List.mem_append, Option.mem_toList]
      rcases hnext.alive k arn hlive with hbefore | hcreated
      · exact (halive k arn hbefore).imp_right .inl
      · exact .inr (.inr hcreated)
  | note c next ih => exact ih h hd.note_inv

theorem createdArns_eq_nil (h : ∀ x ∈ heard, x.creates = false) : createdArns heard = [] := by
  refine List.flatMap_eq_nil_iff.2 fun x hx => ?_
  rw [createdArn?_of_not_creates (h x hx)]
  rfl

/-- Where no ARN of a new entity is told, the ledger has no more of them and nothing came to life. -/
theorem Accounts.of_nil (h : Accounts l heard l') (hnil : createdArns heard = []) :
    l'.created = l.created ∧ ∀ k arn, l'.Alive k arn → l.Alive k arn := by
  refine ⟨?_, fun k arn hlive => ?_⟩
  · rw [h.created, hnil, List.append_nil]
  · exact (h.alive k arn hlive).resolve_right (hnil ▸ List.not_mem_nil)

/-! ## Passes over an object -/

section Object

variable {k : Kind} {r : Resource k} {region : Option String} {now : Instant}

/-- What is known after a pass over an object has ended. -/
inductive Settled (r : Resource k) (l : Ledger) :
    Except Failure (Reconciled k) → Ledger → Prop
  /-- Nothing was created, and the outcome is about the recorded entity. -/
  | kept {out : Except Failure (Reconciled k)} {l' : Ledger} (hcreated : l'.created = l.created)
      (halive : ∀ y, l'.Alive k y → l.Alive k y) (harn : ∀ o, out = .ok o → o.resource.arn = r.arn) :
      Settled r l out l'
  /-- One entity was created, because there was none under the recorded ARN. -/
  | created {o : Reconciled k} {l' : Ledger} {arn : String} (hcreated : l'.created = l.created ++ [arn])
      (halive : ∀ y, l'.Alive k y → l.Alive k y ∨ y = arn) (harn : o.resource.arn = some arn)
      (habsent : ∀ y, r.arn = some y → ¬ l.Alive k y) : Settled r l (.ok o) l'

theorem createdArns_look {out : Except Failure (Resource k)}
    (h : Dialogue serve (k.manager.readOne r) l heard out l') : createdArns heard = [] :=
  createdArns_eq_nil fun x hx => Exchange.not_creates_of_isLook (h.asked (asks_readOne r) x hx)

theorem createdArns_bringInLine {latest : Resource k} {out : Except Failure (Resource k × Bool)}
    (h : Dialogue serve (bringInLine k.manager r latest) l heard out l') : createdArns heard = [] :=
  createdArns_eq_nil fun x hx =>
    Exchange.not_creates_of_isChange (h.asked (asks_bringInLine r latest) x hx)

/-- A look that finds nothing is right. -/
theorem not_alive_of_absent (h : l.Sound) {e : Failure} (he : e.isNotFound = true)
    (hlook : Dialogue serve (k.manager.readOne r) l heard (.error e) l') {arn : String}
    (harn : r.arn = some arn) : ¬ l.Alive k arn := by
  intro halive
  have hout : (run Stage.serve (k.manager.readOne r) l.stage).1 = .error e := by
    rw [← (run_serve _ l).1, hlook.run_eq]
  have hnever : ∀ e', e'.IsTrouble →
      (run Stage.serve (k.manager.readOne r) l.stage).1 ≠ .error (.api e') := by
    intro e' htrouble heq
    rw [hout] at heq
    cases heq
    rw [htrouble.isNotFound_eq] at he
    cases he
  have haccount := run_of_stage_untroubled (stopsOn_readOne r) h.harmless hnever
  obtain ⟨asked, latest, -, hfound⟩ := course_look h.byArn harn halive
  rw [hout, hfound.run_eq] at haccount
  cases haccount

/-- What is known after a creation was asked for. -/
theorem Accounts.settled_creation {looks : List Exchange} {answer : Answer r.creation}
    {x : Except Failure (Resource k)} (h : Accounts l (looks ++ [⟨r.creation, answer⟩]) l')
    (hlooks : createdArns looks = []) (habsent : ∀ y, r.arn = some y → ¬ l.Alive k y)
    (hout : (∃ e, answer = .error e ∧ x = .error (.api e)) ∨
      ∃ v y, answer = .ok v ∧ x = .ok y ∧
        y.arn = (Exchange.createdArn? ⟨r.creation, answer⟩).or r.arn) :
    Settled r l (x.map fun created => conclude region now created false) l' := by
  have htold : createdArns (looks ++ [⟨r.creation, answer⟩])
      = (Exchange.createdArn? ⟨r.creation, answer⟩).toList := by
    rw [createdArns_append, hlooks]
    exact List.append_nil _
  cases hc : Exchange.createdArn? ⟨r.creation, answer⟩ with
  | none =>
    rw [hc] at htold
    obtain ⟨hcreated, halive⟩ := h.of_nil htold
    refine .kept hcreated (halive k) fun o ho => ?_
    obtain ⟨e, rfl, rfl⟩ | ⟨v, y, rfl, rfl, hy⟩ := hout
    · cases ho
    · cases ho
      rw [arn_conclude, hy, hc, Option.none_or]
  | some arn =>
    rw [hc] at htold
    obtain ⟨e, rfl, rfl⟩ | ⟨v, y, rfl, rfl, hy⟩ := hout
    · cases k <;> cases hc
    · have hcreated : l'.created = l.created ++ [arn] := h.created.trans (congrArg _ htold)
      have halive : ∀ z, l'.Alive k z → l.Alive k z ∨ z = arn := by
        intro z hz
        have hlive := h.alive k z hz
        rw [htold] at hlive
        exact hlive.imp_right List.mem_singleton.1
      refine .created hcreated halive ?_ habsent
      rw [arn_conclude, hy, hc, Option.some_or]

/-- **A pass over an object creates one entity at most,** and only where there is none. -/
theorem Sound.settled {out : Except Failure (Reconciled k)} (h : l.Sound)
    (hd : Dialogue serve (reconcile k.manager region now r) l heard out l') :
    Settled r l out l' := by
  have hall := h.accounts hd
  cases walk_of_dialogue hd with
  | rejected hvalid =>
    exact .kept rfl (fun _ => id) fun o ho => by cases ho
  | lost hvalid hlook he =>
    obtain ⟨hcreated, halive⟩ := hall.of_nil (createdArns_look hlook)
    exact .kept hcreated (halive k) fun o ho => by cases ho
  | created hvalid hlook he hcreate =>
    obtain ⟨answer, -, rfl, hout⟩ := create_cases hcreate
    exact hall.settled_creation (createdArns_look hlook) (fun y => not_alive_of_absent h he hlook) hout
  | @found looks said latest l₁ _ x hvalid hlook hline =>
    have hnone : createdArns (looks ++ said) = [] := by
      rw [createdArns_append, createdArns_look hlook, createdArns_bringInLine hline, List.append_nil]
    obtain ⟨hcreated, halive⟩ := hall.of_nil hnone
    obtain ⟨hlooks, hsaid⟩ := List.forall_mem_append.1 hall.honest
    have hlatest : latest.arn = r.arn := (yields_readOne r).of_dialogue hlook hlooks
    refine .kept hcreated (halive k) fun o ho => ?_
    cases x with
    | error e => cases ho
    | ok x =>
      cases ho
      exact (arn_conclude x.1 x.2).trans
        (((yields_bringInLine r latest).of_dialogue hline hsaid).trans hlatest)

/-! ## Deletions -/

/-- **What a deletion leaves of a ledger.** -/
theorem Sound.deleted (h : l.Sound) {out : Except Failure Unit}
    (hd : Dialogue serve (deleteEntity k.manager r) l heard out l') :
    l'.Sound ∧ l'.created = l.created ∧ (∀ y, l'.Alive k y → l.Alive k y) ∧
      (out = .ok () → ∀ y, l'.Alive k y ↔ l.Alive k y ∧ r.arn ≠ some y) := by
  have hall := h.accounts hd
  have hnone : createdArns heard = [] := createdArns_eq_nil fun x hx => by
    simpa [Exchange.creates] using hd.asked (asks_deleteEntity r) x hx
  obtain ⟨hcreated, halive⟩ := hall.of_nil hnone
  refine ⟨hall.sound, hcreated, halive k, ?_⟩
  rintro rfl
  have hstage := run_serve (deleteEntity k.manager r) l
  rw [hd.run_eq] at hstage
  have haccount := run_of_stage_ok (stopsOn_deleteEntity r) h.harmless hstage.1.symm
  rw [← hstage.2] at haccount
  exact deleteEntity_alive_iff h.byArn haccount

end Object

end Ledger

end ShareKeeper
