import ShareKeeper.Proofs.Pass

/-!
# What is asked and answered in a pass

A dialogue is how a pass ends together with everything that is asked and answered on the way, against
any service whatever. It is taken apart along `bind` (`Dialogue.bind_cases`), so what is known of a
pass that has ended becomes a statement about its parts.

Four properties of a pass, each a recursion over its requests, are read off a dialogue:

* what it asks for at all (`Asks`) holds of every exchange;
* where every refusal ends the pass (`StopsOn`), nothing follows one (`StopsOn.dialogue_cases`);
* a failure that no refusal explains is of a known sort (`Raises`), and a result has a known property
  as long as the answers have one (`Yields`);
* as long as everything is granted, the requests are those of a list (`Makes`).
-/

namespace ShareKeeper

/-! ## Exchanges -/

/-- Whether an operation changes the tags of an entity. -/
def Operation.isTagging : Operation → Bool
  | .tagResource | .untagResource => true
  | _ => false

/-- Whether an operation changes an entity that was there before and stays. -/
def Operation.isChange : Operation → Bool
  | .createPermissionVersion | .deletePermissionVersion | .setDefaultPermissionVersion
  | .updateResourceShare | .tagResource | .untagResource | .associateResourceShare
  | .disassociateResourceShare | .associateResourceSharePermission
  | .disassociateResourceSharePermission => true
  | _ => false

theorem Operation.isChange_of_update {o : Operation} (h : o.purpose = .update) :
    o.isChange = true := by
  cases o <;> first | rfl | cases h

namespace Exchange

/-- Whether the request only looks. -/
def isLook (x : Exchange) : Bool := x.1.operation.isRead

/-- Whether the request creates an entity. -/
def creates (x : Exchange) : Bool := x.1.operation.purpose = .create

/-- The error with which the request was refused, if it was. -/
def refusal? (x : Exchange) : Option ApiError :=
  match x.2 with
  | .ok _ => none
  | .error e => some e

/-- An entity that is asked for under an ARN is told of under this one, if under any. -/
def Honest : Exchange → Prop
  | ⟨.getPermission arn _, .ok d⟩ => ∀ x ∈ d.arn, x = arn
  | ⟨.createPermissionVersion arn _, .ok d⟩ => ∀ x ∈ d.arn, x = arn
  | ⟨.getShare arn, .ok d⟩ => ∀ x ∈ d.arn, x = arn
  | ⟨.updateShare arn _ _, .ok d⟩ => ∀ x ∈ d.arn, x = arn
  | _ => True

/-- A refusal tells of nothing. -/
theorem honest_error {q : Request} (e : ApiError) : Honest ⟨q, .error e⟩ := by
  cases q <;> trivial

/-- What is told of the entity with the recorded ARN leaves the ARN alone. -/
theorem or_eq_of_honest {told : Option String} {arn : String} (h : ∀ x ∈ told, x = arn) :
    told.or (some arn) = some arn := by
  cases told with
  | none => rfl
  | some x => rw [h x rfl, Option.some_or]

variable {x : Exchange}

theorem not_creates_of_isLook (h : x.isLook = true) : x.creates = false := by
  obtain ⟨q, answer⟩ := x
  cases q <;> first | rfl | cases h

theorem not_creates_of_isChange (h : x.1.operation.isChange = true) : x.creates = false := by
  obtain ⟨q, answer⟩ := x
  cases q <;> first | rfl | cases h

theorem not_isLook_of_isChange (h : x.1.operation.isChange = true) : x.isLook = false := by
  obtain ⟨q, answer⟩ := x
  cases q <;> first | rfl | cases h

end Exchange

namespace Pass

variable {α β σ : Type} {service : Service σ} {s s' : σ} {heard : List Exchange}
  {out : Except Failure α}

/-- A pass ends as told after the listed exchanges. -/
structure Dialogue (service : Service σ) (p : Pass α) (s : σ) (heard : List Exchange)
    (out : Except Failure α) (s' : σ) : Prop where
  run_eq : run service p s = (out, s')
  transcript_eq : transcript service p s = heard

namespace Dialogue

/-- The dialogue that takes place. -/
theorem of_run {p : Pass α} (h : run service p s = (out, s')) :
    Dialogue service p s (transcript service p s) out s' := ⟨h, rfl⟩

theorem done (a : α) : Dialogue service (.done a) s [] (.ok a) s := ⟨rfl, rfl⟩

/-- One dialogue after another. -/
theorem bind {p : Pass α} {f : α → Pass β} {a : α} {s₁ : σ} {l l' : List Exchange}
    {out : Except Failure β} (hp : Dialogue service p s l (.ok a) s₁)
    (hf : Dialogue service (f a) s₁ l' out s') : Dialogue service (p >>= f) s (l ++ l') out s' where
  run_eq := by rw [bind_eq, run_bind, hp.run_eq]; exact hf.run_eq
  transcript_eq := by
    rw [bind_eq, transcript_bind, hp.run_eq, hp.transcript_eq, ← hf.transcript_eq]

theorem done_inv {a : α} (h : Dialogue service (.done a) s heard out s') :
    heard = [] ∧ out = .ok a ∧ s' = s := by
  obtain ⟨hrun, rfl⟩ := h
  cases hrun
  exact ⟨rfl, rfl, rfl⟩

theorem fail_inv {e : Failure} (h : Dialogue service (.fail e) s heard out s') :
    heard = [] ∧ out = .error e ∧ s' = s := by
  obtain ⟨hrun, rfl⟩ := h
  cases hrun
  exact ⟨rfl, rfl, rfl⟩

/-- The first exchange, and what follows it. -/
theorem call_inv {r : Request} {next : Answer r → Pass α}
    (h : Dialogue service (.call r next) s heard out s') :
    ∃ rest, heard = ⟨r, (service r s).1⟩ :: rest ∧
      Dialogue service (next (service r s).1) (service r s).2 rest out s' := by
  obtain ⟨hrun, rfl⟩ := h
  exact ⟨_, rfl, hrun, rfl⟩

/-- What is noted is not heard. -/
theorem note_inv {c : CallRecord} {p : Pass α} (h : Dialogue service (.note c p) s heard out s') :
    Dialogue service p s heard out s' := ⟨h.run_eq, h.transcript_eq⟩

/-- A request that is refused or granted. -/
theorem call_cases {r : Request} {next : Answer r → Pass α}
    (h : Dialogue service (.call r next) s heard out s') :
    (∃ e s₁ rest, heard = ⟨r, .error e⟩ :: rest ∧
        Dialogue service (next (.error e)) s₁ rest out s') ∨
      ∃ v s₁ rest, heard = ⟨r, .ok v⟩ :: rest ∧ Dialogue service (next (.ok v)) s₁ rest out s' := by
  obtain ⟨rest, rfl, hrest⟩ := h.call_inv
  generalize (service r s).1 = answer at hrest ⊢
  cases answer with
  | error e => exact .inl ⟨e, _, rest, rfl, hrest⟩
  | ok v => exact .inr ⟨v, _, rest, rfl, hrest⟩

theorem lift_inv {x : Except Failure α} (h : Dialogue service (Pass.lift x) s heard out s') :
    heard = [] ∧ out = x ∧ s' = s := by
  cases x with
  | ok a => exact h.done_inv
  | error e => exact h.fail_inv

/-- What was found out goes on without a request. -/
theorem lift_ok_inv {x : Except Failure α} {a : α} {f : α → Pass β} {out : Except Failure β}
    (h : Dialogue service (Pass.lift x >>= f) s heard out s') (hx : x = .ok a) :
    Dialogue service (f a) s heard out s' := by
  subst hx
  exact h

/-- A pass that asks for nothing more. -/
theorem over_inv {p : Pass α} {x : Except Failure α} (h : Dialogue service p s heard out s')
    (hp : p.Over x) : heard = [] ∧ out = x ∧ s' = s := by
  obtain ⟨hrun, rfl⟩ := h
  rw [hp.run_eq] at hrun
  cases hrun
  exact ⟨hp.transcript_eq service s, rfl, rfl⟩

variable {label : CallLabel}

/-- A request whose refusal fails the pass. -/
theorem recorded_cases {r : Request} {out : Except Failure r.Reply}
    (h : Dialogue service (ask r >>= record label) s heard out s') :
    ∃ answer : Answer r, service r s = (answer, s') ∧ heard = [⟨r, answer⟩] ∧
      ((∃ v, answer = .ok v ∧ out = .ok v) ∨ ∃ e, answer = .error e ∧ out = .error (.api e)) := by
  obtain ⟨rest, rfl, hrest⟩ := h.call_inv
  cases hserve : service r s with
  | mk answer s₁ =>
    rw [hserve] at hrest
    obtain ⟨rfl, rfl, rfl⟩ := hrest.over_inv (over_record label answer)
    cases answer with
    | ok v => exact ⟨.ok v, rfl, rfl, .inl ⟨v, rfl, rfl⟩⟩
    | error e => exact ⟨.error e, rfl, rfl, .inr ⟨e, rfl, rfl⟩⟩

/-- **A dialogue in two parts,** or in one if that fails. -/
theorem bind_cases {p : Pass α} {f : α → Pass β} {out : Except Failure β}
    (h : Dialogue service (p >>= f) s heard out s') :
    (∃ e, Dialogue service p s heard (.error e) s' ∧ out = .error e) ∨
      ∃ a s₁ l l', Dialogue service p s l (.ok a) s₁ ∧ Dialogue service (f a) s₁ l' out s' ∧
        heard = l ++ l' := by
  obtain ⟨hrun, rfl⟩ := h
  rw [bind_eq, run_bind] at hrun
  rw [bind_eq, transcript_bind]
  cases hp : run service p s with
  | mk x s₁ =>
    rw [hp] at hrun
    cases x with
    | ok a => exact .inr ⟨a, s₁, _, _, ⟨hp, rfl⟩, ⟨hrun, rfl⟩, rfl⟩
    | error e =>
      cases hrun
      exact .inl ⟨e, ⟨hp, (List.append_nil _).symm⟩, rfl⟩

/-- A request and what follows when it is granted. -/
theorem recorded_bind_cases {r : Request} {f : r.Reply → Pass α}
    (h : Dialogue service (ask r >>= record label >>= f) s heard out s') :
    (∃ e, service r s = (.error e, s') ∧ heard = [⟨r, .error e⟩] ∧ out = .error (.api e)) ∨
      ∃ v s₁ rest, service r s = (.ok v, s₁) ∧ Dialogue service (f v) s₁ rest out s' ∧
        heard = ⟨r, .ok v⟩ :: rest := by
  obtain ⟨e, hask, rfl⟩ | ⟨v, s₁, l, rest, hask, hrest, rfl⟩ := h.bind_cases
  · obtain ⟨answer, hserve, rfl, ⟨v, -, hout⟩ | ⟨a, rfl, hout⟩⟩ := hask.recorded_cases
    · cases hout
    · cases hout
      exact .inl ⟨a, hserve, rfl, rfl⟩
  · obtain ⟨answer, hserve, rfl, ⟨w, rfl, hout⟩ | ⟨a, -, hout⟩⟩ := hask.recorded_cases
    · cases hout
      exact .inr ⟨v, s₁, rest, hserve, hrest, rfl⟩
    · cases hout

/-- A part whose failure is only looked at. -/
theorem attempt_bind_inv {p : Pass α} {f : Except Failure α → Pass β} {out : Except Failure β}
    (h : Dialogue service (p.attempt >>= f) s heard out s') :
    ∃ x s₁ l l', Dialogue service p s l x s₁ ∧ Dialogue service (f x) s₁ l' out s' ∧
      heard = l ++ l' := by
  obtain ⟨e, hp, -⟩ | ⟨x, s₁, l, l', hp, hf, rfl⟩ := h.bind_cases
  · have hrun := hp.run_eq
    rw [run_attempt] at hrun
    cases hrun
  · have hrun := hp.run_eq
    have hheard := hp.transcript_eq
    rw [run_attempt] at hrun
    rw [transcript_attempt] at hheard
    cases hrun
    exact ⟨_, _, l, l', ⟨rfl, hheard⟩, hf, rfl⟩

/-- A request whose refusal is only looked at. -/
theorem attempt_recorded_cases {r : Request} {f : Except Failure r.Reply → Pass α}
    (h : Dialogue service ((ask r >>= record label).attempt >>= f) s heard out s') :
    (∃ e s₁ rest, heard = ⟨r, .error e⟩ :: rest ∧
        Dialogue service (f (.error (.api e))) s₁ rest out s') ∨
      ∃ v s₁ rest, heard = ⟨r, .ok v⟩ :: rest ∧ Dialogue service (f (.ok v)) s₁ rest out s' := by
  obtain ⟨x, s₁, l, rest, hask, hrest, rfl⟩ := h.attempt_bind_inv
  obtain ⟨answer, -, rfl, ⟨v, rfl, rfl⟩ | ⟨e, rfl, rfl⟩⟩ := hask.recorded_cases
  · exact .inr ⟨v, s₁, rest, rfl, hrest⟩
  · exact .inl ⟨e, s₁, rest, rfl, hrest⟩

end Dialogue

/-! ## What is asked for -/

/-- Every exchange is about a request that the pass can make. -/
theorem Asks.of_mem {allowed : Request → Prop} {p : Pass α} (hp : p.Asks allowed) :
    ∀ x ∈ transcript service p s, allowed x.1 := by
  induction p generalizing s with
  | done a => exact fun x hx => absurd hx List.not_mem_nil
  | fail e => exact fun x hx => absurd hx List.not_mem_nil
  | call r next ih =>
    intro x hx
    rcases List.mem_cons.1 hx with rfl | hx
    · exact hp.1
    · exact ih _ (hp.2 _) x hx
  | note c next ih => exact ih hp

theorem Dialogue.asked {allowed : Request → Prop} {p : Pass α}
    (h : Dialogue service p s heard out s') (hp : p.Asks allowed) : ∀ x ∈ heard, allowed x.1 := by
  rw [← h.transcript_eq]
  exact hp.of_mem

/-! ## Refusals -/

/-- **Nothing follows a refusal** where every one ends the pass, and the pass fails with it. -/
theorem StopsOn.dialogue_cases {p : Pass α} (hp : p.StopsOn fun _ => True)
    (h : Dialogue service p s heard out s') :
    (∀ x ∈ heard, x.refusal? = none) ∨
      ∃ before x e, heard = before ++ [x] ∧ x.refusal? = some e ∧
        (∀ y ∈ before, y.refusal? = none) ∧ out = .error (.api e) := by
  induction p generalizing s heard with
  | done a =>
    obtain ⟨rfl, -, -⟩ := h.done_inv
    exact .inl fun x hx => absurd hx List.not_mem_nil
  | fail e =>
    obtain ⟨rfl, -, -⟩ := h.fail_inv
    exact .inl fun x hx => absurd hx List.not_mem_nil
  | call r next ih =>
    obtain ⟨rest, rfl, hrest⟩ := h.call_inv
    generalize hanswer : (service r s).1 = answer at hrest ⊢
    cases answer with
    | error e =>
      obtain ⟨rfl, rfl, -⟩ := hrest.over_inv (hp.1 e trivial)
      exact .inr ⟨[], _, e, rfl, rfl, fun y hy => absurd hy List.not_mem_nil, rfl⟩
    | ok v =>
      rcases ih _ (hp.2 _) hrest with hnone | ⟨before, x, e, rfl, hx, hbefore, hout⟩
      · refine .inl fun x hx => ?_
        rcases List.mem_cons.1 hx with rfl | hx
        · rfl
        · exact hnone x hx
      · refine .inr ⟨⟨r, .ok v⟩ :: before, x, e, rfl, hx, fun y hy => ?_, hout⟩
        rcases List.mem_cons.1 hy with rfl | hy
        · rfl
        · exact hbefore y hy
  | note c next ih => exact ih hp h.note_inv

section Stops

variable {p : Pass α} (hp : p.StopsOn fun _ => True) (h : Dialogue service p s heard out s')
include hp h

theorem StopsOn.pairwise_granted : heard.Pairwise fun x _ => x.refusal? = none := by
  rcases hp.dialogue_cases h with hnone | ⟨before, x, e, rfl, -, hbefore, -⟩
  · exact List.pairwise_of_forall_mem_list fun x hx _ _ => hnone x hx
  · refine List.pairwise_append.2
      ⟨List.pairwise_of_forall_mem_list fun y hy _ _ => hbefore y hy, List.pairwise_singleton _ _,
        fun y hy _ _ => hbefore y hy⟩

/-- What is said of the exchanges after a refusal. -/
theorem StopsOn.pairwise_refused {P : Exchange → Exchange → ApiError → Prop} :
    heard.Pairwise fun x y => ∀ e ∈ x.refusal?, P x y e :=
  (hp.pairwise_granted h).imp fun hx e he => by
    rw [hx] at he
    cases he

theorem StopsOn.eq_of_refused {x : Exchange} (hx : x ∈ heard) {e : ApiError}
    (he : x.refusal? = some e) : out = .error (.api e) := by
  rcases hp.dialogue_cases h with hnone | ⟨before, y, e', rfl, hy, hbefore, hout⟩
  · rw [hnone x hx] at he
    cases he
  · rcases List.mem_append.1 hx with hx | hx
    · rw [hbefore x hx] at he
      cases he
    · cases List.mem_singleton.1 hx
      rw [hy] at he
      cases he
      exact hout

end Stops

/-- A pass that gets through met no refusal. -/
theorem StopsOn.granted {p : Pass α} (hp : p.StopsOn fun _ => True) {a : α}
    (h : Dialogue service p s heard (.ok a) s') : ∀ x ∈ heard, x.refusal? = none := by
  intro x hx
  cases hrefused : x.refusal? with
  | none => rfl
  | some e => cases hp.eq_of_refused h hx hrefused

/-! ## Failures -/

/-- A failure that does not just hand on a refusal is of a certain sort. -/
def Raises (sort : Failure → Prop) : Pass α → Prop
  | .done _ => True
  | .fail e => sort e
  | .call _ next =>
    ∀ answer, (∃ e, answer = .error e ∧ (next answer).Over (.error (.api e))) ∨
      Raises sort (next answer)
  | .note _ next => Raises sort next

section Raises

variable {sort : Failure → Prop}

theorem Raises.bind {p : Pass α} {f : α → Pass β} (hp : p.Raises sort)
    (hf : ∀ a, (f a).Raises sort) : (p >>= f).Raises sort := by
  rw [bind_eq]
  induction p with
  | done a => exact hf a
  | fail e => exact hp
  | call r next ih =>
    intro answer
    rcases hp answer with ⟨e, rfl, hover⟩ | hnext
    · exact .inl ⟨e, rfl, hover.bind_error⟩
    · exact .inr (ih answer hnext)
  | note c next ih => exact ih hp

theorem raises_lift {x : Except Failure α} (h : ∀ e, x = .error e → sort e) :
    (Pass.lift x).Raises sort := by
  cases x with
  | ok a => trivial
  | error e => exact h e rfl

theorem raises_recorded {label : CallLabel} (r : Request) :
    (ask r >>= record label).Raises sort := by
  intro answer
  cases answer with
  | ok v => exact .inr trivial
  | error e => exact .inl ⟨e, rfl, rfl⟩

theorem raises_askAll {label : CallLabel} (l : List Request) : (askAll label l).Raises sort := by
  induction l with
  | nil => trivial
  | cons r rest ih => exact (raises_recorded r).bind fun _ => ih

theorem Raises.mono {sort' : Failure → Prop} {p : Pass α} (hp : p.Raises sort)
    (h : ∀ e, sort e → sort' e) : p.Raises sort' := by
  induction p with
  | done a => trivial
  | fail e => exact h e hp
  | call r next ih => exact fun answer => (hp answer).imp_right (ih answer)
  | note c next ih => exact ih hp

/-- **A failure is of the sort, or it is the refusal of a request.** -/
theorem Raises.dialogue_cases {p : Pass α} (hp : p.Raises sort) {e : Failure}
    (h : Dialogue service p s heard (.error e) s') :
    sort e ∨ ∃ x ∈ heard, ∃ a, x.refusal? = some a ∧ e = .api a := by
  induction p generalizing s heard with
  | done a =>
    obtain ⟨-, hout, -⟩ := h.done_inv
    cases hout
  | fail e' =>
    obtain ⟨-, hout, -⟩ := h.fail_inv
    cases hout
    exact .inl hp
  | call r next ih =>
    obtain ⟨rest, rfl, hrest⟩ := h.call_inv
    generalize hanswer : (service r s).1 = answer at hrest ⊢
    rcases hp answer with ⟨a, rfl, hover⟩ | hnext
    · obtain ⟨-, hout, -⟩ := hrest.over_inv hover
      cases hout
      exact .inr ⟨_, List.mem_cons_self, a, rfl, rfl⟩
    · exact (ih answer hnext hrest).imp_right fun ⟨x, hx, h⟩ => ⟨x, List.mem_cons_of_mem _ hx, h⟩
  | note c next ih => exact ih hp h.note_inv

end Raises

/-! ## Results -/

/-- As long as all answers are of a certain sort, the result has a property. -/
def Yields (fair : Exchange → Prop) (P : α → Prop) : Pass α → Prop
  | .done a => P a
  | .fail _ => True
  | .call r next => ∀ answer, fair ⟨r, answer⟩ → Yields fair P (next answer)
  | .note _ next => Yields fair P next

section Yields

variable {fair : Exchange → Prop} {P : α → Prop} {Q : β → Prop}

theorem Yields.bind {p : Pass α} {f : α → Pass β} (hp : p.Yields fair P)
    (hf : ∀ a, P a → (f a).Yields fair Q) : (p >>= f).Yields fair Q := by
  rw [bind_eq]
  induction p with
  | done a => exact hf a hp
  | fail e => trivial
  | call r next ih => exact fun answer hfair => ih answer (hp answer hfair)
  | note c next ih => exact ih hp

/-- A part of which nothing needs to be known. -/
theorem Yields.bind_any (p : Pass α) {f : α → Pass β} (hf : ∀ a, (f a).Yields fair Q) :
    (p >>= f).Yields fair Q := by
  rw [bind_eq]
  induction p with
  | done a => exact hf a
  | fail e => trivial
  | call r next ih => exact fun answer _ => ih answer
  | note c next ih => exact ih

theorem yields_lift {x : Except Failure α} (h : ∀ a, x = .ok a → P a) :
    (Pass.lift x).Yields fair P := by
  cases x with
  | ok a => exact h a rfl
  | error e => trivial

theorem yields_recorded {label : CallLabel} {r : Request} {P : r.Reply → Prop}
    (h : ∀ v : r.Reply, fair ⟨r, .ok v⟩ → P v) : (ask r >>= record label).Yields fair P := by
  intro answer hfair
  cases answer with
  | ok v => exact h v hfair
  | error e => trivial

/-- **The result of a pass whose answers are all of the sort.** -/
theorem Yields.of_dialogue {p : Pass α} (hp : p.Yields fair P) {a : α}
    (h : Dialogue service p s heard (.ok a) s') (hfair : ∀ x ∈ heard, fair x) : P a := by
  induction p generalizing s heard with
  | done b =>
    obtain ⟨-, hout, -⟩ := h.done_inv
    cases hout
    exact hp
  | fail e =>
    obtain ⟨-, hout, -⟩ := h.fail_inv
    cases hout
  | call r next ih =>
    obtain ⟨rest, rfl, hrest⟩ := h.call_inv
    exact ih _ (hp _ (hfair _ List.mem_cons_self)) hrest
      fun x hx => hfair x (List.mem_cons_of_mem _ hx)
  | note c next ih => exact ih hp h.note_inv hfair

/-- The result of a pass whatever the answers are. -/
theorem Yields.of_ok {p : Pass α} (hp : p.Yields (fun _ => True) P) {a : α}
    (h : Dialogue service p s heard (.ok a) s') : P a := hp.of_dialogue h fun _ _ => trivial

end Yields

/-! ## Requests that are all granted -/

/-- As long as every request is granted with a reply of a certain sort, the pass makes the listed
requests and gets through. -/
def Makes (fair : Exchange → Prop) : Pass α → List Request → Prop
  | .done _, l => l = []
  | .fail _, _ => False
  | .call r next, l =>
    ∃ rest, l = r :: rest ∧ ∀ v, fair ⟨r, .ok v⟩ → Makes fair (next (.ok v)) rest
  | .note _ next, l => Makes fair next l

section Makes

variable {fair : Exchange → Prop} {l l' : List Request}

theorem Makes.bind {p : Pass α} {f : α → Pass β} (hp : p.Makes fair l)
    (hf : ∀ a, (f a).Makes fair l') : (p >>= f).Makes fair (l ++ l') := by
  rw [bind_eq]
  induction p generalizing l with
  | done a =>
    cases hp
    exact hf a
  | fail e => exact hp.elim
  | call r next ih =>
    obtain ⟨rest, rfl, hrest⟩ := hp
    exact ⟨rest ++ l', rfl, fun v hv => ih (.ok v) (hrest v hv)⟩
  | note c next ih => exact ih hp

/-- A pass that is finished without another request. -/
theorem Makes.bind_done {p : Pass α} {f : α → Pass β} (hp : p.Makes fair l)
    (hf : ∀ a, ∃ b, f a = .done b) : (p >>= f).Makes fair l := by
  have hmakes : (p >>= f).Makes fair (l ++ []) := hp.bind fun a => by
    obtain ⟨b, hb⟩ := hf a
    rw [hb]
    exact rfl
  rwa [List.append_nil] at hmakes

/-- What is found out without the service is no request. -/
theorem Makes.lift_bind {x : Except Failure α} {a : α} {f : α → Pass β} (hx : x = .ok a)
    (hf : (f a).Makes fair l) : (Pass.lift x >>= f).Makes fair l := by
  subst hx
  exact hf

theorem makes_recorded {label : CallLabel} (r : Request) :
    (ask r >>= record label).Makes fair [r] := ⟨[], rfl, fun _ _ => rfl⟩

theorem makes_askAll {label : CallLabel} (l : List Request) : (askAll label l).Makes fair l := by
  induction l with
  | nil => exact rfl
  | cons r rest ih => exact (makes_recorded r).bind fun _ => ih

/-- If every refusal ends the pass, it asks for nothing else. -/
theorem Makes.asks {p : Pass α} (hp : p.Makes (fun _ => True) l) (hstops : p.StopsOn fun _ => True) :
    p.Asks (· ∈ l) := by
  induction p generalizing l with
  | done a => trivial
  | fail e => trivial
  | call r next ih =>
    obtain ⟨rest, rfl, hnext⟩ := hp
    refine ⟨List.mem_cons_self, fun answer => ?_⟩
    cases answer with
    | error e => exact (hstops.1 e trivial).asks
    | ok v =>
      exact (ih (.ok v) (hnext v trivial) (hstops.2 (.ok v))).mono
        fun q hq => List.mem_cons_of_mem _ hq
  | note c next ih => exact ih hp hstops

/-- If every refusal ends the pass, it asks for what is listed up to the first one. -/
theorem Makes.requests_isPrefix {p : Pass α} (hp : p.Makes (fun _ => True) l)
    (hstops : p.StopsOn fun _ => True)
    (h : Dialogue service p s heard out s') : heard.map Sigma.fst <+: l := by
  induction p generalizing s heard l with
  | done a =>
    obtain ⟨rfl, -, -⟩ := h.done_inv
    exact List.nil_prefix
  | fail e => exact hp.elim
  | call r next ih =>
    obtain ⟨rest, rfl, hnext⟩ := hp
    obtain ⟨e, s₁, tail, rfl, hend⟩ | ⟨v, s₁, tail, rfl, htail⟩ := h.call_cases
    · obtain ⟨rfl, -, -⟩ := hend.over_inv (hstops.1 e trivial)
      exact (List.prefix_cons_inj r).2 List.nil_prefix
    · exact (List.prefix_cons_inj r).2 (ih (.ok v) (hnext v trivial) (hstops.2 _) htail)
  | note c next ih => exact ih hp hstops h.note_inv

/-- **The requests of a pass in which everything was granted.** -/
theorem Makes.requests_eq {p : Pass α} (hp : p.Makes fair l)
    (h : Dialogue service p s heard out s') (hgranted : ∀ x ∈ heard, x.refusal? = none)
    (hfair : ∀ x ∈ heard, fair x) : heard.map Sigma.fst = l := by
  induction p generalizing s heard l with
  | done a =>
    obtain ⟨rfl, -, -⟩ := h.done_inv
    cases hp
    rfl
  | fail e => exact hp.elim
  | call r next ih =>
    obtain ⟨rest, rfl, hnext⟩ := hp
    obtain ⟨e, s₁, tail, rfl, -⟩ | ⟨v, s₁, tail, rfl, htail⟩ := h.call_cases
    · have := hgranted _ List.mem_cons_self
      cases this
    · exact congrArg (r :: ·) (ih (.ok v) (hnext v (hfair _ List.mem_cons_self)) htail
        (fun x hx => hgranted x (List.mem_cons_of_mem _ hx))
        fun x hx => hfair x (List.mem_cons_of_mem _ hx))
  | note c next ih => exact ih hp h.note_inv hgranted hfair

end Makes

end Pass

end ShareKeeper
