import ShareKeeper.Account.Script
import ShareKeeper.Session

/-!
# What a pass does against a service

`Pass.run` says how a pass ends. Four more things are asked about it here.

* `Course` — how it ends together with the requests that it makes on the way. Courses are put
  together along `bind`, so that what is known of the parts of a pass becomes a statement about the
  whole.
* `Asks` — which requests it can make at all, whatever the answers are. An invariant that these
  requests keep is kept by the pass (`run_invariant`).
* `StopsOn` — which refusals end it at once, with the refusal as its failure. Against a service that
  refuses in no other way, a pass that succeeds met no refusal (`run_of_stage_ok`).
* `CompletedBy` — which requests, once granted, complete it. A pass that fails was granted none of
  them (`run_error_invariant`).
-/

namespace ShareKeeper

/-- A request with its answer. -/
abbrev Exchange : Type := (r : Request) × Answer r

namespace Pass

variable {α β σ : Type}

theorem bind_eq (p : Pass α) (f : α → Pass β) : p >>= f = p.bind f := rfl

/-- A result that counts as one, taken apart. -/
theorem exists_of_isOk {x : Except Failure α × σ} (h : x.1.isOk = true) :
    ∃ a s, x = (.ok a, s) := by
  obtain ⟨out, s⟩ := x
  cases out with
  | ok a => exact ⟨a, s, rfl⟩
  | error e => cases h

/-- The failure of a pass, if it failed. -/
def failure? : Except Failure α → Option Failure
  | .ok _ => none
  | .error e => some e

/-- A failure, taken apart. -/
theorem exists_of_failure? {x : Except Failure α × σ} {e : Failure} (h : failure? x.1 = some e) :
    ∃ s, x = (.error e, s) := by
  obtain ⟨out, s⟩ := x
  cases out with
  | ok a => cases h
  | error e' =>
    cases h
    exact ⟨s, rfl⟩

/-! ## Requests and answers -/

/-- What is asked and answered in a pass, in the order of it. -/
def transcript (service : Service σ) : Pass α → σ → List Exchange
  | .done _, _ => []
  | .fail _, _ => []
  | .call r next, s =>
    ⟨r, (service r s).1⟩ :: transcript service (next (service r s).1) (service r s).2
  | .note _ next, s => transcript service next s

/-- The requests of a pass, in their order. -/
def requests (service : Service σ) (p : Pass α) (s : σ) : List Request :=
  (transcript service p s).map Sigma.fst

theorem requests_call (service : Service σ) (r : Request) (next : Answer r → Pass α) (s : σ) :
    requests service (.call r next) s
      = r :: requests service (next (service r s).1) (service r s).2 := rfl

/-- **The transcript of passes in sequence.** -/
theorem transcript_bind (service : Service σ) (p : Pass α) (f : α → Pass β) (s : σ) :
    transcript service (p.bind f) s
      = transcript service p s ++
        match run service p s with
        | (.ok a, s) => transcript service (f a) s
        | (.error _, _) => [] := by
  induction p generalizing s with
  | done a => rfl
  | fail e => rfl
  | call r next ih => exact congrArg (⟨r, (service r s).1⟩ :: ·) (ih (service r s).1 (service r s).2)
  | note c next ih => exact ih s

theorem transcript_attempt (service : Service σ) (p : Pass α) (s : σ) :
    transcript service p.attempt s = transcript service p s := by
  induction p generalizing s with
  | done a => rfl
  | fail e => rfl
  | call r next ih => exact congrArg (⟨r, (service r s).1⟩ :: ·) (ih (service r s).1 (service r s).2)
  | note c next ih => exact ih s

theorem mem_transcript_bind {service : Service σ} {p : Pass α} {s : σ} {x : Exchange}
    (h : x ∈ transcript service p s) (f : α → Pass β) : x ∈ transcript service (p >>= f) s := by
  rw [bind_eq, transcript_bind]
  exact List.mem_append_left _ h

/-- What is heard of one request. -/
theorem mem_transcript_recorded {service : Service σ} {label : CallLabel} {r : Request}
    {answer : Answer r} {s s' : σ} (h : service r s = (answer, s')) :
    ⟨r, answer⟩ ∈ transcript service (ask r >>= record label) s := by
  have hheard : (⟨r, (service r s).1⟩ : Exchange) ∈ transcript service (ask r >>= record label) s :=
    List.mem_cons_self
  rwa [h] at hheard

/-- A session journals the requests of a pass and leaves its course alone. -/
theorem run_session (service : Service σ) (p : Pass α) (s : Session σ) :
    (Session.run service p s).1 = (run service p s.backend).1 ∧
      (Session.run service p s).2.backend = (run service p s.backend).2 ∧
      (Session.run service p s).2.journal = s.journal ++ requests service p s.backend := by
  induction p generalizing s with
  | done a => exact ⟨rfl, rfl, (List.append_nil _).symm⟩
  | fail e => exact ⟨rfl, rfl, (List.append_nil _).symm⟩
  | call r next ih =>
    obtain ⟨hout, hback, hjournal⟩ := ih (service r s.backend).1 (s.send service r).2
    refine ⟨hout, hback, ?_⟩
    rw [requests_call, List.append_cons]
    exact hjournal
  | note c next ih => exact ih (s.count c)

/-! ## Passes that ask for nothing more -/

/-- A pass that makes no request and ends as told. -/
def Over (out : Except Failure α) : Pass α → Prop
  | .done a => out = .ok a
  | .fail e => out = .error e
  | .call .. => False
  | .note _ next => Over out next

section Over

variable {p : Pass α} {x : Except Failure α}

theorem over_lift (x : Except Failure α) : (Pass.lift x).Over x := by
  cases x <;> exact rfl

theorem over_record (label : CallLabel) (answer : Except ApiError α) :
    (record label answer).Over (answer.mapError .api) := over_lift _

theorem Over.bind {f : α → Pass β} {a : α} {out : Except Failure β} (hp : p.Over (.ok a))
    (hf : (f a).Over out) : (p >>= f).Over out := by
  rw [bind_eq]
  induction p with
  | done b =>
    cases hp
    exact hf
  | fail e => cases hp
  | call r next ih => exact hp.elim
  | note c next ih => exact ih hp

theorem Over.bind_error {f : α → Pass β} {e : Failure} (hp : p.Over (.error e)) :
    (p >>= f).Over (.error e) := by
  rw [bind_eq]
  induction p with
  | done a => cases hp
  | fail e' =>
    cases hp
    exact rfl
  | call r next ih => exact hp.elim
  | note c next ih => exact ih hp

theorem Over.attempt (hp : p.Over x) : p.attempt.Over (.ok x) := by
  induction p with
  | done a =>
    cases hp
    exact rfl
  | fail e =>
    cases hp
    exact rfl
  | call r next ih => exact hp.elim
  | note c next ih => exact ih hp

theorem Over.run_eq (hp : p.Over x) (service : Service σ) (s : σ) : run service p s = (x, s) := by
  induction p with
  | done a => exact congrArg (·, s) hp.symm
  | fail e => exact congrArg (·, s) hp.symm
  | call r next ih => exact hp.elim
  | note c next ih => exact ih hp

theorem Over.transcript_eq (hp : p.Over x) (service : Service σ) (s : σ) :
    transcript service p s = [] := by
  induction p with
  | done a => rfl
  | fail e => rfl
  | call r next ih => exact hp.elim
  | note c next ih => exact ih hp

end Over

/-! ## Courses -/

/-- A pass ends as told after it made the listed requests. -/
structure Course (service : Service σ) (p : Pass α) (s : σ) (asked : List Request)
    (out : Except Failure α) (s' : σ) : Prop where
  run_eq : run service p s = (out, s')
  requests_eq : requests service p s = asked

namespace Course

variable {service : Service σ} {s s₁ s' : σ} {asked asked' : List Request}

/-- A pass takes one course only. -/
theorem unique {p : Pass α} {out out' : Except Failure α} (h : Course service p s asked out s₁)
    (h' : Course service p s asked' out' s') : asked = asked' ∧ out = out' ∧ s₁ = s' :=
  ⟨h.requests_eq.symm.trans h'.requests_eq, Prod.mk.inj (h.run_eq.symm.trans h'.run_eq)⟩

theorem done (a : α) : Course service (.done a) s [] (.ok a) s := ⟨rfl, rfl⟩

theorem fail (e : Failure) : Course service (.fail e : Pass α) s [] (.error e) s := ⟨rfl, rfl⟩

/-- One pass after another. -/
theorem bind {p : Pass α} {f : α → Pass β} {a : α} {out : Except Failure β}
    (hp : Course service p s asked (.ok a) s₁) (hf : Course service (f a) s₁ asked' out s') :
    Course service (p >>= f) s (asked ++ asked') out s' where
  run_eq := by rw [bind_eq, run_bind, hp.run_eq]; exact hf.run_eq
  requests_eq := by
    rw [bind_eq, requests, transcript_bind, hp.run_eq, List.map_append, ← requests, ← requests,
      hp.requests_eq, hf.requests_eq]

/-- A pass that fails is not gone on with. -/
theorem bind_error {p : Pass α} {f : α → Pass β} {e : Failure}
    (hp : Course service p s asked (.error e) s') :
    Course service (p >>= f) s asked (.error e) s' where
  run_eq := by rw [bind_eq, run_bind, hp.run_eq]
  requests_eq := by
    rw [bind_eq, requests, transcript_bind, hp.run_eq, List.append_nil, ← requests, hp.requests_eq]

/-- A pass that makes no request before it goes on. -/
theorem bind_quiet {p : Pass α} {f : α → Pass β} {a : α} {out : Except Failure β}
    (hp : Course service p s [] (.ok a) s₁) (hf : Course service (f a) s₁ asked out s') :
    Course service (p >>= f) s asked out s' := hp.bind hf

/-- A pass that goes on without a request. -/
theorem bind_done {p : Pass α} {f : α → Pass β} {a : α} {b : β}
    (hp : Course service p s asked (.ok a) s₁) (hf : f a = .done b) :
    Course service (p >>= f) s asked (.ok b) s₁ := by
  have hdone : Course service (f a) s₁ [] (.ok b) s₁ := hf ▸ done b
  have := hp.bind hdone
  rwa [List.append_nil] at this

/-- What is heard after a part of a pass. -/
theorem mem_transcript_bind {p : Pass α} {f : α → Pass β} {a : α} {x : Exchange}
    (hp : Course service p s asked (.ok a) s₁) (h : x ∈ transcript service (f a) s₁) :
    x ∈ transcript service (p >>= f) s := by
  rw [bind_eq, transcript_bind, hp.run_eq]
  exact List.mem_append_right _ h

theorem attempt {p : Pass α} {out : Except Failure α} (hp : Course service p s asked out s') :
    Course service p.attempt s asked (.ok out) s' where
  run_eq := by rw [run_attempt, hp.run_eq]
  requests_eq := by rw [requests, transcript_attempt, ← requests, hp.requests_eq]

theorem lift_ok {x : Except Failure α} {a : α} (h : x = .ok a) :
    Course service (Pass.lift x) s [] (.ok a) s := by
  subst h
  exact done a

theorem lift_error {x : Except Failure α} {e : Failure} (h : x = .error e) :
    Course service (Pass.lift x) s [] (.error e) s := by
  subst h
  exact fail e

/-- A request before the rest of the pass. -/
theorem call {r : Request} {next : Answer r → Pass α} {answer : Answer r} {out : Except Failure α}
    (h : service r s = (answer, s₁)) (hnext : Course service (next answer) s₁ asked out s') :
    Course service (.call r next) s (r :: asked) out s' where
  run_eq := by rw [run_call, h]; exact hnext.run_eq
  requests_eq := by rw [requests_call, h]; exact congrArg (r :: ·) hnext.requests_eq

/-- What is noted is no request. -/
theorem note {c : CallRecord} {p : Pass α} {out : Except Failure α}
    (h : Course service p s asked out s') : Course service (.note c p) s asked out s' :=
  ⟨h.run_eq, h.requests_eq⟩

variable {label : CallLabel}

theorem recorded_ok {r : Request} {v : r.Reply} (h : service r s = (.ok v, s')) :
    Course service (ask r >>= record label) s [r] (.ok v) s' := call h (note (done v))

theorem recorded_error {r : Request} {e : ApiError} (h : service r s = (.error e, s')) :
    Course service (ask r >>= record label) s [r] (.error (.api e)) s' := call h (note (fail _))

/-- A request that is granted, where its refusal would only be looked at. -/
theorem attempt_recorded_ok {r : Request} {f : Except Failure r.Reply → Pass α} {v : r.Reply}
    {out : Except Failure α} (h : service r s = (.ok v, s₁))
    (hnext : Course service (f (.ok v)) s₁ asked out s') :
    Course service ((ask r >>= record label).attempt >>= f) s (r :: asked) out s' :=
  (recorded_ok h).attempt.bind hnext

/-- A session has a journal of the course. -/
theorem session {p : Pass α} {out : Except Failure α} (h : Course service p s asked out s') :
    ∃ t, Session.run service p (Session.start s) = (out, t) ∧ t.journal = asked ∧
      t.backend = s' := by
  obtain ⟨hout, hbackend, hjournal⟩ := run_session service p (Session.start s)
  refine ⟨_, Prod.ext (hout.trans (congrArg Prod.fst h.run_eq)) rfl, ?_, ?_⟩
  · exact hjournal.trans h.requests_eq
  · exact hbackend.trans (congrArg Prod.snd h.run_eq)

/-- One request before others. -/
theorem askAll_cons {r : Request} {rest : List Request} {v : r.Reply} {out : Except Failure Unit}
    (h : service r s = (.ok v, s₁)) (hrest : Course service (askAll label rest) s₁ asked out s') :
    Course service (askAll label (r :: rest)) s (r :: asked) out s' := (recorded_ok h).bind hrest

end Course

/-! ## Requests that can be made at all -/

/-- Every request of a pass is allowed, whatever the answers are. -/
def Asks (allowed : Request → Prop) : Pass α → Prop
  | .done _ => True
  | .fail _ => True
  | .call r next => allowed r ∧ ∀ answer, Asks allowed (next answer)
  | .note _ next => Asks allowed next

section Asks

variable {allowed : Request → Prop}

theorem Asks.bind {p : Pass α} {f : α → Pass β} (hp : p.Asks allowed)
    (hf : ∀ a, (f a).Asks allowed) : (p >>= f).Asks allowed := by
  rw [bind_eq]
  induction p with
  | done a => exact hf a
  | fail e => trivial
  | call r next ih => exact ⟨hp.1, fun answer => ih answer (hp.2 answer)⟩
  | note c next ih => exact ih hp

theorem Asks.attempt {p : Pass α} (hp : p.Asks allowed) : p.attempt.Asks allowed := by
  induction p with
  | done a => trivial
  | fail e => trivial
  | call r next ih => exact ⟨hp.1, fun answer => ih answer (hp.2 answer)⟩
  | note c next ih => exact ih hp

theorem asks_lift (x : Except Failure α) : (Pass.lift x).Asks allowed := by
  cases x <;> trivial

/-- What was found out without the service decides what is asked for later. -/
theorem Asks.lift_bind {x : Except Failure α} {f : α → Pass β}
    (h : ∀ a, x = .ok a → (f a).Asks allowed) : (Pass.lift x >>= f).Asks allowed := by
  cases x with
  | ok a => exact h a rfl
  | error e => trivial

theorem asks_recorded {label : CallLabel} {r : Request} (h : allowed r) :
    (ask r >>= record label).Asks allowed := ⟨h, fun _ => asks_lift _⟩

theorem asks_askAll {label : CallLabel} {l : List Request} (h : ∀ r ∈ l, allowed r) :
    (askAll label l).Asks allowed := by
  induction l with
  | nil => trivial
  | cons r rest ih =>
    exact (asks_recorded (h r List.mem_cons_self)).bind
      fun _ => ih fun r hr => h r (List.mem_cons_of_mem _ hr)

theorem Asks.mono {allowed' : Request → Prop} {p : Pass α} (hp : p.Asks allowed)
    (h : ∀ r, allowed r → allowed' r) : p.Asks allowed' := by
  induction p with
  | done a => trivial
  | fail e => trivial
  | call r next ih => exact ⟨h r hp.1, fun answer => ih answer (hp.2 answer)⟩
  | note c next ih => exact ih hp

theorem asks_anything (p : Pass α) : p.Asks fun _ => True := by
  induction p with
  | done a => trivial
  | fail e => trivial
  | call r next ih => exact ⟨trivial, ih⟩
  | note c next ih => exact ih

theorem Over.asks {p : Pass α} {out : Except Failure α} (hp : p.Over out) : p.Asks allowed := by
  induction p with
  | done a => trivial
  | fail e => trivial
  | call r next ih => exact hp.elim
  | note c next ih => exact ih hp

/-- **What all its requests keep, a pass keeps.** -/
theorem run_invariant {service : Service σ} {P : σ → Prop} {p : Pass α} (hp : p.Asks allowed)
    (hstep : ∀ r s, allowed r → P s → P (service r s).2) {s : σ} (hs : P s) :
    P (run service p s).2 := by
  induction p generalizing s with
  | done a => exact hs
  | fail e => exact hs
  | call r next ih => exact ih _ (hp.2 _) (hstep r s hp.1 hs)
  | note c next ih => exact ih hp hs

end Asks

/-! ## Refusals that end a pass -/

/-- Refusals of this sort end the pass at once. -/
def StopsOn (bad : ApiError → Prop) : Pass α → Prop
  | .done _ => True
  | .fail _ => True
  | .call _ next =>
    (∀ e, bad e → (next (.error e)).Over (.error (.api e))) ∧ ∀ answer, StopsOn bad (next answer)
  | .note _ next => StopsOn bad next

section StopsOn

variable {bad : ApiError → Prop}

theorem StopsOn.bind {p : Pass α} {f : α → Pass β} (hp : p.StopsOn bad)
    (hf : ∀ a, (f a).StopsOn bad) : (p >>= f).StopsOn bad := by
  rw [bind_eq]
  induction p with
  | done a => exact hf a
  | fail e => trivial
  | call r next ih =>
    exact ⟨fun e he => (hp.1 e he).bind_error, fun answer => ih answer (hp.2 answer)⟩
  | note c next ih => exact ih hp

/-- A failure may be looked at, as long as a refusal of this sort is handed on. -/
theorem StopsOn.attempt_bind {p : Pass α} {f : Except Failure α → Pass β} (hp : p.StopsOn bad)
    (hrefused : ∀ e, bad e → f (.error (.api e)) = .fail (.api e))
    (hf : ∀ x, (f x).StopsOn bad) : (p.attempt >>= f).StopsOn bad := by
  rw [bind_eq]
  induction p with
  | done a => exact hf (.ok a)
  | fail e => exact hf (.error e)
  | call r next ih =>
    refine ⟨fun e he => ?_, fun answer => ih answer (hp.2 answer)⟩
    have hfailed : (f (.error (.api e))).Over (.error (.api e)) := by
      rw [hrefused e he]
      exact rfl
    exact (hp.1 e he).attempt.bind hfailed
  | note c next ih => exact ih hp

theorem stopsOn_lift (x : Except Failure α) : (Pass.lift x).StopsOn bad := by
  cases x <;> trivial

theorem stopsOn_recorded {label : CallLabel} (r : Request) : (ask r >>= record label).StopsOn bad :=
  ⟨fun _ _ => rfl, fun _ => stopsOn_lift _⟩

theorem stopsOn_askAll {label : CallLabel} (l : List Request) : (askAll label l).StopsOn bad := by
  induction l with
  | nil => trivial
  | cons r rest ih => exact (stopsOn_recorded r).bind fun _ => ih

end StopsOn

/-! ## Requests that complete a pass -/

/-- A request of this sort completes the pass as soon as it is granted. -/
def CompletedBy (final : Request → Prop) : Pass α → Prop
  | .done _ => True
  | .fail _ => True
  | .call r next =>
    (final r → ∀ v, ∃ a, (next (.ok v)).Over (.ok a)) ∧ ∀ answer, CompletedBy final (next answer)
  | .note _ next => CompletedBy final next

section CompletedBy

variable {final : Request → Prop}

/-- A pass that makes no such request. -/
theorem Asks.completedBy {p : Pass α} (hp : p.Asks fun r => ¬ final r) : p.CompletedBy final := by
  induction p with
  | done a => trivial
  | fail e => trivial
  | call r next ih => exact ⟨fun hr => absurd hr hp.1, fun answer => ih answer (hp.2 answer)⟩
  | note c next ih => exact ih hp

theorem completedBy_recorded {label : CallLabel} (r : Request) :
    (ask r >>= record label).CompletedBy final := by
  refine ⟨fun _ v => ⟨v, rfl⟩, fun answer => ?_⟩
  cases answer <;> trivial

theorem Asks.bind_completedBy {p : Pass α} {f : α → Pass β} (hp : p.Asks fun r => ¬ final r)
    (hf : ∀ a, (f a).CompletedBy final) : (p >>= f).CompletedBy final := by
  rw [bind_eq]
  induction p with
  | done a => exact hf a
  | fail e => trivial
  | call r next ih => exact ⟨fun hr => absurd hr hp.1, fun answer => ih answer (hp.2 answer)⟩
  | note c next ih => exact ih hp

/-- What follows may only finish the pass. -/
theorem CompletedBy.bind_done {p : Pass α} {f : α → Pass β} (hp : p.CompletedBy final)
    (hf : ∀ a, ∃ b, f a = .done b) : (p >>= f).CompletedBy final := by
  rw [bind_eq]
  induction p with
  | done a =>
    obtain ⟨b, hb⟩ := hf a
    rw [Pass.bind, hb]
    trivial
  | fail e => trivial
  | call r next ih =>
    refine ⟨fun hr v => ?_, fun answer => ih answer (hp.2 answer)⟩
    obtain ⟨a, ha⟩ := hp.1 hr v
    obtain ⟨b, hb⟩ := hf a
    have hdone : (f a).Over (.ok b) := by
      rw [hb]
      exact rfl
    exact ⟨b, ha.bind hdone⟩
  | note c next ih => exact ih hp

/-- **A pass that fails was granted none of the requests that would have completed it.** -/
theorem run_error_invariant {service : Service σ} {allowed : Request → Prop} {P : σ → Prop}
    {p : Pass α} (hasks : p.Asks allowed) (hp : p.CompletedBy final)
    (hstep : ∀ r s, allowed r → (final r → ∃ e, (service r s).1 = .error e) → P s →
      P (service r s).2) {s : σ} {e : Failure} (he : (run service p s).1 = .error e) (hs : P s) :
    P (run service p s).2 := by
  induction p generalizing s with
  | done a => cases he
  | fail e => exact hs
  | call r next ih =>
    rw [run_call] at he ⊢
    refine ih _ (hasks.2 _) (hp.2 _) he (hstep r s hasks.1 (fun hr => ?_) hs)
    -- had the request been granted, the pass would be over, and not in failure
    cases hserve : service r s with
    | mk answer s' =>
      cases answer with
      | error e => exact ⟨e, rfl⟩
      | ok v =>
        obtain ⟨a, ha⟩ := hp.1 hr v
        rw [hserve, ha.run_eq] at he
        cases he
  | note c next ih => exact ih hasks hp he hs

end CompletedBy

end Pass

/-! ## Accounts that refuse now and then -/

/-- The refusals that do not say that something is absent. -/
def ApiError.IsTrouble (e : ApiError) : Prop := e.kind ≠ .notFound

/-- Trouble is not taken for the absence of an entity. -/
theorem ApiError.IsTrouble.isNotFound_eq {e : ApiError} (h : e.IsTrouble) :
    (Failure.api e).isNotFound = false := by
  simpa [Failure.isNotFound, ApiError.IsTrouble] using h

/-- A cue that lets the account answer, or refuses with an error of a certain sort. -/
def Cue.Refuses {o : Operation} (sort : ApiError → Prop) : Cue o → Prop
  | .genuine => True
  | .refuse e => sort e
  | .reply _ => False

/-- A script that prepares nothing but refusals, for each operation those of a certain sort. -/
def Script.Refuses (script : Script) (sort : Operation → ApiError → Prop) : Prop :=
  ∀ o, ∀ c ∈ script o, c.Refuses (sort o)

/-- A cue that lets the account answer or refuses for another reason than absence. -/
def Cue.Harmless {o : Operation} : Cue o → Prop
  | .genuine => True
  | .refuse e => e.IsTrouble
  | .reply _ => False

/-- A script that prepares nothing but refusals, none of them because something is absent. -/
def Script.Harmless (script : Script) : Prop := ∀ o, ∀ c ∈ script o, c.Harmless

theorem Script.harmless_none : Script.none.Harmless := fun _ _ h => absurd h List.not_mem_nil

theorem Script.harmless_iff {script : Script} :
    script.Harmless ↔ script.Refuses fun _ e => e.IsTrouble := by
  refine forall_congr' fun o => forall₂_congr fun c _ => ?_
  cases c <;> exact Iff.rfl

/-- A property of all cues of a script, kept by those of another queue. -/
theorem Script.forall_set {P : (o : Operation) → Cue o → Prop} {script : Script}
    (hs : ∀ o, ∀ c ∈ script o, P o c) {o : Operation} {queue : List (Cue o)}
    (hqueue : ∀ c ∈ queue, P o c) : ∀ p, ∀ c ∈ script.set o queue p, P p c := by
  intro p c hc
  unfold Script.set at hc
  split at hc
  · next h =>
    cases h
    exact hqueue c hc
  · exact hs p c hc

theorem Script.Harmless.set {script : Script} (hs : script.Harmless) {o : Operation}
    {queue : List (Cue o)} (hqueue : ∀ c ∈ queue, c.Harmless) : (script.set o queue).Harmless :=
  Script.forall_set hs hqueue

namespace Stage

/-- A script of refusals either lets the account answer or refuses without effect. -/
theorem serve_refuses {sort : Operation → ApiError → Prop} {s : Stage} (hs : s.script.Refuses sort)
    (r : Request) :
    (serve r s).2.script.Refuses sort ∧
      (((serve r s).1 = (Account.serve r s.account).1 ∧
          (serve r s).2.account = (Account.serve r s.account).2) ∨
        ∃ e, sort r.operation e ∧ (serve r s).1 = .error e ∧
          (serve r s).2.account = s.account) := by
  cases hq : s.script r.operation with
  | nil =>
    have hserve : serve r s = serveGenuine r s := by rw [serve, hq]
    rw [hserve]
    exact ⟨hs, .inl ⟨rfl, rfl⟩⟩
  | cons cue rest =>
    have hset : (s.script.set r.operation rest).Refuses sort :=
      Script.forall_set hs fun c hc => hs _ c (hq ▸ List.mem_cons_of_mem _ hc)
    have hcue : cue.Refuses (sort r.operation) := hs _ cue (hq ▸ List.mem_cons_self)
    rw [serve, hq]
    cases cue with
    | genuine => exact ⟨hset, .inl ⟨rfl, rfl⟩⟩
    | refuse e => exact ⟨hset, .inr ⟨e, hcue, rfl, rfl⟩⟩
    | reply v => exact hcue.elim

/-- A harmless script either lets the account answer or refuses without effect. -/
theorem serve_cases {s : Stage} (hs : s.script.Harmless) (r : Request) :
    (serve r s).2.script.Harmless ∧
      (((serve r s).1 = (Account.serve r s.account).1 ∧
          (serve r s).2.account = (Account.serve r s.account).2) ∨
        ∃ e, e.IsTrouble ∧ (serve r s).1 = .error e ∧ (serve r s).2.account = s.account) := by
  rw [Script.harmless_iff] at hs ⊢
  exact serve_refuses hs r

end Stage

namespace Pass

variable {α : Type}

/-- What all requests of a pass keep of the account is kept under a harmless script, too. -/
theorem run_stage_invariant {allowed : Request → Prop} {P : Account → Prop} {p : Pass α}
    (hp : p.Asks allowed) (hstep : ∀ r a, allowed r → P a → P (Account.serve r a).2) {s : Stage}
    (hs : s.script.Harmless) (hP : P s.account) : P (run Stage.serve p s).2.account := by
  suffices (run Stage.serve p s).2.script.Harmless ∧ P (run Stage.serve p s).2.account from this.2
  refine run_invariant (P := fun s : Stage => s.script.Harmless ∧ P s.account) hp ?_ ⟨hs, hP⟩
  rintro r s hr ⟨hs, hP⟩
  obtain ⟨hscript, ⟨-, hacc⟩ | ⟨e, -, -, hacc⟩⟩ := Stage.serve_cases hs r
  · exact ⟨hscript, hacc ▸ hstep r s.account hr hP⟩
  · exact ⟨hscript, hacc ▸ hP⟩

/-- **A pass that succeeds in spite of a harmless script met no refusal.** -/
theorem run_of_stage_ok {p : Pass α} (hp : p.StopsOn ApiError.IsTrouble) {s : Stage}
    (hs : s.script.Harmless) {a : α} (h : (run Stage.serve p s).1 = .ok a) :
    run Account.serve p s.account = (.ok a, (run Stage.serve p s).2.account) := by
  induction p generalizing s with
  | done b => exact congrArg (·, s.account) h
  | fail e => cases h
  | call r next ih =>
    rw [run_call] at h ⊢
    obtain ⟨hscript, ⟨hans, hacc⟩ | ⟨e, he, hans, -⟩⟩ := Stage.serve_cases hs r
    · rw [run_call, ← hans, ← hacc]
      exact ih _ (hp.2 _) hscript h
    · -- a refusal would have ended the pass in failure
      rw [hans, (hp.1 e he).run_eq] at h
      cases h
  | note c next ih => exact ih hp hs h

/-- The same of a pass that fails, if not because of trouble. -/
theorem run_of_stage_untroubled {p : Pass α} (hp : p.StopsOn ApiError.IsTrouble) {s : Stage}
    (hs : s.script.Harmless)
    (h : ∀ e, e.IsTrouble → (run Stage.serve p s).1 ≠ .error (.api e)) :
    run Account.serve p s.account
      = ((run Stage.serve p s).1, (run Stage.serve p s).2.account) := by
  induction p generalizing s with
  | done a => rfl
  | fail e => rfl
  | call r next ih =>
    rw [run_call] at h ⊢
    obtain ⟨hscript, ⟨hans, hacc⟩ | ⟨e, he, hans, -⟩⟩ := Stage.serve_cases hs r
    · rw [run_call, ← hans, ← hacc]
      exact ih _ (hp.2 _) hscript h
    · rw [hans, (hp.1 e he).run_eq] at h
      exact absurd rfl (h e he)
  | note c next ih => exact ih hp hs h

end Pass

end ShareKeeper
