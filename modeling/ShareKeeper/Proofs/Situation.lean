import ShareKeeper.Proofs.Account
import ShareKeeper.Proofs.Reconcile

/-!
# Runs of one object

An object lives on while its user edits the specification and the controller makes passes over it.
Every pass stores what came of it, and some of its calls may be refused. A run is a list of such
events in any order; what each of its steps keeps, the run keeps (`Situation.run_invariant`).
-/

namespace ShareKeeper

open Pass

/-- An object together with the account that its entity is in. -/
structure Situation (k : Kind) where
  object : Resource k
  account : Account

/-- What happens to an object. -/
inductive Event (k : Kind) where
  | edit (spec : k.Spec)
  /-- The script says which calls of the pass are refused. -/
  | pass (region : Option String) (now : Instant) (script : Script)

/-- No call is refused because something is absent. -/
def Event.Harmless {k : Kind} : Event k → Prop
  | .edit _ => True
  | .pass _ _ script => script.Harmless

namespace Situation

variable {k : Kind}

/-- The outcome of a pass and the account after it. -/
def attempt (w : Situation k) (region : Option String) (now : Instant) (script : Script) :
    Except Failure (Reconciled k) × Account :=
  let (out, stage) := run Stage.serve (reconcile k.manager region now w.object) ⟨w.account, script⟩
  (out, stage.account)

def step (w : Situation k) : Event k → Situation k
  | .edit spec => { w with object := { w.object with spec } }
  | .pass region now script =>
    let (out, account) := w.attempt region now script
    ⟨w.object.store now out, account⟩

def run (w : Situation k) (events : List (Event k)) : Situation k := events.foldl step w

/-- Every step of a run is of a certain sort. -/
def Along (P : Situation k → Event k → Prop) (w : Situation k) : List (Event k) → Prop
  | [] => True
  | e :: rest => P w e ∧ Along P (w.step e) rest

/-- **What every step keeps, a run keeps.** -/
theorem run_invariant {P : Situation k → Event k → Prop} {I : Situation k → Prop}
    (hstep : ∀ w e, P w e → I w → I (w.step e)) {w : Situation k} {events : List (Event k)}
    (hevents : Along P w events) (hw : I w) : I (w.run events) := by
  induction events generalizing w with
  | nil => exact hw
  | cons e rest ih => exact ih hevents.2 (hstep w e hevents.1 hw)

/-- Steps whose sort does not depend on the state. -/
theorem along_of_forall {Q : Event k → Prop} {w : Situation k} {events : List (Event k)}
    (h : ∀ e ∈ events, Q e) : Along (fun _ e => Q e) w events := by
  induction events generalizing w with
  | nil => trivial
  | cons e rest ih =>
    exact ⟨h e List.mem_cons_self, ih fun e he => h e (List.mem_cons_of_mem _ he)⟩

theorem Along.and {P Q : Situation k → Event k → Prop} {w : Situation k} {events : List (Event k)}
    (hP : Along P w events) (hQ : Along Q w events) :
    Along (fun w e => P w e ∧ Q w e) w events := by
  induction events generalizing w with
  | nil => trivial
  | cons e rest ih => exact ⟨⟨hP.1, hQ.1⟩, ih hP.2 hQ.2⟩

/-! ## Steps -/

section Step

variable {w : Situation k} {region : Option String} {now : Instant} {script : Script}

/-- The run that a pass comes down to. -/
theorem exists_run_of_attempt {out : Except Failure (Reconciled k)} {a : Account}
    (h : w.attempt region now script = (out, a)) :
    ∃ s, Pass.run Stage.serve (reconcile k.manager region now w.object) ⟨w.account, script⟩ = (out, s)
      ∧ s.account = a := by
  cases h
  exact ⟨_, rfl, rfl⟩

/-- A pass that fails leaves a record of it in the conditions and nowhere else. -/
theorem step_of_error {e : Failure} {a : Account} (h : w.attempt region now script = (.error e, a)) :
    w.step (.pass region now script) = ⟨recordFailure now w.object e, a⟩ := by
  rw [step, h]
  rfl

theorem step_of_ok {out : Reconciled k} {a : Account}
    (h : w.attempt region now script = (.ok out, a)) :
    w.step (.pass region now script) = ⟨w.object.store now (.ok out), a⟩ := by
  rw [step, h]

/-- **A pass that gets through in spite of refusals does what it does without any.** -/
theorem run_of_attempt {out : Reconciled k} {a : Account}
    (hstops : (reconcile k.manager region now w.object).StopsOn ApiError.IsTrouble)
    (hscript : script.Harmless) (h : w.attempt region now script = (.ok out, a)) :
    Pass.run Account.serve (reconcile k.manager region now w.object) w.account = (.ok out, a) := by
  have hout : (Pass.run Stage.serve (reconcile k.manager region now w.object)
      ⟨w.account, script⟩).1 = .ok out := congrArg Prod.fst h
  have haccount : (Pass.run Stage.serve (reconcile k.manager region now w.object)
      ⟨w.account, script⟩).2.account = a := congrArg Prod.snd h
  rw [← haccount]
  exact run_of_stage_ok (s := ⟨w.account, script⟩) hstops hscript hout

/-- Every event keeps the entities under the ARNs that they report. -/
theorem byArn_step {e : Event k} (he : e.Harmless) (h : w.account.ByArn) :
    (w.step e).account.ByArn := by
  cases e with
  | edit spec => exact h
  | pass region now script =>
    exact run_stage_invariant (s := ⟨w.account, script⟩) (asks_anything _)
      (fun r a _ => Account.byArn_serve r) he h

end Step

end Situation

end ShareKeeper
