import ShareKeeper.Service.Request

/-!
# Passes

A pass is a piece of work against the sharing service, written down without saying which service: it
is finished, it has failed, or it makes one request and goes on with the answer. The same pass runs
against any service (`Pass.run`), and what it asks for can be reasoned about for all answers at
once.

A refused request does not end a pass by itself: `Pass.ask` hands on the answer as it comes. Every
call is to be noted for the metrics, and this is a step of its own, which the pass takes where and
under which names it likes. `Pass.record` notes a call and then fails the pass if the request was
refused; `Pass.attempt` turns a failure back into a value.
-/

namespace ShareKeeper

/-- The names under which a call is noted. -/
structure CallLabel where
  purpose : String
  operation : String
  deriving DecidableEq, Repr

/-- A call as it is noted. -/
structure CallRecord where
  label : CallLabel
  succeeded : Bool
  deriving DecidableEq, Repr

inductive Pass (α : Type) : Type where
  | done (a : α)
  | fail (e : Failure)
  | call (r : Request) (next : Answer r → Pass α)
  /-- Nothing is asked of the service here. -/
  | note (c : CallRecord) (next : Pass α)

namespace Pass

variable {α β : Type}

/-- One pass after another. -/
def bind (p : Pass α) (f : α → Pass β) : Pass β :=
  match p with
  | .done a => f a
  | .fail e => .fail e
  | .call r next => .call r fun a => (next a).bind f
  | .note c next => .note c (next.bind f)

instance : Monad Pass where
  pure := .done
  bind := bind

/-- What was found out without the service. -/
def lift : Except Failure α → Pass α
  | .ok a => .done a
  | .error e => .fail e

/-- A request, with the answer as it comes. -/
def ask (r : Request) : Pass (Answer r) := .call r .done

/-- Notes how a call was answered and goes on with the reply; a refusal fails the pass. -/
def record (label : CallLabel) (answer : Except ApiError α) : Pass α :=
  .note ⟨label, answer.isOk⟩ (lift (answer.mapError .api))

/-- The outcome of a pass, as a value. -/
def attempt : Pass α → Pass (Except Failure α)
  | .done a => .done (.ok a)
  | .fail e => .done (.error e)
  | .call r next => .call r fun a => (next a).attempt
  | .note c next => .note c next.attempt

/-- Requests one after another up to the first that is refused, noted under the same names. -/
def askAll (label : CallLabel) : List Request → Pass Unit
  | [] => .done ()
  | r :: rest => bind (bind (ask r) (record label)) fun _ => askAll label rest

/-- Runs a pass against a service. -/
def run {σ : Type} (service : Service σ) : Pass α → σ → Except Failure α × σ
  | .done a, s => (.ok a, s)
  | .fail e, s => (.error e, s)
  | .call r next, s =>
    let (answer, s) := service r s
    run service (next answer) s
  | .note _ next, s => run service next s

theorem run_call {σ : Type} (service : Service σ) (r : Request) (next : Answer r → Pass α) (s : σ) :
    run service (.call r next) s = run service (next (service r s).1) (service r s).2 := rfl

/-- **Running passes in sequence.** -/
theorem run_bind {σ : Type} (service : Service σ) (p : Pass α) (f : α → Pass β) (s : σ) :
    run service (p.bind f) s =
      match run service p s with
      | (.ok a, s) => run service (f a) s
      | (.error e, s) => (.error e, s) := by
  induction p generalizing s with
  | done a => rfl
  | fail e => rfl
  | call r next ih => exact ih (service r s).1 (service r s).2
  | note c next ih => exact ih s

/-- Running a pass for its outcome. -/
theorem run_attempt {σ : Type} (service : Service σ) (p : Pass α) (s : σ) :
    run service p.attempt s = (.ok (run service p s).1, (run service p s).2) := by
  induction p generalizing s with
  | done a => rfl
  | fail e => rfl
  | call r next ih => exact ih (service r s).1 (service r s).2
  | note c next ih => exact ih s

end Pass

end ShareKeeper
