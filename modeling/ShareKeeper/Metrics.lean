import ShareKeeper.Binary64
import ShareKeeper.Service.Request

/-!
# Metrics

What the controller counts and measures. A *family* holds the samples of one metric, each under the
values of its labels. A sample comes into being when it is first asked for, even if only to look at
it.

Two lists of label values name the same sample if their texts run together are equal. The labels
that a sample shows are those under which it came into being.
-/

namespace ShareKeeper

/-! ## Families of samples -/

structure Sample (α : Type) where
  labels : List String
  value : α
  deriving Repr

/-- The samples of a metric, in the order in which they came into being. -/
structure Family (α : Type) where
  samples : List (Sample α)
  deriving Repr

namespace Family

variable {α : Type}

def empty : Family α := ⟨[]⟩

/-- What a sample is told apart by. -/
def identity (labels : List String) : String := String.join labels

/-- The sample under some labels. -/
def find? (f : Family α) (labels : List String) : Option (Sample α) :=
  f.samples.find? fun s => identity s.labels = identity labels

/-- The value of a sample, or what a new one starts with. -/
def get (f : Family α) (start : α) (labels : List String) : α :=
  ((f.find? labels).map Sample.value).getD start

/-- Changes a sample; one that is not there is made first. -/
def update (f : Family α) (start : α) (labels : List String) (change : α → α) : Family α :=
  if (f.find? labels).isSome then
    ⟨f.samples.map fun s =>
      if identity s.labels = identity labels then { s with value := change s.value } else s⟩
  else ⟨f.samples ++ [⟨labels, change start⟩]⟩

end Family

/-! ## Histograms -/

/-- A sum of finite numbers, which may leave their range. -/
inductive Total where
  | finite (x : Binary64)
  | infinite (negative : Bool)
  deriving DecidableEq, Repr

/-- The total with one more number. -/
def Total.add (t : Total) (x : Binary64) : Total :=
  match t with
  | .infinite negative => .infinite negative
  | .finite y =>
    match y.add x with
    | some z => .finite z
    | none => .infinite x.negative

/-- Observations, counted up to each of some bounds. -/
structure Histogram where
  count : Nat
  total : Total
  /-- How many observations were at most the bound, in the order of the bounds. -/
  upTo : List Nat
  deriving Repr

namespace Histogram

/-- A bound of a number of thousandths. -/
def thousandths (n : Nat) : Binary64 := (Binary64.ofRatio false n 1000).getD (.zero false)

/-- The bounds for durations in seconds. -/
def bounds : List Binary64 := [10, 50, 100, 250, 500, 1000, 2500, 5000, 10000].map thousandths

def empty : Histogram := ⟨0, .finite (.zero false), bounds.map fun _ => 0⟩

def observe (h : Histogram) (x : Binary64) : Histogram where
  count := h.count + 1
  total := h.total.add x
  upTo := List.zipWith (fun bound n => if x.le bound then n + 1 else n) bounds h.upTo

end Histogram

/-! ## The metrics of a controller -/

structure Metrics where
  /-- Passes, by kind of object. -/
  reconciliations : Family Nat
  /-- Failed passes, by kind of object. -/
  failures : Family Nat
  /-- Durations of passes in seconds, by kind of object. -/
  durations : Family Histogram
  /-- Calls of the sharing service, by purpose, operation and outcome. -/
  calls : Family Nat
  /-- One if the controller is well. -/
  health : Binary64
  deriving Repr

namespace Metrics

def empty : Metrics := ⟨.empty, .empty, .empty, .empty, .zero false⟩

instance : Inhabited Metrics := ⟨empty⟩

/-- The label for how a call ended. -/
def outcomeLabel (ok : Bool) : String := if ok then "success" else "failure"

/-- Counts a call. -/
def countCall (m : Metrics) (purpose operation : String) (ok : Bool) : Metrics :=
  { m with calls := m.calls.update 0 [purpose, operation, outcomeLabel ok] (· + 1) }

/-- The number of calls with some labels; from then on there is a sample for them. -/
def callCount (m : Metrics) (purpose operation outcome : String) : Nat × Metrics :=
  let labels := [purpose, operation, outcome]
  (m.calls.get 0 labels, { m with calls := m.calls.update 0 labels id })

def countReconciliation (m : Metrics) (kind : String) : Metrics :=
  { m with reconciliations := m.reconciliations.update 0 [kind] (· + 1) }

def countFailure (m : Metrics) (kind : String) : Metrics :=
  { m with failures := m.failures.update 0 [kind] (· + 1) }

def observeDuration (m : Metrics) (kind : String) (seconds : Binary64) : Metrics :=
  { m with durations := m.durations.update .empty [kind] (·.observe seconds) }

def setHealth (m : Metrics) (value : Binary64) : Metrics := { m with health := value }

end Metrics

end ShareKeeper
