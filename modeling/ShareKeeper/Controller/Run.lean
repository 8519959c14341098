import ShareKeeper.Controller

/-!
# Running a controller

A run starts with the object that the cluster lists and goes from pass to pass. A change of the
object during a pass leads to the next pass at once, with the new object; otherwise the next pass
comes with the same object when it is due. A run ends when the object is gone, when nothing more is
due, when what is due lies beyond the end, or after a given number of passes.
-/

namespace ShareKeeper.Controller

variable {k : Kind} {σ : Type}

/-- Where a run stands: the next pass, and what was asked for so far with the second in which it
was. -/
structure Run (k : Kind) (σ : Type) where
  world : World σ
  /-- The object as it was last seen. -/
  desired : Resource k
  /-- The second of the next pass. -/
  time : Nat
  log : List (Nat × LogEntry)

/-- The run after its last pass, and whether another one is due. -/
inductive Progress (k : Kind) (σ : Type) where
  | ended (r : Run k σ)
  | going (r : Run k σ)

/-- One pass of a run. -/
def Run.step (c : Controller k) (service : Service σ) (horizon : Nat) (r : Run k σ) :
    Progress k σ :=
  let (result, w) := c.pass service r.desired { r.world with log := [], cluster.event := none }
  let r := { r with world := w, log := r.log ++ w.log.map fun e => (r.time, e) }
  match w.cluster.event with
  | some .deleted => .ended r
  | some .modified =>
    match Resource.decode k w.cluster.object with
    | .ok desired => .going { r with desired }
    | .error _ => .ended r
  | none =>
    match delay result with
    | none => .ended r
    | some seconds =>
      if r.time + seconds ≤ horizon then .going { r with time := r.time + seconds } else .ended r

/-- Up to a number of passes. -/
def Run.steps (c : Controller k) (service : Service σ) (horizon : Nat) : Nat → Run k σ → Run k σ
  | 0, r => r
  | n + 1, r =>
    match r.step c service horizon with
    | .ended r => r
    | .going r => r.steps c service horizon n

/-- How many passes a run of some seconds may have. -/
def passLimit (seconds : Nat) : Nat := 1000 + 10 * seconds

/-- A whole run of some seconds over the object of a cluster. -/
def run (c : Controller k) (service : Service σ) (seconds : Nat) (w : World σ) :
    Except DecodeFault (Run k σ) := do
  let desired ← Resource.decode k w.cluster.object
  let listing := LogEntry.list (Cluster.collectionPath k c.settings.watchNamespace)
  let first : Run k σ := { world := w, desired, time := 0, log := [(0, listing)] }
  return first.steps c service seconds (passLimit seconds)

end ShareKeeper.Controller
