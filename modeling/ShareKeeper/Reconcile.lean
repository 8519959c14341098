import ShareKeeper.Permission.Manager
import ShareKeeper.Share.Manager

/-!
# Reconciliation

One pass over one object: look at the entity behind it, create it if there is none, and otherwise
update the fields that differ. The outcome is the object with the status to be stored. A pass that
fails leaves the object as it was, and `recordFailure` says so in its conditions.
-/

namespace ShareKeeper

def Kind.manager : (k : Kind) → Manager k
  | .permission => Permission.manager
  | .share => Share.manager

/-- The outcome of a pass. -/
structure Reconciled (k : Kind) where
  /-- The object with its latest status. -/
  resource : Resource k
  /-- Whether the entity has settled. -/
  synced : Bool

variable {k : Kind}

/-- Brings the entity in line where it differs. The flag says whether the effect shows only later.
-/
def bringInLine (m : Manager k) (desired latest : Resource k) : Pass (Resource k × Bool) :=
  let d := m.delta (some desired) (some latest)
  if d.isEmpty then pure (latest, false)
  else do
    let updated ← m.update desired latest d
    return (updated, m.requeueAfterUpdate d)

/-- The entity in line with the object, created if it was absent. -/
def applyDesired (m : Manager k) (desired : Resource k) : Pass (Resource k × Bool) := do
  match ← (m.readOne desired).attempt with
  | .ok latest => bringInLine m desired latest
  | .error e =>
    if e.isNotFound then do
      let created ← m.create desired
      return (created, false)
    else Pass.fail e

/-- What a pass that got through says about the object. -/
def conclude (region : Option String) (now : Instant) (resource : Resource k) (requeue : Bool) :
    Reconciled k :=
  let synced := !requeue && resource.isSettled
  let message := if synced then none else some "waiting for the AWS entity to settle"
  { resource := (resource.withRegion region).updateConditions fun c =>
      (c.recordOutcome now none).setSynced now synced message
    synced }

/-- A pass over an object. -/
def reconcile (m : Manager k) (region : Option String) (now : Instant) (desired : Resource k) :
    Pass (Reconciled k) := do
  Pass.lift (m.validate desired)
  let (resource, requeue) ← applyDesired m desired
  return conclude region now resource requeue

/-- The object with conditions that tell of a failed pass. -/
def recordFailure (now : Instant) (desired : Resource k) (e : Failure) : Resource k :=
  desired.updateConditions fun c => (c.recordOutcome now (some e)).setSynced now false none

/-- The reaction to a failure that only says the entity is absent already. -/
def forgiveAbsence (result : Except Failure Unit) : Pass Unit :=
  match result with
  | .ok () => pure ()
  | .error e => if e.isNotFound then pure () else Pass.fail e

/-- Deletes the entity behind an object; that it is absent already is no failure. -/
def deleteEntity (m : Manager k) (desired : Resource k) : Pass Unit :=
  match desired.arn with
  | none => pure ()
  | some _ => do
    match ← (m.readOne desired).attempt with
    | .error e => forgiveAbsence (.error e)
    | .ok latest =>
      let result ← (m.delete latest).attempt
      forgiveAbsence result

end ShareKeeper
