import ShareKeeper.Cluster
import ShareKeeper.Reconcile
import ShareKeeper.Session
import ShareKeeper.Settings

/-!
# The controller

What the controller does with an object it is told about. Before it creates anything remote it puts
a finalizer on the object, so that the object cannot go away before the entity behind it has been
deleted. With the finalizer on, a live object is reconciled and the outcome goes to its status; an
object that is being deleted has its entity deleted, and then the finalizer is taken off.

## Failures

A terminal failure is written to the status, and the object is left alone until it changes. Any
other failure is handed back, wrapped in what the finalizer was doing, and the object is looked at
again after `backoff`.
-/

namespace ShareKeeper

/-- What the controller wants to happen to an object after a pass. -/
inductive Action where
  /-- Another pass after some seconds. -/
  | requeue (seconds : Nat)
  /-- No pass before the object changes. -/
  | awaitChange
  deriving DecidableEq, Repr

/-- Something that the controller asked for. -/
inductive LogEntry where
  | call (r : Request)
  | list (path : String)
  | patch (path : String) (body : Json)

/-- The time of every pass: what the clock shows in it, and how long it takes. -/
structure Clock where
  now : Nat → Instant
  elapsed : Nat → Binary64

/-- A controller of one kind of object. -/
structure Controller (k : Kind) where
  manager : Manager k
  settings : Settings
  region : Option String
  clock : Clock

/-- Everything that a controller works on. -/
structure World (σ : Type) where
  cluster : Cluster
  session : Session σ
  /-- What the controller asked for, in order. -/
  log : List LogEntry
  /-- How many passes there were. -/
  passes : Nat

namespace World

variable {σ α : Type}

/-- A world in which nothing happened yet. -/
def start (cluster : Cluster) (backend : σ) : World σ := ⟨cluster, .start backend, [], 0⟩

def record (w : World σ) (e : LogEntry) : World σ := { w with log := w.log ++ [e] }

/-- Runs a pass against the service and logs its requests. -/
def run (service : Service σ) (p : Pass α) (w : World σ) : Except Failure α × World σ :=
  let (result, session) := Session.run service p w.session
  let requests := session.journal.drop w.session.journal.length
  (result, { w with session, log := w.log ++ requests.map .call })

/-- Sends a patch of the status. -/
def patchStatus {k : Kind} (w : World σ) (r : Resource k) : Except Refusal Unit × World σ :=
  let w := w.record (.patch (Cluster.statusPath r) r.statusPatch)
  let (result, cluster) := w.cluster.patchStatus r.statusPatch
  (result, { w with cluster })

/-- Sends a patch of the finalizers. -/
def patchFinalizers {k : Kind} (w : World σ) (r : Resource k) (name : String) (p : FinalizerPatch) :
    Except Refusal Unit × World σ :=
  let w := w.record (.patch (Cluster.objectPath r name) p.encode)
  let (result, cluster) := w.cluster.patchFinalizers p
  (result, { w with cluster })

end World

namespace Controller

variable {k : Kind} {σ : Type}

/-- The finalizer of this controller. -/
def finalizerName : String := "ram.services.k8s.aws/finalizer"

/-- The time between passes while the entity has not settled, in seconds. -/
def unsyncedSeconds : Nat := 30

/-- The time until an object is looked at again after a failure, in seconds. -/
def backoff : Failure → Nat
  | .cluster _ => 30
  | _ => 60

/-! ## Live objects -/

/-- What to do after a pass that got through and whose outcome is stored. -/
def actionAfter (c : Controller k) (synced : Bool) : Action :=
  .requeue (if synced then c.settings.resyncSeconds else unsyncedSeconds)

/-- The outcome of a pass goes to the status; that this fails is a failure of the pass. -/
def report (c : Controller k) (outcome : Reconciled k) (w : World σ) :
    Except Failure Action × World σ :=
  match w.patchStatus outcome.resource with
  | (.ok (), w) => (.ok (c.actionAfter outcome.synced), w)
  | (.error r, w) => (.error (.cluster (.statusNotWritten r)), w)

/-- A failure goes to the status as far as that is possible; a terminal one ends there. -/
def reportFailure (c : Controller k) (desired : Resource k) (e : Failure) (w : World σ) :
    Except Failure Action × World σ :=
  let failed := recordFailure (c.clock.now w.passes) desired e
  let (_, w) := w.patchStatus failed
  (if e.isTerminal then .ok .awaitChange else .error e, w)

/-- Reconciles a live object. -/
def apply (c : Controller k) (service : Service σ) (desired : Resource k) (w : World σ) :
    Except Failure Action × World σ :=
  match w.run service (reconcile c.manager c.region (c.clock.now w.passes) desired) with
  | (.ok outcome, w) => c.report outcome w
  | (.error e, w) => c.reportFailure desired e w

/-! ## Objects that are being deleted -/

/-- Deletes the entity behind an object. -/
def cleanup (c : Controller k) (service : Service σ) (desired : Resource k) (w : World σ) :
    Except Failure Action × World σ :=
  match w.run service (deleteEntity c.manager desired) with
  | (.ok (), w) => (.ok .awaitChange, w)
  | (.error e, w) => (.error e, w)

/-! ## Finalizers -/

/-- Puts the finalizer on; the change leads to the next pass. -/
def addFinalizer (desired : Resource k) (name : String) (w : World σ) :
    Except Failure Action × World σ :=
  let present := desired.metadata.finalizers.getD []
  let p : FinalizerPatch :=
    if present.isEmpty then .first finalizerName else .append present finalizerName
  match w.patchFinalizers desired name p with
  | (.ok (), w) => (.ok .awaitChange, w)
  | (.error r, w) => (.error (.finalizerNotAdded r), w)

/-- Takes the finalizer off. -/
def removeFinalizer (desired : Resource k) (name : String) (index : Nat) (w : World σ) :
    Except Failure Action × World σ :=
  match w.patchFinalizers desired name (.remove index finalizerName) with
  | (.ok (), w) => (.ok .awaitChange, w)
  | (.error r, w) => (.error (.finalizerNotRemoved r), w)

/-- Deletes the entity and then takes the finalizer off. -/
def release (c : Controller k) (service : Service σ) (desired : Resource k) (name : String)
    (index : Nat) (w : World σ) : Except Failure Action × World σ :=
  match c.cleanup service desired w with
  | (.ok _, w) => removeFinalizer desired name index w
  | (.error e, w) => (.error (.cleanupFailed e), w)

/-- Works on an object under its finalizer. -/
def finalize (c : Controller k) (service : Service σ) (desired : Resource k) (w : World σ) :
    Except Failure Action × World σ :=
  let index := (desired.metadata.finalizers.getD []).idxOf? finalizerName
  match index, desired.metadata.deletionTimestamp with
  | some _, none =>
    let (result, w) := c.apply service desired w
    (result.mapError .applyFailed, w)
  | some index, some _ =>
    match desired.metadata.name with
    | some name => c.release service desired name index w
    | none => (.error .unnamedObject, w)
  | none, none =>
    match desired.metadata.name with
    | some name => addFinalizer desired name w
    | none => (.error .unnamedObject, w)
  | none, some _ => (.ok .awaitChange, w)

/-! ## Passes -/

/-- Counts a pass that is over. -/
def countPass (c : Controller k) (failed : Bool) (w : World σ) : World σ :=
  let m := w.session.metrics.observeDuration k.name (c.clock.elapsed w.passes)
  let m := if failed then m.countFailure k.name else m
  { w with session := { w.session with metrics := m }, passes := w.passes + 1 }

/-- Whether a result is a failure. -/
def failed {α : Type} : Except Failure α → Bool
  | .ok _ => false
  | .error _ => true

/-- One pass over an object, counted and timed. -/
def pass (c : Controller k) (service : Service σ) (desired : Resource k) (w : World σ) :
    Except Failure Action × World σ :=
  let session := { w.session with metrics := w.session.metrics.countReconciliation k.name }
  let (result, w) := c.finalize service desired { w with session }
  (result, c.countPass (failed result) w)

/-- After how many seconds the next pass is due, if no change comes first. -/
def delay : Except Failure Action → Option Nat
  | .ok (.requeue seconds) => some seconds
  | .ok .awaitChange => none
  | .error e => some (backoff e)

end Controller

end ShareKeeper
