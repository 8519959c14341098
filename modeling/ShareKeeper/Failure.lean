import ShareKeeper.Json.ReadError
import ShareKeeper.Text.Integer
import ShareKeeper.Text.Quoted

/-!
# Failures

Everything that can end a pass, by its cause. A cause says what is wrong, the text is made from it
in one place (`Failure.message`), and two questions are asked about it: whether a retry can help
(`Failure.severity`) and whether it means that the remote entity is absent (`Failure.isNotFound`).

Some causes carry a text of their own (`other`), for failures that are reported from outside.
-/

namespace ShareKeeper

/-! ## Calls that the service refuses -/

/-- What a refused call means for the controller. -/
inductive ApiErrorKind where
  /-- The addressed entity does not exist. -/
  | notFound
  /-- The request is malformed, and so would be its repetition. -/
  | invalidParameter
  /-- Throttling, faults of the service, the network. -/
  | other
  deriving DecidableEq, Repr, Inhabited

/-- The kind that an error code of the service stands for. -/
def ApiErrorKind.ofCode : Option String → ApiErrorKind
  | some "UnknownResourceException" => .notFound
  | some "InvalidParameterException" => .invalidParameter
  | _ => .other

/-- A refused call. -/
structure ApiError where
  kind : ApiErrorKind
  operation : String
  code : Option String
  detail : String
  deriving DecidableEq, Repr, Inhabited

/-- A refused call of which the service gave a code, or not even that. -/
def ApiError.ofCode (operation : String) (code : Option String) (detail : String) : ApiError :=
  ⟨.ofCode code, operation, code, detail⟩

def ApiError.message (e : ApiError) : String := e.operation ++ " failed: " ++ e.detail

/-! ## The cluster -/

/-- The status object with which the cluster refuses a request. -/
structure Refusal where
  status : String
  detail : String
  reason : String
  code : Nat
  deriving DecidableEq, Repr, Inhabited

def Refusal.message (r : Refusal) : String :=
  "ApiError: " ++ r.detail ++ ": " ++ r.reason ++ " (ErrorResponse \x7b status: " ++ Text.quote r.status
    ++ ", message: " ++ Text.quote r.detail ++ ", reason: " ++ Text.quote r.reason ++ ", code: "
    ++ toString r.code ++ " \x7d)"

/-- What went wrong with the cluster. -/
inductive ClusterFault where
  | refused (r : Refusal)
  /-- The status of a reconciled object could not be written. -/
  | statusNotWritten (r : Refusal)
  | other (text : String)
  deriving DecidableEq, Repr

def ClusterFault.message : ClusterFault → String
  | .refused r => r.message
  | .statusNotWritten r => "Failed to update status: " ++ r.message
  | .other text => text

/-! ## Settings and desired state -/

/-- Which setting is wrong, and how. -/
inductive ConfigFault where
  | port (setting : String) (fault : Text.IntegerFault)
  | seconds (setting : String) (fault : Text.IntegerFault)
  | zeroSeconds (setting : String)
  | other (text : String)
  deriving DecidableEq, Repr

def ConfigFault.message : ConfigFault → String
  | .port v f => v ++ " must be a port number: " ++ f.message
  | .seconds v f => v ++ " must be a number of seconds: " ++ f.message
  | .zeroSeconds v => v ++ " must be greater than zero"
  | .other text => text

/-- Why a desired state can never be reached. -/
inductive ValidationFault where
  /-- A field that must not be blank is. -/
  | blank (field : String)
  /-- A list that must not have blank entries has one. -/
  | blankEntry (field : String)
  | policyNotJson (e : Json.ReadError)
  /-- A field changed that is fixed once the permission exists. -/
  | immutable (path : String)
  /-- The version of a permission is no integer. -/
  | version (text : String)
  /-- No version of the permission is known. -/
  | versionMissing (arn : String)
  | other (text : String)
  deriving DecidableEq, Repr

def ValidationFault.message : ValidationFault → String
  | .blank field => field ++ " cannot be empty"
  | .blankEntry field => field ++ " cannot contain empty entries"
  | .policyNotJson e => "policyTemplate must be a JSON document: " ++ e.message
  | .immutable path => path ++ " cannot be changed after the permission is created"
  | .version text => "permission version " ++ Text.quote text ++ " is not an integer"
  | .versionMissing arn => "permission " ++ arn ++ " has no current version recorded"
  | .other text => text

/-! ## All failures -/

inductive Failure where
  | cluster (fault : ClusterFault)
  | config (fault : ConfigFault)
  | validation (fault : ValidationFault)
  /-- The remote entity does not exist, or not yet. -/
  | notFound
  | api (e : ApiError)
  /-- The work under the finalizer failed while the object was live. -/
  | applyFailed (cause : Failure)
  /-- The work under the finalizer failed while the object was being deleted. -/
  | cleanupFailed (cause : Failure)
  | finalizerNotAdded (r : Refusal)
  | finalizerNotRemoved (r : Refusal)
  | unnamedObject
  | invalidFinalizer
  deriving DecidableEq, Repr

namespace Failure

instance : Inhabited Failure := ⟨.notFound⟩

def message : Failure → String
  | .cluster f => "Kubernetes API error: " ++ f.message
  | .config f => "Configuration error: " ++ f.message
  | .validation f => "Validation error: " ++ f.message
  | .notFound => "resource not found"
  | .api e => e.message
  | .applyFailed cause => "Finalizer error: failed to apply object: " ++ cause.message
  | .cleanupFailed cause => "Finalizer error: failed to clean up object: " ++ cause.message
  | .finalizerNotAdded r => "Finalizer error: failed to add finalizer: " ++ r.message
  | .finalizerNotRemoved r => "Finalizer error: failed to remove finalizer: " ++ r.message
  | .unnamedObject => "Finalizer error: object has no name"
  | .invalidFinalizer => "Finalizer error: invalid finalizer"

/-- How the controller reacts to a failure. -/
inductive Severity where
  /-- No retry can help until the desired state changes. -/
  | terminal
  /-- Retried after a while. -/
  | recoverable
  deriving DecidableEq, Repr

def severity : Failure → Severity
  | .config _ => .terminal
  | .validation _ => .terminal
  | .api e => if e.kind = .invalidParameter then .terminal else .recoverable
  | _ => .recoverable

def isTerminal (e : Failure) : Bool := e.severity = .terminal

/-- Whether the failure means that the remote entity is absent. -/
def isNotFound : Failure → Bool
  | .notFound => true
  | .api e => e.kind = .notFound
  | _ => false

/-- **An absent entity is never a reason to give up.** -/
theorem isTerminal_eq_false_of_isNotFound {e : Failure} (h : e.isNotFound = true) :
    e.isTerminal = false := by
  cases e with
  | api e =>
    have hk : e.kind = .notFound := by simpa [isNotFound] using h
    simp [isTerminal, severity, hk]
  | _ => simp_all [isNotFound, isTerminal, severity]

end Failure

end ShareKeeper
