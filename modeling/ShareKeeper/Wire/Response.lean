import ShareKeeper.Json.Reader
import ShareKeeper.Service.Request

/-!
# Responses of the service

What an HTTP response says, and why it may say nothing. A document is understood as a whole or not at
all: every member that is known must be of its type or null, and a list must not hold null. Members
that are not known are passed over, and an empty body counts as an empty object.

Times are seconds since the epoch as doubles. The fraction of a second, as a double, is multiplied by
`10^9` and cut.
-/

namespace ShareKeeper.Wire

/-- A response: status, the header that names the error, and the document in the body, if the body is
one. -/
structure Response where
  status : Nat
  errorType : Option String
  document : Option Json

/-- The document in a body. -/
def documentOf (body : String) : Option Json :=
  if body.isEmpty then some (.object [])
  else
    match Json.read body with
    | .ok j => some j
    | .error _ => none

/-- A response with a body. -/
def Response.ofBody (status : Nat) (errorType : Option String) (body : String) : Response :=
  ⟨status, errorType, documentOf body⟩

/-- Whether a response is a success. -/
def Response.isSuccess (r : Response) : Bool := 200 ≤ r.status ∧ r.status < 300

/-- Why a call got no reply. -/
inductive CallFault where
  /-- The service refused, with a code and perhaps a message. -/
  | refused (code : String) (message : Option String)
  /-- The request could not be sent, or the response names no code or could not be understood. -/
  | unclear
  /-- The response lacks what it is about. -/
  | empty (what : String)
  /-- The share is not among those that were listed. -/
  | unlisted (arn : String)
  deriving DecidableEq, Repr

/-- The error that a fault is for the caller of an operation. -/
def CallFault.toApiError (o : Operation) : CallFault → ApiError
  | .refused code message =>
    ApiError.ofCode o.name (some code) (message.getD "the service gave no message")
  | .unclear => ApiError.ofCode o.name none "the response could not be understood"
  | .empty what => ⟨.other, o.name, none, "response contained no " ++ what⟩
  | .unlisted arn => ⟨.notFound, o.name, none, "resource share " ++ arn ++ " not listed"⟩

/-! ## Members -/

/-- A member, which may be missing or null. -/
def read {α : Type} (name : String) (value : Json → Option α) (ms : List (String × Json)) :
    Option (Option α) :=
  match Json.lookup name ms with
  | none => some none
  | some .null => some none
  | some j => (value j).map some

def text : Json → Option String
  | .string s => some s
  | _ => none

def truth : Json → Option Bool
  | .bool b => some b
  | _ => none

/-- The items of a list, none of which may be null. -/
def readAll {α : Type} (value : Json → Option α) : List Json → Option (List α)
  | [] => some []
  | j :: rest => do
    let a ← value j
    let as ← readAll value rest
    return a :: as

/-- A list; one that is missing is empty. -/
def list {α : Type} (name : String) (value : Json → Option α) (ms : List (String × Json)) :
    Option (List α) := do
  let items ← read name (fun j => match j with | .array l => readAll value l | _ => none) ms
  return items.getD []

/-- The members of an object. -/
def record {α : Type} (f : List (String × Json) → Option α) : Json → Option α
  | .object ms => f ms
  | _ => none

/-! ## Times -/

def billion : Binary64 := (Binary64.powerOfTen 9).getD (.zero false)

/-- The instant of some seconds, if there is one. -/
def instantOf (x : Binary64) : Option Instant :=
  Instant.of? x.floor (((x.fraction.mul billion).map Binary64.wholePart).getD 0)

/-- A time; one beyond the calendar counts as missing. -/
def time (name : String) (ms : List (String × Json)) : Option (Option Instant) := do
  let x ← read name (fun j =>
    match j with
    | .number (.double x) => some x
    | .number (.int i) => Binary64.ofInt i
    | _ => none) ms
  return x.bind instantOf

end ShareKeeper.Wire
