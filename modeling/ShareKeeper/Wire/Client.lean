import ShareKeeper.Wire.Message
import ShareKeeper.Wire.Refusal
import ShareKeeper.Wire.Reply

/-!
# A client of the service

A client sends the message of a request and reads what comes back. A list may come in pages: while a
page names a token, the next page is asked for with it, and the first fault ends the list. What
comes back is taken from responses that are given in advance. Each message takes one of them;
`silence` is what it counts as when none is left.

The client is a service whose state is the responses to come.
-/

namespace ShareKeeper.Wire

/-- What a call comes to: the messages that were sent, what they brought, and the responses that are
left. -/
structure Exchange (α : Type) where
  sent : List Message
  result : Except CallFault α
  left : List Response

/-- What a response says: its document, read by `f`, or a refusal. -/
def Response.say {α : Type} (o : Operation) (f : Option Json → Except CallFault α) (r : Response) :
    Except CallFault α :=
  if r.isSuccess then f r.document else .error (refusal o r)

/-- One message and its response. -/
def once (silence : CallFault) (r : Request) : List Response → Exchange r.Reply
  | [] => ⟨[message none r], .error silence, []⟩
  | response :: rest => ⟨[message none r], response.say r.operation (readReply r), rest⟩

/-- A page of a list and those after it. -/
def pages (silence : CallFault) (r : Request) (readPage : Option Json → Except CallFault Page)
    (token : Option String) : List Response → Exchange (List String)
  | [] => ⟨[message token r], .error silence, []⟩
  | response :: rest =>
    match response.say r.operation readPage with
    | .error fault => ⟨[message token r], .error fault, rest⟩
    | .ok ⟨names, none⟩ => ⟨[message token r], .ok names, rest⟩
    | .ok ⟨names, some next⟩ =>
      let later := pages silence r readPage (some next) rest
      ⟨message token r :: later.sent, later.result.map (names ++ ·), later.left⟩

/-- Makes a request. -/
def call (silence : CallFault) (r : Request) (responses : List Response) : Exchange r.Reply :=
  if canSend r then
    match r with
    | .listPermissions arn =>
      pages silence (.listPermissions arn) readPermissionPage none responses
    | .listAssociations arn type =>
      pages silence (.listAssociations arn type) readAssociationPage none responses
    | r => once silence r responses
  else ⟨[], .error .unclear, responses⟩

/-- The service as the client reaches it. -/
def service (silence : CallFault) : Service (List Response) := fun r responses =>
  let exchange := call silence r responses
  (exchange.result.mapError (·.toApiError r.operation), exchange.left)

end ShareKeeper.Wire
