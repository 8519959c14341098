import ShareKeeper.Proofs.Record
import ShareKeeper.Proofs.Wire.Lookup

/-!
# Lists are read to their last page

The permissions and the associations of a share come in pages, each of which but the last names the token of
the next one; in place of any page a fault may come (`Brings`). The client asks for the first page without
a token and for each later one with the token of the page before. It stops after the page that names no
token, and what it has by then are the names on all pages, in their order. After a fault it asks for nothing
more, and the fault is all it has (`lists_of_brings`).

The names on a page are those of the items that have one; an association counts only once it is made.
-/

namespace ShareKeeper.Wire

/-! ## Pages of items -/

/-- One page of a list of items, and the token that asks for the next one. -/
structure ItemPage (α : Type) where
  items : List α
  next : Option String

/-- The page in a document, with its items in a member of the given name. -/
def readItems {α : Type} (name : String) (item : Json → Option α) :
    Option Json → Except CallFault (ItemPage α) :=
  understand fun ms => do
    let items ← list name item ms
    let next ← read "nextToken" text ms
    return ⟨items, next⟩

/-- The names on a page, chosen from its items. -/
def ItemPage.choose {α : Type} (names : List α → List String) (page : ItemPage α) : Page :=
  ⟨names page.items, page.next⟩

/-- To read the names alone is to read the items and choose their names. -/
theorem understand_names {α : Type} (name : String) (item : Json → Option α)
    (names : List α → List String) (document : Option Json) :
    (document |> understand fun ms => do
      let items ← list name item ms
      let next ← read "nextToken" text ms
      return Page.mk (names items) next) = (readItems name item document).map (ItemPage.choose names) := by
  rw [readItems, ← understand_map]
  refine congrArg (understand · document) (funext fun ms => ?_)
  cases list name item ms with
  | none => rfl
  | some items => cases read "nextToken" text ms <;> rfl

/-- A list of the service, by the kind of its items. -/
inductive Listing : Type → Type
  | permissions (arn : String) : Listing PermissionDetail
  | associations (arn : String) (type : AssociationType) : Listing Association

namespace Listing

variable {α : Type}

def request : Listing α → Request
  | .permissions arn => .listPermissions arn
  | .associations arn type => .listAssociations arn type

/-- The items in a document. -/
def readItems : Listing α → Option Json → Except CallFault (ItemPage α)
  | .permissions _ => Wire.readItems "permissions" permissionSummary
  | .associations .. => Wire.readItems "resourceShareAssociations" association

/-- The names of items: of permissions that have an ARN, and of what is associated by now if it is known. -/
def names : Listing α → List α → List String
  | .permissions _, items => items.filterMap PermissionDetail.arn
  | .associations .., items =>
    (items.filter fun a => a.status = some "ASSOCIATED").filterMap Association.entity

/-- What the client makes of responses. -/
def exchange (silence : CallFault) : Listing α → List Response → Exchange (List String)
  | .permissions arn, responses => call silence (.listPermissions arn) responses
  | .associations arn type, responses => call silence (.listAssociations arn type) responses

/-- What the client answers. -/
def answer (silence : CallFault) : Listing α → List Response → Except ApiError (List String)
  | .permissions arn, responses => (service silence (.listPermissions arn) responses).1
  | .associations arn type, responses => (service silence (.listAssociations arn type) responses).1

/-- The names on the page in a document. -/
def readNames : Listing α → Option Json → Except CallFault Page
  | .permissions _ => readPermissionPage
  | .associations .. => readAssociationPage

theorem readNames_eq (l : Listing α) (document : Option Json) :
    l.readNames document = (l.readItems document).map (ItemPage.choose l.names) := by
  cases l with
  | permissions arn => exact understand_names _ _ _ document
  | associations arn type => exact understand_names _ _ _ document

theorem names_append (l : Listing α) (a b : List α) : l.names (a ++ b) = l.names a ++ l.names b := by
  cases l <;> simp [names]

theorem exchange_eq (l : Listing α) (silence : CallFault) (responses : List Response) :
    l.exchange silence responses = pages silence l.request l.readNames none responses := by
  cases l <;> rfl

theorem answer_eq (l : Listing α) (silence : CallFault) (responses : List Response) :
    l.answer silence responses
      = (l.exchange silence responses).result.mapError (·.toApiError l.request.operation) := by
  cases l <;> rfl

theorem say_readNames (l : Listing α) (response : Response) :
    response.say l.request.operation l.readNames
      = (response.say l.request.operation l.readItems).map (ItemPage.choose l.names) := by
  unfold Response.say
  split
  · exact l.readNames_eq _
  · rfl

end Listing

/-! ## Responses in a row -/

/-- Responses that bring a list in pages. `turned` are the pages that name a token, each with its token;
`ending` is what comes after them: the items of the page without one, or a fault. -/
inductive Brings {α : Type} (l : Listing α) :
    List Response → List (List α × String) → Except CallFault (List α) → Prop
  | last {response : Response} {items : List α}
      (h : response.say l.request.operation l.readItems = .ok ⟨items, none⟩) :
      Brings l [response] [] (.ok items)
  | fault {response : Response} {fault : CallFault}
      (h : response.say l.request.operation l.readItems = .error fault) :
      Brings l [response] [] (.error fault)
  | more {response : Response} {items : List α} {token : String} {rest : List Response}
      {turned : List (List α × String)} {ending : Except CallFault (List α)}
      (h : response.say l.request.operation l.readItems = .ok ⟨items, some token⟩)
      (hrest : Brings l rest turned ending) :
      Brings l (response :: rest) ((items, token) :: turned) ending

/-- The tokens that are asked with: none at first, and then the one of the page before. -/
def tokens {α : Type} (turned : List (List α × String)) : List (Option String) :=
  none :: turned.map fun page => some page.2

section Rows

variable {α : Type} {l : Listing α} {responses : List Response} {turned : List (List α × String)}
  {ending : Except CallFault (List α)}

/-- There is one response for each page that was turned, and one for what came last. -/
theorem Brings.length_eq (h : Brings l responses turned ending) :
    responses.length = turned.length + 1 := by
  induction h with
  | last _ => rfl
  | fault _ => rfl
  | more _ _ ih => rw [List.length_cons, List.length_cons, ih]

/-- **From any page on, what is left of a list is read to its end.** -/
theorem pages_of_brings (silence : CallFault) (later : List Response)
    (h : Brings l responses turned ending) (token : Option String) :
    pages silence l.request l.readNames token (responses ++ later)
      = ⟨(token :: turned.map fun page => some page.2).map (message · l.request),
          ending.map fun last => l.names (turned.flatMap Prod.fst ++ last), later⟩ := by
  -- on the pages, whatever token the first of them was asked for with
  induction h generalizing token with
  | last h =>
    rw [List.singleton_append, pages, l.say_readNames, h]
    rfl
  | fault h =>
    rw [List.singleton_append, pages, l.say_readNames, h]
    rfl
  | @more _ items next _ turned ending h _ ih =>
    rw [List.cons_append, pages, l.say_readNames, h]
    show Exchange.mk _ _ _ = _
    rw [ih (some next)]
    cases ending with
    | error fault => rfl
    | ok last =>
      simp only [List.flatMap_cons, List.append_assoc, Except.map, ← l.names_append]
      rfl

end Rows

/-! ## Tokens and faults -/

/-- The token that a message asks with. -/
def Message.token? (m : Message) : Option String := m.body.bind (textMember "nextToken")

theorem token?_message {α : Type} (l : Listing α) (token : Option String) :
    (message token l.request).token? = token := by
  cases l <;> cases token <;>
    simp [Listing.request, message, post, Message.token?, textMember, Json.ofMembers, Json.must, Json.may,
      Json.member?, Json.members, Json.lookup_insertByKey, Json.lookup, text]

/-- The code that a fault was refused with. -/
def CallFault.code? : CallFault → Option String
  | .refused code _ => some code
  | _ => none

/-- Whether an error is of an operation and has the kind that its code stands for. -/
structure IsClassified (o : Operation) (code : Option String) (e : ApiError) : Prop where
  operation : e.operation = o.name
  code : e.code = code
  kind : e.kind = ApiErrorKind.ofCode e.code

theorem refusal_classified (o : Operation) (response : Response) :
    IsClassified o (refusal o response).code? ((refusal o response).toApiError o) := by
  unfold refusal
  split
  · exact ⟨rfl, rfl, rfl⟩
  · split
    · exact ⟨rfl, rfl, rfl⟩
    · split <;> exact ⟨rfl, rfl, rfl⟩

/-- A page that does not come is an error by its code. -/
theorem Listing.say_classified {α : Type} (l : Listing α) {response : Response} {fault : CallFault}
    (h : response.say l.request.operation l.readItems = .error fault) :
    IsClassified l.request.operation fault.code? (fault.toApiError l.request.operation) := by
  unfold Response.say at h
  split at h
  · have hunclear : fault = .unclear := by
      cases l <;>
      · rw [readItems, Wire.readItems, understand] at h
        split at h
        · cases h
        · exact (Except.error.inj h).symm
    rw [hunclear]
    exact ⟨rfl, rfl, rfl⟩
  · cases h
    exact refusal_classified _ _

theorem Brings.classified {α : Type} {l : Listing α} {responses : List Response}
    {turned : List (List α × String)} {ending : Except CallFault (List α)} {fault : CallFault}
    (h : Brings l responses turned ending) (hending : ending = .error fault) :
    IsClassified l.request.operation fault.code? (fault.toApiError l.request.operation) := by
  induction h with
  | last _ => cases hending
  | fault h =>
    cases hending
    exact l.say_classified h
  | more _ _ ih => exact ih hending

/-! ## Whole lists -/

/-- What the client makes of a list that comes in pages. -/
structure Lists {α : Type} (l : Listing α) (turned : List (List α × String))
    (ending : Except CallFault (List α)) (later : List Response) (exchange : Exchange (List String))
    (answer : Except ApiError (List String)) : Prop where
  /-- One message for each page, each with the token of the page before. -/
  sent : exchange.sent = (tokens turned).map (message · l.request)
  asked : exchange.sent.map Message.token? = tokens turned
  /-- Nothing is asked after the page without a token, nor after a fault. -/
  stopped : exchange.sent.length = turned.length + 1 ∧ exchange.left = later
  /-- The names on all pages, in their order. -/
  whole : ∀ last, ending = .ok last → answer = .ok (l.names (turned.flatMap Prod.fst ++ last))
  failed : ∀ fault, ending = .error fault → answer = .error (fault.toApiError l.request.operation) ∧
    IsClassified l.request.operation fault.code? (fault.toApiError l.request.operation)

/-- **A list is read to its last page,** or to the first fault. -/
theorem lists_of_brings {α : Type} {l : Listing α} {responses : List Response}
    {turned : List (List α × String)} {ending : Except CallFault (List α)} (silence : CallFault)
    (later : List Response) (h : Brings l responses turned ending) :
    Lists l turned ending later (l.exchange silence (responses ++ later))
      (l.answer silence (responses ++ later)) := by
  have heq := (l.exchange_eq silence (responses ++ later)).trans (pages_of_brings silence later h none)
  have hanswer := l.answer_eq silence (responses ++ later)
  rw [heq] at hanswer ⊢
  refine ⟨rfl, ?_, ⟨?_, rfl⟩, ?_, ?_⟩
  · simp [tokens, token?_message, Function.comp_def]
  · simp
  · rintro last rfl
    exact hanswer
  · rintro fault rfl
    exact ⟨hanswer, h.classified rfl⟩

/-! ### Principals of a share on two pages -/

def principals : Listing Association := .associations "arn:s" .principal

def associationJson (entity : String) (status : String) : Json :=
  .object [("associatedEntity", .string entity), ("status", .string status)]

/-- A page with one principal that is associated and one that is not yet, and with a token. -/
def openPage : Response :=
  ⟨200, none, some (.object [("nextToken", .string "more"), ("resourceShareAssociations",
    .array [associationJson "anna" "ASSOCIATED", associationJson "bert" "ASSOCIATING"])])⟩

/-- The page after it, which is the last one. -/
def closingPage : Response :=
  ⟨200, none, some (.object [("resourceShareAssociations",
    .array [associationJson "carl" "ASSOCIATED"])])⟩

/-- What comes instead if the share is deleted in between. -/
def goneResponse : Response := ⟨400, some "UnknownResourceException", some (.object [])⟩

/-- The associated principals of both pages are listed, after two messages; if the second page is refused
there is the refusal alone. -/
theorem lists_principals :
    Brings principals [openPage, closingPage]
        [([⟨some "anna", some "ASSOCIATED"⟩, ⟨some "bert", some "ASSOCIATING"⟩], "more")]
        (.ok [⟨some "carl", some "ASSOCIATED"⟩]) ∧
      principals.answer .unclear [openPage, closingPage, openPage] = .ok ["anna", "carl"] ∧
      (principals.exchange .unclear [openPage, closingPage, openPage]).sent.map Message.token?
        = [none, some "more"] ∧
      Brings principals [openPage, goneResponse]
        [([⟨some "anna", some "ASSOCIATED"⟩, ⟨some "bert", some "ASSOCIATING"⟩], "more")]
        (.error (.refused "UnknownResourceException" none)) ∧
      (∃ e, principals.answer .unclear [openPage, goneResponse, openPage] = .error e ∧
        e.kind = .notFound) ∧
      (principals.exchange .unclear [openPage, goneResponse, openPage]).sent.length = 2 := by
  have hwhole : Brings principals [openPage, closingPage]
      [([⟨some "anna", some "ASSOCIATED"⟩, ⟨some "bert", some "ASSOCIATING"⟩], "more")]
      (.ok [⟨some "carl", some "ASSOCIATED"⟩]) := .more rfl (.last rfl)
  have htorn : Brings principals [openPage, goneResponse]
      [([⟨some "anna", some "ASSOCIATED"⟩, ⟨some "bert", some "ASSOCIATING"⟩], "more")]
      (.error (.refused "UnknownResourceException" none)) := .more rfl (.fault rfl)
  have hlists := lists_of_brings .unclear [openPage] hwhole
  have hstops := lists_of_brings .unclear [openPage] htorn
  obtain ⟨hfailed, -, -, hkind⟩ := hstops.failed _ rfl
  exact ⟨hwhole, hlists.whole _ rfl, hlists.asked, htorn, ⟨_, hfailed, hkind⟩, hstops.stopped.1⟩

end ShareKeeper.Wire
