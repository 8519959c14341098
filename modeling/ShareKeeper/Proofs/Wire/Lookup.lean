import ShareKeeper.Wire.Client

/-!
# Looking a share up in pages

The list in which a share is looked up may come in pages, each of which but the last names the token of the
next one (`Delivers`). The client does not follow these tokens, as it does in other lists: it sends one
message and reads one page, whatever token the page names. So the look-up finds what it is to find exactly
if the share is on the first page or on none (`lookUp_first_page`); a share that is listed on a later page
alone counts as absent.
-/

namespace ShareKeeper.Wire

/-! ## Pages -/

/-- Responses that bring a list in pages: each page but the last names the token of the next one. -/
inductive Delivers {P : Type} (o : Operation) (readPage : Option Json → Except CallFault P)
    (next : P → Option String) : List Response → List P → Prop
  | last {response : Response} {page : P} (h : response.say o readPage = .ok page)
      (hnext : next page = none) : Delivers o readPage next [response] [page]
  | more {response : Response} {page : P} {token : String} {rest : List Response} {pages : List P}
      (h : response.say o readPage = .ok page) (hnext : next page = some token)
      (hrest : Delivers o readPage next rest pages) :
      Delivers o readPage next (response :: rest) (page :: pages)

/-! ## The list in which a share is looked up -/

/-- One page of a list of shares, and the token that asks for the next one. -/
structure SharePage where
  shares : List ShareDetail
  next : Option String

def readSharePage : Option Json → Except CallFault SharePage :=
  understand fun ms => do
    let next ← read "nextToken" text ms
    let shares ← list "resourceShares" share ms
    return ⟨shares, next⟩

namespace SharePage

/-- Whether a share with an ARN is on a page. -/
def Lists (page : SharePage) (arn : String) : Prop := ∃ s ∈ page.shares, s.arn = some arn

/-- What a page alone says about an ARN. -/
def lookUp (page : SharePage) (arn : String) : Answer (.getShare arn) :=
  match page.shares.find? fun s => s.arn = some arn with
  | some s => .ok s
  | none => .error ((CallFault.unlisted arn).toApiError .getResourceShares)

variable {page : SharePage} {arn : String}

theorem find?_eq_none_iff :
    page.shares.find? (fun s => decide (s.arn = some arn)) = none ↔ ¬ page.Lists arn := by
  simp [Lists]

end SharePage

/-- What understanding depends on is what is made of the members. -/
theorem understand_map {α β : Type} (f : List (String × Json) → Option α) (g : α → β)
    (document : Option Json) :
    understand (fun ms => (f ms).map g) document = (understand f document).map g := by
  have hbind : document.bind (record fun ms => (f ms).map g) = (document.bind (record f)).map g := by
    cases document with
    | none => rfl
    | some j => cases j <;> rfl
  rw [understand, understand, hbind]
  cases document.bind (record f) <;> rfl

/-- What is found in a document is what its page says. -/
theorem findShare_of_page {arn : String} {document : Option Json} {page : SharePage}
    (h : readSharePage document = .ok page) :
    (findShare arn document).mapError (·.toApiError .getResourceShares) = page.lookUp arn := by
  have hshares : (document |> understand fun ms => do
      let _ ← read "nextToken" text ms
      list "resourceShares" share ms) = .ok page.shares := by
    have hmap := understand_map (fun ms => do
      let next ← read "nextToken" text ms
      let shares ← list "resourceShares" share ms
      return SharePage.mk shares next) SharePage.shares document
    rw [← readSharePage, h] at hmap
    refine Eq.trans (congrArg (understand · document) (funext fun ms => ?_)) hmap
    cases read "nextToken" text ms with
    | none => rfl
    | some next => cases list "resourceShares" share ms <;> rfl
  rw [findShare, hshares]
  unfold SharePage.lookUp
  show Except.mapError _ (match page.shares.find? fun s => s.arn = some arn with
    | some s => (Except.ok s : Except CallFault ShareDetail)
    | none => .error (.unlisted arn)) = _
  cases page.shares.find? fun s => s.arn = some arn <;> rfl

/-- A response of which something was understood is a success. -/
theorem say_of_ok {α : Type} {o : Operation} {f : Option Json → Except CallFault α}
    {response : Response} {a : α} (h : response.say o f = .ok a) :
    response.isSuccess = true ∧ f response.document = .ok a := by
  unfold Response.say at h
  split at h
  · next hsuccess => exact ⟨hsuccess, h⟩
  · cases h

/-! ## A look-up -/

/-- What a look-up is to answer about an ARN, if the list comes in these pages. -/
structure Finds (arn : String) (all : List SharePage) (answer : Answer (.getShare arn)) : Prop where
  /-- The first share with the ARN, on whichever page it is. -/
  found : ∀ s, (all.flatMap SharePage.shares).find? (fun s => s.arn = some arn) = some s →
    answer = .ok s
  /-- That there is no such share only if there is none on any page. -/
  missing : ∀ e, answer = .error e → (Failure.api e).isNotFound = true →
    ∀ page ∈ all, ¬ page.Lists arn

/-- The first page says enough exactly if no later one lists what it does not. -/
theorem finds_lookUp_iff {arn : String} {page : SharePage} {more : List SharePage} :
    Finds arn (page :: more) (page.lookUp arn) ↔ ((∃ p ∈ more, p.Lists arn) → page.Lists arn) := by
  unfold SharePage.lookUp
  cases hfind : page.shares.find? fun s => s.arn = some arn with
  | some s =>
    have hlists : page.Lists arn :=
      ⟨s, List.mem_of_find?_eq_some hfind, by simpa using List.find?_some hfind⟩
    refine iff_of_true ⟨fun t ht => ?_, fun e he => nomatch he⟩ fun _ => hlists
    rw [List.flatMap_cons, List.find?_append, hfind, Option.some_or] at ht
    cases ht
    rfl
  | none =>
    have hnone : ¬ page.Lists arn := SharePage.find?_eq_none_iff.1 hfind
    constructor
    · rintro hfinds ⟨p, hp, hlists⟩
      exact absurd hlists (hfinds.missing _ rfl rfl p (List.mem_cons_of_mem _ hp))
    · intro h
      have hmore : ∀ p ∈ more, ¬ p.Lists arn := fun p hp hlists => hnone (h ⟨p, hp, hlists⟩)
      refine ⟨fun s hs => ?_, fun e _ _ p hp => ?_⟩
      · -- there is no share with the ARN at all
        have hfound : (more.flatMap SharePage.shares).find? (fun s => s.arn = some arn) = some s := by
          rwa [List.flatMap_cons, List.find?_append, hfind, Option.none_or] at hs
        obtain ⟨p, hp, hmem⟩ := List.mem_flatMap.1 (List.mem_of_find?_eq_some hfound)
        exact absurd ⟨s, hmem, by simpa using List.find?_some hfound⟩ (hmore p hp)
      · rcases List.mem_cons.1 hp with rfl | hp
        · exact hnone
        · exact hmore p hp

/-- **One page decides a look-up.** Of a list in pages the client takes the first, with one message that
names no token, and answers from that page alone. The answer is what it is to be exactly if the share is
on the first page or on no page. -/
theorem lookUp_first_page {silence : CallFault} {arn : String} {response : Response}
    {rest later : List Response} {page : SharePage} {more : List SharePage}
    (h : Delivers .getResourceShares readSharePage SharePage.next (response :: rest) (page :: more)) :
    (call silence (.getShare arn) (response :: rest ++ later)).sent = [message none (.getShare arn)] ∧
      service silence (.getShare arn) (response :: rest ++ later) = (page.lookUp arn, rest ++ later) ∧
      (Finds arn (page :: more) (page.lookUp arn) ↔
        ((∃ p ∈ more, p.Lists arn) → page.Lists arn)) := by
  have hpage : response.say .getResourceShares readSharePage = .ok page := by
    cases h with
    | last h _ => exact h
    | more h _ _ => exact h
  obtain ⟨hsuccess, hread⟩ := say_of_ok hpage
  refine ⟨rfl, ?_, finds_lookUp_iff⟩
  have hsay : response.say .getResourceShares (findShare arn) = findShare arn response.document :=
    if_pos hsuccess
  show (Except.mapError _ (response.say .getResourceShares (findShare arn)), rest ++ later) = _
  rw [hsay, findShare_of_page hread]

/-! ### Pages with and without the share -/

/-- A response with a page of shares. -/
def sharePage (next : Option String) (shares : List Json) : Response :=
  ⟨200, none, some (.object (Json.may "nextToken" .string next ++ [("resourceShares", .array shares)]))⟩

def listedJson : Json := .object [("name", .string "team"), ("resourceShareArn", .string "arn:s")]

/-- A page that lists one share and names a token. -/
def fullPage : Response := sharePage (some "more") [listedJson]

/-- A page that lists no share and names a token. -/
def barePage : Response := sharePage (some "more") []

/-- The last page of a list, with one share. -/
def lastPage : Response := sharePage none [listedJson]

/-- The share that these pages list. -/
def listedShare : ShareDetail where
  arn := some "arn:s"
  name := some "team"
  owningAccountId := none
  allowExternalPrincipals := none
  status := none
  statusMessage := none
  featureSet := none
  creationTime := none
  lastUpdatedTime := none
  tags := []

/-- A share on the first page is found. -/
theorem lookUp_fullPage :
    Delivers .getResourceShares readSharePage SharePage.next [fullPage, lastPage]
        [⟨[listedShare], some "more"⟩, ⟨[listedShare], none⟩] ∧
      (call .unclear (.getShare "arn:s") [fullPage, lastPage]).sent = [message none (.getShare "arn:s")] ∧
      service .unclear (.getShare "arn:s") [fullPage, lastPage] = (.ok listedShare, [lastPage]) ∧
      Finds "arn:s" [⟨[listedShare], some "more"⟩, ⟨[listedShare], none⟩] (.ok listedShare) := by
  have h : Delivers .getResourceShares readSharePage SharePage.next [fullPage, lastPage]
      [⟨[listedShare], some "more"⟩, ⟨[listedShare], none⟩] := .more rfl rfl (.last rfl rfl)
  obtain ⟨hsent, hservice, hfinds⟩ := @lookUp_first_page .unclear "arn:s" _ _ [] _ _ h
  exact ⟨h, hsent, hservice, hfinds.2 fun _ => ⟨listedShare, List.mem_cons_self, rfl⟩⟩

/-- **A share on the second page is not found** behind a first page without shares. -/
theorem share_behind_bare_page :
    Delivers .getResourceShares readSharePage SharePage.next [barePage, lastPage]
        [⟨[], some "more"⟩, ⟨[listedShare], none⟩] ∧
      (call .unclear (.getShare "arn:s") [barePage, lastPage]).sent.length = 1 ∧
      (service .unclear (.getShare "arn:s") [barePage, lastPage]).1
        = .error ((CallFault.unlisted "arn:s").toApiError .getResourceShares) ∧
      ¬ Finds "arn:s" [⟨[], some "more"⟩, ⟨[listedShare], none⟩]
        (service .unclear (.getShare "arn:s") [barePage, lastPage]).1 := by
  refine ⟨.more rfl rfl (.last rfl rfl), rfl, rfl, fun h => ?_⟩
  cases h.found listedShare rfl

end ShareKeeper.Wire
