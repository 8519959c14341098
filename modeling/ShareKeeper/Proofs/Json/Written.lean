import ShareKeeper.Json.Reader
import ShareKeeper.Proofs.Json.Lexeme
import ShareKeeper.Proofs.Roster

/-!
# How a document is written

A JSON document as its text has it: items and members in the order of the text, names given twice
included, but nothing of the white space (`Written`). It is a tree over tokens, and a text spells it if it
is made of these tokens with white space where one likes (`Spells`).

* The reader undoes this: a text reads as a value exactly if it spells a tree with this value that is not
  too deep (`read_eq_ok_iff`).
* Where no name is given twice the order of members is not part of the value, at any depth
  (`read_of_reordered`).

## The reader on a tree

The tokens of a tree, in front of anything, take the reader from where a value is due to where the value
of the tree was accepted, or to a fault if the tree is too deep (`reads`). The other way round, wherever the
reader gets to the end, the tokens before it are those of trees (`parses`).
-/

namespace ShareKeeper.Json

open Lexeme (Parted Spaced)

/-! ## Trees -/

/-- A document as it is written. -/
inductive Written where
  | scalar (v : Json)
  | text (s : String)
  | array (items : List Written)
  | object (members : List (String × Written))

namespace Written

mutual

/-- The tokens of a document. -/
def tokens : Written → List Lexeme.Kind
  | .scalar v => [.scalar v]
  | .text s => [.text s]
  | .array [] => [.openArray, .closeArray]
  | .array (w :: items) => .openArray :: (w.tokens ++ moreItems items)
  | .object [] => [.openObject, .closeObject]
  | .object ((name, w) :: members) =>
    .openObject :: .text name :: .colon :: (w.tokens ++ moreMembers members)

/-- The tokens after an item, up to the end of the array. -/
def moreItems : List Written → List Lexeme.Kind
  | [] => [.closeArray]
  | w :: items => .comma :: (w.tokens ++ moreItems items)

/-- The tokens after a member, up to the end of the object. -/
def moreMembers : List (String × Written) → List Lexeme.Kind
  | [] => [.closeObject]
  | (name, w) :: members => .comma :: .text name :: .colon :: (w.tokens ++ moreMembers members)

end

mutual

/-- The value of a document. -/
def value : Written → Json
  | .scalar v => v
  | .text s => .string s
  | .array items => .array (values items)
  | .object members => .ofMembers (memberValues members)

def values : List Written → List Json
  | [] => []
  | w :: items => w.value :: values items

def memberValues : List (String × Written) → List (String × Json)
  | [] => []
  | (name, w) :: members => (name, w.value) :: memberValues members

end

mutual

/-- How many arrays and objects stand inside each other. -/
def depth : Written → Nat
  | .scalar _ => 0
  | .text _ => 0
  | .array items => depthOfItems items + 1
  | .object members => depthOfMembers members + 1

def depthOfItems : List Written → Nat
  | [] => 0
  | w :: items => max w.depth (depthOfItems items)

def depthOfMembers : List (String × Written) → Nat
  | [] => 0
  | (_, w) :: members => max w.depth (depthOfMembers members)

end

mutual

/-- No object, at any depth, gives a name twice. -/
def DistinctNames : Written → Prop
  | .scalar _ => True
  | .text _ => True
  | .array items => DistinctInItems items
  | .object members => (members.map Prod.fst).Nodup ∧ DistinctInMembers members

def DistinctInItems : List Written → Prop
  | [] => True
  | w :: items => w.DistinctNames ∧ DistinctInItems items

def DistinctInMembers : List (String × Written) → Prop
  | [] => True
  | (_, w) :: members => w.DistinctNames ∧ DistinctInMembers members

end

mutual

/-- The same document with the members of its objects in another order, at any depth. -/
inductive Reordered : Written → Written → Prop
  | scalar (v : Json) : Reordered (.scalar v) (.scalar v)
  | text (s : String) : Reordered (.text s) (.text s)
  | array {a b : List Written} (h : ReorderedItems a b) : Reordered (.array a) (.array b)
  | object {a b c : List (String × Written)} (h : ReorderedMembers a b) (hperm : b.Perm c) :
    Reordered (.object a) (.object c)

inductive ReorderedItems : List Written → List Written → Prop
  | nil : ReorderedItems [] []
  | cons {v w : Written} {a b : List Written} (h : Reordered v w) (rest : ReorderedItems a b) :
    ReorderedItems (v :: a) (w :: b)

inductive ReorderedMembers : List (String × Written) → List (String × Written) → Prop
  | nil : ReorderedMembers [] []
  | cons {v w : Written} {a b : List (String × Written)} (name : String) (h : Reordered v w)
      (rest : ReorderedMembers a b) : ReorderedMembers ((name, v) :: a) ((name, w) :: b)

end

/-- A text is the document, with white space where one likes. -/
def Spells (w : Written) (s : String) : Prop := Spaced w.tokens s.toList

end Written

/-! ## The reader without offsets -/

namespace Reader

/-- One lexeme, told by its kind. -/
def advance (r : Reader) (kind : Lexeme.Kind) : Option Reader := (r.step ⟨0, kind⟩).toOption

/-- The value at the end of the text. -/
def result (r : Reader) : Option Json :=
  match r.due with
  | .nothing v => some v
  | _ => none

/-- All lexemes, then the end. -/
def follow (r : Reader) : List Lexeme.Kind → Option Json
  | [] => r.result
  | kind :: kinds => (r.advance kind).bind fun r => r.follow kinds

/-- Offsets are for the faults. -/
theorem toOption_step (r : Reader) (l : Lexeme) : (r.step l).toOption = r.advance l.kind := by
  obtain ⟨start, kind⟩ := l
  obtain ⟨stack, due⟩ := r
  have hdescend (frame : Frame) (due : Due) :
      (descend frame due start stack).toOption = (descend frame due 0 stack).toOption := by
    unfold descend
    split <;> rfl
  cases due <;> cases kind <;> first | rfl | exact hdescend _ _ | skip
  -- the rest depends on what is open
  all_goals
    rcases stack with _ | ⟨_ | _, stack⟩ <;> rfl

theorem toOption_finish (size : Nat) (r : Reader) : (r.finish size).toOption = r.result := by
  obtain ⟨stack, due⟩ := r
  cases due <;> rcases stack with _ | ⟨_ | _, stack⟩ <;> rfl

theorem toOption_run (size : Nat) (r : Reader) (ls : List Lexeme) :
    (r.run size ls).toOption = r.follow (ls.map Lexeme.kind) := by
  induction ls generalizing r with
  | nil => exact toOption_finish size r
  | cons l ls ih =>
    rw [run, List.map_cons, follow, ← toOption_step]
    cases r.step l with
    | error f => rfl
    | ok r' => exact ih r'

end Reader

/-! ## The reader on a tree -/

namespace Written

open Reader (accept depthLimit follow advance)

/-- Puts members where they belong in an object. -/
def place (done : List (String × Json)) (members : List (String × Json)) : List (String × Json) :=
  members.foldl (fun done m => insertByKey Prod.fst m done) done

/-- The tokens of a document are read where a value is due, unless they go too deep. -/
def IsRead (w : Written) : Prop :=
  ∀ stack rest, stack.length < depthLimit →
    follow ⟨stack, .value⟩ (w.tokens ++ rest)
      = if stack.length + w.depth < depthLimit then follow (accept w.value stack) rest else none

/-- The rest of an array is read after an item. -/
def ItemsAreRead (items : List Written) : Prop :=
  ∀ done stack rest, stack.length + 1 < depthLimit →
    follow ⟨.array done :: stack, .separator⟩ (moreItems items ++ rest)
      = if stack.length + 1 + depthOfItems items < depthLimit
        then follow (accept (.array (done.reverse ++ values items)) stack) rest else none

/-- The rest of an object is read after a member. -/
def MembersAreRead (members : List (String × Written)) : Prop :=
  ∀ done name stack rest, stack.length + 1 < depthLimit →
    follow ⟨.object done name :: stack, .separator⟩ (moreMembers members ++ rest)
      = if stack.length + 1 + depthOfMembers members < depthLimit
        then follow (accept (.object (place done (memberValues members))) stack) rest else none

section Follow

variable {stack : List Frame} {rest : List Lexeme.Kind} {w : Written}

/-- What opens must not stand too deep. -/
theorem follow_openArray : follow ⟨stack, .value⟩ (.openArray :: rest)
    = if stack.length + 1 < depthLimit then follow ⟨.array [] :: stack, .firstItem⟩ rest else none := by
  show ((Reader.descend (.array []) .firstItem 0 stack).toOption.bind fun r => r.follow rest) = _
  unfold Reader.descend
  split <;> rfl

theorem follow_openObject : follow ⟨stack, .value⟩ (.openObject :: rest)
    = if stack.length + 1 < depthLimit then follow ⟨.object [] "" :: stack, .firstKey⟩ rest
      else none := by
  show ((Reader.descend (.object [] "") .firstKey 0 stack).toOption.bind fun r => r.follow rest) = _
  unfold Reader.descend
  split <;> rfl

/-- What opens and what stands in it are both at their depth. -/
theorem ite_deeper {n d limit : Nat} {o o' : Option Json}
    (h : n + 1 < limit → o = if n + 1 + d < limit then o' else none) :
    (if n + 1 < limit then o else none) = if n + (d + 1) < limit then o' else none := by
  split
  · next hn =>
    rw [h hn]
    exact if_congr (by omega) rfl rfl
  · next hn => exact (if_neg (by omega)).symm

/-- No document begins like the end of an array. -/
theorem follow_firstItem : follow ⟨stack, .firstItem⟩ (w.tokens ++ rest)
    = follow ⟨stack, .value⟩ (w.tokens ++ rest) := by
  rcases w with _ | _ | ⟨_ | _⟩ | ⟨_ | ⟨⟨_, _⟩, _⟩⟩ <;> rfl

theorem follow_nextItem : follow ⟨stack, .nextItem⟩ (w.tokens ++ rest)
    = follow ⟨stack, .value⟩ (w.tokens ++ rest) := by
  rcases w with _ | _ | ⟨_ | _⟩ | ⟨_ | ⟨⟨_, _⟩, _⟩⟩ <;> rfl

/-- An item and the rest of its array. -/
theorem follow_items {done : List Json} {items : List Written} (hw : w.IsRead)
    (hitems : ItemsAreRead items) (hdepth : stack.length + 1 < depthLimit) :
    follow ⟨.array done :: stack, .value⟩ (w.tokens ++ moreItems items ++ rest)
      = if stack.length + 1 + depthOfItems (w :: items) < depthLimit
        then follow (accept (.array (done.reverse ++ values (w :: items))) stack) rest else none := by
  rw [List.append_assoc, hw (.array done :: stack) _ hdepth, accept, hitems _ _ _ hdepth, ← ite_and,
    List.reverse_cons, List.append_assoc, List.length_cons]
  refine if_congr ?_ rfl rfl
  rw [depthOfItems]
  omega

/-- A member and the rest of its object. -/
theorem follow_members {done : List (String × Json)} {name : String}
    {members : List (String × Written)} (hw : w.IsRead) (hmembers : MembersAreRead members)
    (hdepth : stack.length + 1 < depthLimit) :
    follow ⟨.object done name :: stack, .value⟩ (w.tokens ++ moreMembers members ++ rest)
      = if stack.length + 1 + depthOfMembers ((name, w) :: members) < depthLimit
        then follow (accept (.object (place done (memberValues ((name, w) :: members)))) stack) rest
        else none := by
  rw [List.append_assoc, hw (.object done name :: stack) _ hdepth, accept, hmembers _ _ _ _ hdepth,
    ← ite_and, List.length_cons]
  refine if_congr ?_ rfl rfl
  rw [depthOfMembers]
  omega

end Follow

mutual

/-- **The reader takes the tokens of a document for its value.** -/
theorem isRead : ∀ w : Written, w.IsRead
  | .scalar _ => fun _ _ h => (if_pos h).symm
  | .text _ => fun _ _ h => (if_pos h).symm
  | .array [] => fun _ _ _ => follow_openArray
  | .array (w :: items) => fun stack rest _ => by
    rw [tokens, List.cons_append, follow_openArray]
    refine ite_deeper fun hdepth => ?_
    rw [List.append_assoc, follow_firstItem, ← List.append_assoc]
    exact follow_items (isRead w) (itemsAreRead items) hdepth
  | .object [] => fun _ _ _ => follow_openObject
  | .object ((name, w) :: members) => fun stack rest _ => by
    rw [tokens, List.cons_append, follow_openObject]
    refine ite_deeper fun hdepth => ?_
    show follow ⟨.object [] name :: stack, .value⟩ (w.tokens ++ moreMembers members ++ rest) = _
    exact follow_members (isRead w) (membersAreRead members) hdepth

theorem itemsAreRead : ∀ items : List Written, ItemsAreRead items
  | [] => fun done _ _ h => by
    rw [values, List.append_nil]
    exact (if_pos h).symm
  | w :: items => fun done stack rest h => by
    show follow ⟨.array done :: stack, .nextItem⟩ (w.tokens ++ moreItems items ++ rest) = _
    rw [List.append_assoc, follow_nextItem, ← List.append_assoc]
    exact follow_items (isRead w) (itemsAreRead items) h

theorem membersAreRead : ∀ members : List (String × Written), MembersAreRead members
  | [] => fun _ _ _ _ h => (if_pos h).symm
  | (name, w) :: members => fun done _ stack rest h => by
    show follow ⟨.object done name :: stack, .value⟩ (w.tokens ++ moreMembers members ++ rest) = _
    exact follow_members (isRead w) (membersAreRead members) h

end

/-! ## Trees out of tokens -/

/-- Wherever the reader gets to the end, the tokens begin with those of what is due. -/
structure Parses (kinds : List Lexeme.Kind) : Prop where
  value : ∀ stack v, stack.length < depthLimit → follow ⟨stack, .value⟩ kinds = some v →
    ∃ w rest, kinds = tokens w ++ rest
  items : ∀ done stack v, stack.length + 1 < depthLimit →
    follow ⟨.array done :: stack, .separator⟩ kinds = some v →
    ∃ items rest, kinds = moreItems items ++ rest
  members : ∀ done name stack v, stack.length + 1 < depthLimit →
    follow ⟨.object done name :: stack, .separator⟩ kinds = some v →
    ∃ members rest, kinds = moreMembers members ++ rest

section Parses

variable {kinds : List Lexeme.Kind} {stack : List Frame} {v : Json}

/-- An item and the rest of its array, out of tokens. -/
theorem exists_items {done : List Json}
    (ih : ∀ rest : List Lexeme.Kind, rest.length ≤ kinds.length → Parses rest)
    (hdepth : stack.length + 1 < depthLimit)
    (h : follow ⟨.array done :: stack, .value⟩ kinds = some v) :
    ∃ w items rest, kinds = tokens w ++ moreItems items ++ rest := by
  obtain ⟨w, rest, rfl⟩ := (ih _ (Nat.le_refl _)).value (.array done :: stack) v hdepth h
  rw [isRead w (.array done :: stack) _ hdepth] at h
  obtain ⟨-, h⟩ := Option.ite_none_right_eq_some.1 h
  obtain ⟨items, rest, rfl⟩ :=
    (ih rest (List.suffix_append w.tokens rest).length_le).items _ _ _ hdepth h
  exact ⟨w, items, rest, (List.append_assoc _ _ _).symm⟩

/-- A member without its name and the rest of its object, out of tokens. -/
theorem exists_members {done : List (String × Json)} {name : String}
    (ih : ∀ rest : List Lexeme.Kind, rest.length ≤ kinds.length → Parses rest)
    (hdepth : stack.length + 1 < depthLimit)
    (h : follow ⟨.object done name :: stack, .value⟩ kinds = some v) :
    ∃ w members rest, kinds = tokens w ++ moreMembers members ++ rest := by
  obtain ⟨w, rest, rfl⟩ := (ih _ (Nat.le_refl _)).value (.object done name :: stack) v hdepth h
  rw [isRead w (.object done name :: stack) _ hdepth] at h
  obtain ⟨-, h⟩ := Option.ite_none_right_eq_some.1 h
  obtain ⟨members, rest, rfl⟩ :=
    (ih rest (List.suffix_append w.tokens rest).length_le).members _ _ _ _ hdepth h
  exact ⟨w, members, rest, (List.append_assoc _ _ _).symm⟩

theorem firstItem_cases (h : follow ⟨stack, .firstItem⟩ kinds = some v) :
    (∃ rest, kinds = .closeArray :: rest) ∨ follow ⟨stack, .value⟩ kinds = some v := by
  rcases kinds with _ | ⟨kind, rest⟩
  · cases h
  · cases kind <;> first | exact .inl ⟨rest, rfl⟩ | exact .inr h

theorem value_of_nextItem (h : follow ⟨stack, .nextItem⟩ kinds = some v) :
    follow ⟨stack, .value⟩ kinds = some v := by
  rcases kinds with _ | ⟨kind, rest⟩
  · cases h
  · cases kind <;> exact h

theorem colon_of_follow (h : follow ⟨stack, .colon⟩ kinds = some v) :
    ∃ rest, kinds = .colon :: rest ∧ follow ⟨stack, .value⟩ rest = some v := by
  rcases kinds with _ | ⟨kind, rest⟩
  · cases h
  · cases kind <;> first | exact ⟨rest, rfl, h⟩ | cases h

/-- A member and the rest of its object, out of tokens. -/
theorem exists_named {done : List (String × Json)} {name : String}
    (ih : ∀ rest : List Lexeme.Kind, rest.length ≤ kinds.length → Parses rest)
    (hdepth : stack.length + 1 < depthLimit)
    (h : follow ⟨.object done name :: stack, .nextKey⟩ kinds = some v) :
    ∃ name w members rest,
      kinds = .text name :: .colon :: (tokens w ++ moreMembers members ++ rest) := by
  cases kinds with
  | nil => cases h
  | cons kind kinds =>
    cases kind with
    | text name =>
      have hcolon : follow ⟨.object done name :: stack, .colon⟩ kinds = some v := h
      obtain ⟨rest, rfl, h⟩ := colon_of_follow hcolon
      obtain ⟨w, members, rest, rfl⟩ :=
        exists_members (fun _ h => ih _ (Nat.le_add_right_of_le (k := 2) h)) hdepth h
      exact ⟨name, w, members, rest, rfl⟩
    | _ => cases h

theorem firstKey_cases {done : List (String × Json)} {name : String}
    (h : follow ⟨.object done name :: stack, .firstKey⟩ kinds = some v) :
    (∃ rest, kinds = .closeObject :: rest) ∨
      follow ⟨.object done name :: stack, .nextKey⟩ kinds = some v := by
  rcases kinds with _ | ⟨kind, rest⟩
  · cases h
  · cases kind <;> first | exact .inl ⟨rest, rfl⟩ | exact .inr h

section Step

variable {kind : Lexeme.Kind} (ih : ∀ rest : List Lexeme.Kind, rest.length ≤ kinds.length → Parses rest)
include ih

theorem exists_value (h : follow ⟨stack, .value⟩ (kind :: kinds) = some v) :
    ∃ w rest, kind :: kinds = tokens w ++ rest := by
  cases kind with
  | scalar v => exact ⟨.scalar v, kinds, rfl⟩
  | text s => exact ⟨.text s, kinds, rfl⟩
  | openArray =>
    rw [follow_openArray] at h
    obtain ⟨hdepth, h⟩ := Option.ite_none_right_eq_some.1 h
    obtain ⟨rest, rfl⟩ | h := firstItem_cases h
    · exact ⟨.array [], rest, rfl⟩
    · obtain ⟨w, items, rest, rfl⟩ := exists_items ih hdepth h
      exact ⟨.array (w :: items), rest, rfl⟩
  | openObject =>
    rw [follow_openObject] at h
    obtain ⟨hdepth, h⟩ := Option.ite_none_right_eq_some.1 h
    obtain ⟨rest, rfl⟩ | h := firstKey_cases h
    · exact ⟨.object [], rest, rfl⟩
    · obtain ⟨name, w, members, rest, rfl⟩ := exists_named ih hdepth h
      exact ⟨.object ((name, w) :: members), rest, rfl⟩
  | _ => cases h

theorem exists_moreItems {done : List Json} (hdepth : stack.length + 1 < depthLimit)
    (h : follow ⟨.array done :: stack, .separator⟩ (kind :: kinds) = some v) :
    ∃ items rest, kind :: kinds = moreItems items ++ rest := by
  cases kind with
  | closeArray => exact ⟨[], kinds, rfl⟩
  | comma =>
    obtain ⟨w, items, rest, rfl⟩ := exists_items ih hdepth (value_of_nextItem h)
    exact ⟨w :: items, rest, rfl⟩
  | _ => cases h

theorem exists_moreMembers {done : List (String × Json)} {name : String}
    (hdepth : stack.length + 1 < depthLimit)
    (h : follow ⟨.object done name :: stack, .separator⟩ (kind :: kinds) = some v) :
    ∃ members rest, kind :: kinds = moreMembers members ++ rest := by
  cases kind with
  | closeObject => exact ⟨[], kinds, rfl⟩
  | comma =>
    have hkey : follow ⟨.object done name :: stack, .nextKey⟩ kinds = some v := h
    obtain ⟨name, w, members, rest, rfl⟩ := exists_named ih hdepth hkey
    exact ⟨(name, w) :: members, rest, rfl⟩
  | _ => cases h

end Step

/-- **What the reader takes was written.** -/
theorem parses (kinds : List Lexeme.Kind) : Parses kinds := by
  -- on the length, for what is left behind a document is shorter by more than one token
  induction hn : kinds.length using Nat.strongRecOn generalizing kinds with
  | ind n ih =>
    subst hn
    cases kinds with
    | nil => exact ⟨fun _ _ _ => nofun, fun _ _ _ _ => nofun, fun _ _ _ _ _ => nofun⟩
    | cons kind kinds =>
      have ih (rest : List Lexeme.Kind) (h : rest.length ≤ kinds.length) : Parses rest :=
        ih _ (Nat.lt_succ_of_le h) _ rfl
      exact ⟨fun _ _ _ => exists_value ih, fun _ _ _ => exists_moreItems ih,
        fun _ _ _ _ => exists_moreMembers ih⟩

end Parses

/-! ## Texts -/

theorem not_isScalar_moreItems (items : List Written) (rest : List Lexeme.Kind) :
    ∀ kind ∈ (moreItems items ++ rest).head?, ¬ kind.IsScalar := by
  cases items <;> rintro _ ⟨⟩ <;> exact id

theorem not_isScalar_moreMembers (members : List (String × Written)) (rest : List Lexeme.Kind) :
    ∀ kind ∈ (moreMembers members ++ rest).head?, ¬ kind.IsScalar := by
  rcases members with _ | ⟨⟨_, _⟩, _⟩ <;> rintro _ ⟨⟩ <;> exact id

mutual

/-- The tokens of a document are told apart: marks stand between its scalars. -/
theorem parted_tokens : ∀ (w : Written) {rest : List Lexeme.Kind}, Parted rest →
    (∀ kind ∈ rest.head?, ¬ kind.IsScalar) → Parted (w.tokens ++ rest)
  | .scalar _, _, h, hhead => ⟨trivial, fun _ => hhead, h⟩
  | .text _, _, h, _ => ⟨trivial, False.elim, h⟩
  | .array [], _, h, _ => ⟨trivial, False.elim, trivial, False.elim, h⟩
  | .array (w :: items), _, h, _ => by
    rw [tokens, List.cons_append, List.append_assoc]
    exact ⟨trivial, False.elim,
      parted_tokens w (parted_moreItems items h) (not_isScalar_moreItems items _)⟩
  | .object [], _, h, _ => ⟨trivial, False.elim, trivial, False.elim, h⟩
  | .object ((_, w) :: members), _, h, _ => by
    rw [tokens, List.cons_append, List.cons_append, List.cons_append, List.append_assoc]
    exact ⟨trivial, False.elim, trivial, False.elim, trivial, False.elim,
      parted_tokens w (parted_moreMembers members h) (not_isScalar_moreMembers members _)⟩

theorem parted_moreItems : ∀ (items : List Written) {rest : List Lexeme.Kind}, Parted rest →
    Parted (moreItems items ++ rest)
  | [], _, h => ⟨trivial, False.elim, h⟩
  | w :: items, _, h => by
    rw [moreItems, List.cons_append, List.append_assoc]
    exact ⟨trivial, False.elim,
      parted_tokens w (parted_moreItems items h) (not_isScalar_moreItems items _)⟩

theorem parted_moreMembers : ∀ (members : List (String × Written)) {rest : List Lexeme.Kind}, Parted rest →
    Parted (moreMembers members ++ rest)
  | [], _, h => ⟨trivial, False.elim, h⟩
  | (_, w) :: members, _, h => by
    rw [moreMembers, List.cons_append, List.cons_append, List.cons_append, List.append_assoc]
    exact ⟨trivial, False.elim, trivial, False.elim, trivial, False.elim,
      parted_tokens w (parted_moreMembers members h) (not_isScalar_moreMembers members _)⟩

end

/-- **A text spells a document if its lexemes are the tokens of the document**, and only then. -/
theorem spells_iff {w : Written} {s : String} : w.Spells s ↔ Lexeme.kinds 0 s.toList = w.tokens := by
  have hparted : Parted (w.tokens ++ []) := w.parted_tokens trivial fun _ => nofun
  rw [List.append_nil] at hparted
  exact Lexeme.spaced_iff hparted 0

end Written

theorem toOption_read (s : String) :
    (read s).toOption = Reader.follow ⟨[], .value⟩ (Lexeme.kinds 0 s.toList) := by
  rw [Lexeme.kinds, ← Reader.toOption_run s.utf8ByteSize, read]
  cases Reader.run s.utf8ByteSize ⟨[], .value⟩ (Lexeme.lexemes 0 s.toList) <;> rfl

theorem read_eq_ok_iff_toOption {s : String} {v : Json} :
    read s = .ok v ↔ (read s).toOption = some v := by
  cases read s <;> simp [Except.toOption]

namespace Written

/-- What is read of a text that spells a document. -/
theorem toOption_read_of_spells {w : Written} {s : String} (h : w.Spells s) :
    (read s).toOption = if w.depth < Reader.depthLimit then some w.value else none := by
  have hread := isRead w [] [] (by decide)
  rw [List.append_nil, List.length_nil, Nat.zero_add] at hread
  rw [toOption_read, spells_iff.1 h, hread]
  rfl

end Written

/-- **A text reads as a value if it spells a document with this value that is not too deep, and only
then.** -/
theorem read_eq_ok_iff {s : String} {v : Json} :
    read s = .ok v ↔ ∃ w : Written, w.Spells s ∧ w.depth < Reader.depthLimit ∧ w.value = v := by
  rw [read_eq_ok_iff_toOption]
  constructor
  · intro h
    rw [toOption_read] at h
    obtain ⟨w, rest, hkinds⟩ := (Written.parses _).value [] v (by decide) h
    rw [hkinds, Written.isRead w [] rest (by decide), Option.ite_none_right_eq_some, List.length_nil,
      Nat.zero_add] at h
    obtain ⟨hdepth, hrest⟩ := h
    -- after the whole value nothing is due
    cases rest with
    | cons kind rest => cases hrest
    | nil =>
      rw [List.append_nil] at hkinds
      exact ⟨w, Written.spells_iff.2 hkinds, hdepth, Option.some.inj hrest⟩
  · rintro ⟨w, hw, hdepth, rfl⟩
    rw [Written.toOption_read_of_spells hw, if_pos hdepth]

/-! ## The order of members -/

theorem ofMembers_eq (l : List (String × Json)) :
    ofMembers l = .object (Roster.ofList l : Roster Prod.fst).toList :=
  congrArg Json.object (Roster.toList_insertAll .empty l).symm

/-- The order in which members are given is not part of the value, but for those with one name. -/
theorem ofMembers_perm {l m : List (String × Json)} (h : l.Perm m) (hnames : (l.map Prod.fst).Nodup) :
    ofMembers l = ofMembers m := by
  rw [ofMembers_eq, ofMembers_eq, Roster.ofList_perm h hnames]

namespace Written

theorem memberValues_eq_map (members : List (String × Written)) :
    memberValues members = members.map fun m => (m.1, m.2.value) := by
  induction members with
  | nil => rfl
  | cons m members ih => rw [memberValues, ih, List.map_cons]

theorem names_memberValues (members : List (String × Written)) :
    (memberValues members).map Prod.fst = members.map Prod.fst := by
  rw [memberValues_eq_map, List.map_map]
  rfl

theorem depthOfMembers_perm {a b : List (String × Written)} (h : a.Perm b) :
    depthOfMembers a = depthOfMembers b := by
  induction h with
  | nil => rfl
  | cons m _ ih => rw [depthOfMembers, depthOfMembers, ih]
  | swap m n a =>
    simp only [depthOfMembers]
    omega
  | trans _ _ ih ih' => exact ih.trans ih'

mutual

theorem depth_of_reordered : ∀ {v w : Written}, v.Reordered w → v.depth = w.depth
  | _, _, .scalar _ => rfl
  | _, _, .text _ => rfl
  | _, _, .array h => by rw [depth, depth, depthOfItems_of_reordered h]
  | _, _, .object h hperm => by
    rw [depth, depth, depthOfMembers_of_reordered h, depthOfMembers_perm hperm]

theorem depthOfItems_of_reordered : ∀ {a b : List Written}, ReorderedItems a b →
    depthOfItems a = depthOfItems b
  | _, _, .nil => rfl
  | _, _, .cons h rest => by
    rw [depthOfItems, depthOfItems, depth_of_reordered h, depthOfItems_of_reordered rest]

theorem depthOfMembers_of_reordered : ∀ {a b : List (String × Written)}, ReorderedMembers a b →
    depthOfMembers a = depthOfMembers b
  | _, _, .nil => rfl
  | _, _, .cons _ h rest => by
    rw [depthOfMembers, depthOfMembers, depth_of_reordered h, depthOfMembers_of_reordered rest]

end

mutual

/-- **Reordering keeps the value**, where no name is given twice. -/
theorem value_of_reordered : ∀ {v w : Written}, v.Reordered w → v.DistinctNames → v.value = w.value
  | _, _, .scalar _, _ => rfl
  | _, _, .text _, _ => rfl
  | _, _, .array h, hnames => by rw [value, value, values_of_reordered h hnames]
  | _, _, .object (a := a) (b := b) h hperm, hnames => by
    have hvalues := memberValues_of_reordered h hnames.2
    have hdistinct : ((memberValues b).map Prod.fst).Nodup := by
      rw [← hvalues, names_memberValues]
      exact hnames.1
    rw [value, value, hvalues]
    refine ofMembers_perm ?_ hdistinct
    rw [memberValues_eq_map, memberValues_eq_map]
    exact hperm.map _

theorem values_of_reordered : ∀ {a b : List Written}, ReorderedItems a b → DistinctInItems a →
    values a = values b
  | _, _, .nil, _ => rfl
  | _, _, .cons h rest, hnames => by
    rw [values, values, value_of_reordered h hnames.1, values_of_reordered rest hnames.2]

theorem memberValues_of_reordered : ∀ {a b : List (String × Written)}, ReorderedMembers a b →
    DistinctInMembers a → memberValues a = memberValues b
  | _, _, .nil, _ => rfl
  | _, _, .cons _ h rest, hnames => by
    rw [memberValues, memberValues, value_of_reordered h hnames.1,
      memberValues_of_reordered rest hnames.2]

end

/-- **A document is read alike from all its texts**, in whatever order the members of its objects come. -/
theorem read_of_reordered {w w' : Written} {s s' : String} {v : Json} (h : read s = .ok v)
    (hw : w.Spells s) (hnames : w.DistinctNames) (hreordered : w.Reordered w') (hw' : w'.Spells s') :
    read s' = .ok v := by
  rw [read_eq_ok_iff_toOption, toOption_read_of_spells hw] at h
  rw [read_eq_ok_iff_toOption, toOption_read_of_spells hw', ← depth_of_reordered hreordered,
    ← value_of_reordered hreordered hnames, h]

end Written

end ShareKeeper.Json
