import ShareKeeper.Binary64
import ShareKeeper.Roster

/-!
# JSON values

A JSON value as the controller compares and stores it. A number is an integer or a double, and the
two are never equal. An object lists its members in ascending order of their names, each name once,
so that neither the order nor the repetition of members in a text is part of the value.

`Json.same` is the comparison of documents: it walks both values together, and it is an equivalence
relation (`same_refl`, `same_symm`, `same_trans`).
-/

namespace ShareKeeper

inductive Json.Number where
  | int (i : Int)
  | double (x : Binary64)
  deriving DecidableEq, Repr, Inhabited

inductive Json where
  | null
  | bool (b : Bool)
  | number (n : Json.Number)
  | string (s : String)
  | array (items : List Json)
  | object (members : List (String × Json))
  deriving Repr, Inhabited

namespace Json

/-! ## Comparison -/

/-- Equal integers, or doubles of the same value. -/
def Number.same : Number → Number → Bool
  | .int i, .int j => i = j
  | .double x, .double y => x.same y
  | _, _ => false

mutual

/-- Whether two values are the same document. -/
def same : Json → Json → Bool
  | .null, .null => true
  | .bool a, .bool b => a = b
  | .number m, .number n => m.same n
  | .string s, .string t => s = t
  | .array a, .array b => sameItems a b
  | .object a, .object b => sameMembers a b
  | _, _ => false

/-- Whether two lists hold the same documents in the same order. -/
def sameItems : List Json → List Json → Bool
  | [], [] => true
  | a :: as, b :: bs => same a b && sameItems as bs
  | _, _ => false

/-- Whether two lists hold the same documents under the same names. -/
def sameMembers : List (String × Json) → List (String × Json) → Bool
  | [], [] => true
  | (k, a) :: as, (j, b) :: bs => k = j && same a b && sameMembers as bs
  | _, _ => false

end

theorem Number.same_refl (n : Number) : n.same n = true := by
  cases n <;> simp [Number.same, Binary64.same_refl]

theorem Number.same_symm {m n : Number} (h : m.same n = true) : n.same m = true := by
  cases m <;> cases n <;> simp_all [Number.same]
  exact Binary64.same_symm h

theorem Number.same_trans {m n o : Number} (h : m.same n = true) (h' : n.same o = true) :
    m.same o = true := by
  cases m <;> cases n <;> cases o <;> simp_all [Number.same]
  exact Binary64.same_trans h h'

mutual

theorem same_refl : ∀ a : Json, a.same a = true
  | .null => rfl
  | .bool _ => by simp [same]
  | .number n => by simp [same, Number.same_refl]
  | .string _ => by simp [same]
  | .array items => by simp [same, sameItems_refl items]
  | .object members => by simp [same, sameMembers_refl members]

theorem sameItems_refl : ∀ a : List Json, sameItems a a = true
  | [] => rfl
  | a :: as => by simp [sameItems, same_refl a, sameItems_refl as]

theorem sameMembers_refl : ∀ a : List (String × Json), sameMembers a a = true
  | [] => rfl
  | (_, a) :: as => by simp [sameMembers, same_refl a, sameMembers_refl as]

end

mutual

theorem same_symm : ∀ {a b : Json}, a.same b = true → b.same a = true
  | .null, b, h => by cases b <;> simp_all [same]
  | .bool _, b, h => by cases b <;> simp_all [same]
  | .number _, .number _, h => by simpa [same] using Number.same_symm (by simpa [same] using h)
  | .string _, b, h => by cases b <;> simp_all [same]
  | .array _, .array _, h => by simpa [same] using sameItems_symm (by simpa [same] using h)
  | .object _, .object _, h => by simpa [same] using sameMembers_symm (by simpa [same] using h)

theorem sameItems_symm : ∀ {a b : List Json}, sameItems a b = true → sameItems b a = true
  | [], [], _ => rfl
  | a :: as, b :: bs, h => by
    simp only [sameItems, Bool.and_eq_true] at h ⊢
    exact ⟨same_symm h.1, sameItems_symm h.2⟩

theorem sameMembers_symm : ∀ {a b : List (String × Json)},
    sameMembers a b = true → sameMembers b a = true
  | [], [], _ => rfl
  | (_, a) :: as, (_, b) :: bs, h => by
    simp only [sameMembers, Bool.and_eq_true, decide_eq_true_eq] at h ⊢
    exact ⟨⟨h.1.1.symm, same_symm h.1.2⟩, sameMembers_symm h.2⟩

end

mutual

theorem same_trans : ∀ {a b c : Json}, a.same b = true → b.same c = true → a.same c = true
  | .null, .null, c, _, h' => h'
  | .bool _, .bool _, c, h, h' => by cases c <;> simp_all [same]
  | .number _, .number _, .number _, h, h' => by
    simpa [same] using Number.same_trans (by simpa [same] using h) (by simpa [same] using h')
  | .string _, .string _, c, h, h' => by cases c <;> simp_all [same]
  | .array _, .array _, .array _, h, h' => by
    simpa [same] using sameItems_trans (by simpa [same] using h) (by simpa [same] using h')
  | .object _, .object _, .object _, h, h' => by
    simpa [same] using sameMembers_trans (by simpa [same] using h) (by simpa [same] using h')

theorem sameItems_trans : ∀ {a b c : List Json},
    sameItems a b = true → sameItems b c = true → sameItems a c = true
  | [], [], _, _, h' => h'
  | a :: as, b :: bs, c :: cs, h, h' => by
    simp only [sameItems, Bool.and_eq_true] at h h' ⊢
    exact ⟨same_trans h.1 h'.1, sameItems_trans h.2 h'.2⟩

theorem sameMembers_trans : ∀ {a b c : List (String × Json)},
    sameMembers a b = true → sameMembers b c = true → sameMembers a c = true
  | [], [], _, _, h' => h'
  | (_, a) :: as, (_, b) :: bs, (_, c) :: cs, h, h' => by
    simp only [sameMembers, Bool.and_eq_true, decide_eq_true_eq] at h h' ⊢
    exact ⟨⟨h.1.1.trans h'.1.1, same_trans h.1.2 h'.1.2⟩, sameMembers_trans h.2 h'.2⟩

end

/-! ## Objects -/

/-- The object with the given members; of two with one name the later stays. -/
def ofMembers (members : List (String × Json)) : Json :=
  .object (members.foldl (fun done m => insertByKey Prod.fst m done) [])

/-- The value under a name in a member list. -/
def lookup (name : String) : List (String × Json) → Option Json
  | [] => none
  | (k, v) :: rest => if k = name then some v else lookup name rest

/-- The members of an object; other values have none. -/
def members : Json → List (String × Json)
  | .object ms => ms
  | _ => []

/-- The value under a name, if this is an object that has one. -/
def member? (name : String) (j : Json) : Option Json := lookup name j.members

/-- Sets one member of an object; other values become an object with that member. -/
def setMember (j : Json) (name : String) (v : Json) : Json :=
  .object (insertByKey Prod.fst (name, v) j.members)

/-- An integer. -/
def ofInt (i : Int) : Json := .number (.int i)

/-- A value or null. -/
def ofOption {α : Type} (f : α → Json) : Option α → Json
  | none => .null
  | some a => f a

/-- A list of texts. -/
def ofStrings (l : List String) : Json := .array (l.map .string)

/-- A time, as its text. -/
def ofTime {T : Type} [ToString T] (t : T) : Json := .string (toString t)

end Json

end ShareKeeper
