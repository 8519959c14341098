import ShareKeeper.Json.Writer
import ShareKeeper.Text.Quoted
import ShareKeeper.Time.Reader

/-!
# Decoding values of the domain

How texts, lists, maps and structures are read out of a JSON value, and what is said of a value that
does not fit. Null stands for an absent optional value and for nothing else.

## Structures

A structure is read from an object or, in the order in which its fields are declared, from a list.
In an object the members are looked at in ascending order of their names, so the first one that does
not fit decides the fault, and required fields that are missing are noticed after that, in the order
of declaration. Unknown members are passed over. A list that is too short or too long is refused
after its elements have been read.
-/

namespace ShareKeeper

/-! ## Faults -/

/-- What was found where something else was expected. -/
inductive Found where
  | null
  | boolean (b : Bool)
  | integer (i : Int)
  | double (x : Binary64)
  | text (s : String)
  | sequence
  | map
  deriving DecidableEq, Repr

def Found.message : Found → String
  | .null => "null"
  | .boolean b => "boolean `" ++ (if b then "true" else "false") ++ "`"
  | .integer i => "integer `" ++ toString i ++ "`"
  | .double x => "floating point `" ++ Json.doubleLayout.render x ++ "`"
  | .text s => "string " ++ Text.quote s
  | .sequence => "sequence"
  | .map => "map"

def Found.ofJson : Json → Found
  | .null => .null
  | .bool b => .boolean b
  | .number (.int i) => .integer i
  | .number (.double x) => .double x
  | .string s => .text s
  | .array _ => .sequence
  | .object _ => .map

/-- Why a JSON value does not decode. -/
inductive DecodeFault where
  | unexpected (found : Found) (expected : String)
  /-- An integer beyond 64 bits with a sign. -/
  | integerRange (i : Int)
  /-- An object with other than one member in the place of a name. -/
  | notSingleKey
  /-- A list that ends before a field of a structure. -/
  | tooShort (length : Nat) (name : String) (fields : Nat)
  | tooLong (length : Nat)
  | missing (field : String)
  | unknownVariant (name : String) (known : List String)
  | instant (fault : Instant.Fault)
  deriving DecidableEq, Repr

/-- A name between backticks. -/
def ticked (name : String) : String := "`" ++ name ++ "`"

def DecodeFault.message : DecodeFault → String
  | .unexpected found expected => "invalid type: " ++ found.message ++ ", expected " ++ expected
  | .integerRange i => "invalid value: " ++ (Found.integer i).message ++ ", expected i64"
  | .notSingleKey => "invalid value: map, expected map with a single key"
  | .tooShort n name fields =>
    "invalid length " ++ toString n ++ ", expected struct " ++ name ++ " with " ++ toString fields
      ++ " elements"
  | .tooLong n => "invalid length " ++ toString n ++ ", expected fewer elements in array"
  | .missing field => "missing field " ++ ticked field
  | .unknownVariant name known =>
    "unknown variant " ++ ticked name ++ ", expected one of " ++ ", ".intercalate (known.map ticked)
  | .instant fault => fault.message

namespace Json

/-- Refuses a value for what it is. -/
def mismatch {α : Type} (expected : String) (j : Json) : Except DecodeFault α :=
  .error (.unexpected (.ofJson j) expected)

/-! ## Plain values -/

def asText : Json → Except DecodeFault String
  | .string s => .ok s
  | j => mismatch "a string" j

def asBool : Json → Except DecodeFault Bool
  | .bool b => .ok b
  | j => mismatch "a boolean" j

/-- An integer of 64 bits with a sign. -/
def asInt64 : Json → Except DecodeFault Int
  | .number (.int i) =>
    if -9223372036854775808 ≤ i ∧ i < 9223372036854775808 then .ok i else .error (.integerRange i)
  | j => mismatch "i64" j

def asInstant : Json → Except DecodeFault Instant
  | .string s => (Instant.read s).mapError .instant
  | j => mismatch "an RFC 3339 formatted date and time string" j

/-- An optional value: null stands for none. -/
def asOption {α : Type} (read : Json → Except DecodeFault α) : Json → Except DecodeFault (Option α)
  | .null => .ok none
  | j => (read j).map some

/-- The values of a list, from the left. -/
def readItems {α : Type} (read : Json → Except DecodeFault α) :
    List Json → Except DecodeFault (List α)
  | [] => .ok []
  | j :: rest => do
    let a ← read j
    let as ← readItems read rest
    return a :: as

def asList {α : Type} (read : Json → Except DecodeFault α) : Json → Except DecodeFault (List α)
  | .array items => readItems read items
  | j => mismatch "a sequence" j

/-- The texts under the names of an object. -/
def readTexts : List (String × Json) → Except DecodeFault (List (String × String))
  | [] => .ok []
  | (k, j) :: rest => do
    let s ← asText j
    let ss ← readTexts rest
    return (k, s) :: ss

def asTexts : Json → Except DecodeFault (List (String × String))
  | .object ms => readTexts ms
  | j => mismatch "a map" j

/-- One of some names, given as a text or as the only member of an object, with null under it. -/
def asVariant {α : Type} (known : List (String × α)) (j : Json) : Except DecodeFault α :=
  let find (name : String) : Except DecodeFault α :=
    match known.find? (fun v => v.1 = name) with
    | some v => .ok v.2
    | none => .error (.unknownVariant name (known.map Prod.fst))
  match j with
  | .string s => find s
  | .object [(name, body)] => do
    let a ← find name
    match body with
    | .null => return a
    | body => mismatch "unit" body
  | .object _ => .error .notSingleKey
  | j => mismatch "string or map" j

/-! ## Fields of structures -/

/-- The member under a name, if there is one. -/
def field {α : Type} (name : String) (read : Json → Except DecodeFault α)
    (members : List (String × Json)) : Except DecodeFault (Option α) :=
  match lookup name members with
  | none => .ok none
  | some j => (read j).map some

/-- An optional member: absent and null are alike. -/
def optional {α : Type} (name : String) (read : Json → Except DecodeFault α)
    (members : List (String × Json)) : Except DecodeFault (Option α) :=
  (field name (asOption read) members).map Option.join

/-- Insists on a member. -/
def require {α : Type} (name : String) : Option α → Except DecodeFault α
  | some a => .ok a
  | none => .error (.missing name)

/-- The fields of a structure that is given as a list. -/
structure Elements where
  name : String
  fields : Nat
  items : List Json

/-- The element at a position, which must be there. -/
def Elements.get {α : Type} (e : Elements) (index : Nat) (read : Json → Except DecodeFault α) :
    Except DecodeFault α :=
  match e.items[index]? with
  | some j => read j
  | none => .error (.tooShort index e.name e.fields)

/-- The element at a position, or a value for want of it. -/
def Elements.getD {α : Type} (e : Elements) (index : Nat) (read : Json → Except DecodeFault α)
    (default : α) : Except DecodeFault α :=
  match e.items[index]? with
  | some j => read j
  | none => .ok default

/-- Refuses elements beyond the fields. -/
def Elements.finish (e : Elements) : Except DecodeFault Unit :=
  if e.fields < e.items.length then .error (.tooLong e.items.length) else .ok ()

/-- A structure, from its members or from its elements. -/
def asStructure {α : Type} (name : String) (fields : Nat)
    (ofMembers : List (String × Json) → Except DecodeFault α)
    (ofElements : Elements → Except DecodeFault α) : Json → Except DecodeFault α
  | .object members => ofMembers members
  | .array items => do
    let e : Elements := ⟨name, fields, items⟩
    let a ← ofElements e
    e.finish
    return a
  | j => mismatch ("struct " ++ name) j

/-! ## Members to be written -/

/-- A member that is always written. -/
def must (name : String) (v : Json) : List (String × Json) := [(name, v)]

/-- A member that is written if there is a value. -/
def may {α : Type} (name : String) (f : α → Json) : Option α → List (String × Json)
  | some a => [(name, f a)]
  | none => []

/-- A list that is written if it has items. -/
def mayList {α : Type} (name : String) (f : α → Json) : List α → List (String × Json)
  | [] => []
  | items => [(name, .array (items.map f))]

/-! ### Reading back what was written -/

@[simp] theorem lookup_must (name : String) (v : Json) (rest : List (String × Json)) (k : String) :
    lookup k (must name v ++ rest) = if name = k then some v else lookup k rest := rfl

@[simp] theorem lookup_may {α : Type} (name : String) (f : α → Json) (o : Option α)
    (rest : List (String × Json)) (k : String) :
    lookup k (may name f o ++ rest)
      = if name = k then (o.map f).or (lookup k rest) else lookup k rest := by
  cases o <;> simp [may, lookup]

@[simp] theorem lookup_mayList {α : Type} (name : String) (f : α → Json) (l : List α)
    (rest : List (String × Json)) (k : String) :
    lookup k (mayList name f l ++ rest)
      = if name = k then (if l.isEmpty then lookup k rest else some (.array (l.map f)))
        else lookup k rest := by
  cases l <;> simp [mayList, lookup]

/-- **A list whose items read back reads back.** -/
theorem readItems_map {α : Type} {read : Json → Except DecodeFault α} {f : α → Json}
    (h : ∀ a, read (f a) = .ok a) (l : List α) : readItems read (l.map f) = .ok l := by
  induction l with
  | nil => rfl
  | cons a l ih => simp only [List.map_cons, readItems, h, ih]; rfl

end Json

end ShareKeeper
