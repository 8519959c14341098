import ShareKeeper.Tag.Change

/-!
# Deltas

A delta lists the fields in which two snapshots differ, each with its path and both values. It is
built from one comparison per field; every comparison yields the delta of its field alone.

Paths are names between points. A path is *different* in a delta if the delta lists it or a path
below it.
-/

namespace ShareKeeper

/-- One field that differs. -/
structure Difference where
  path : String
  a : Json
  b : Json
  deriving Repr

structure Delta where
  differences : List Difference
  deriving Repr

namespace Delta

def empty : Delta := ⟨[]⟩

def isEmpty (d : Delta) : Bool := d.differences.isEmpty

/-- The paths, in the order in which they were found. -/
def paths (d : Delta) : List String := d.differences.map Difference.path

/-- One delta after another. -/
def append (d e : Delta) : Delta := ⟨d.differences ++ e.differences⟩

instance : Append Delta := ⟨append⟩

/-- The delta of one field. -/
def single (path : String) (a b : Json) : Delta := ⟨[⟨path, a, b⟩]⟩

/-! ## Paths -/

/-- Whether `path` lies at or below `top`. -/
def isUnder (top path : String) : Bool :=
  path = top || (top.toList ++ ['.']).isPrefixOf path.toList

/-- Whether the field at a path, or one below it, differs. -/
def differentAt (d : Delta) (path : String) : Bool :=
  d.differences.any (fun x => isUnder path x.path)

/-! ## Comparisons -/

/-- Differs unless the values are the same. -/
def ofField (same : Bool) (path : String) (a b : Json) : Delta :=
  if same then empty else single path a b

/-- Compares texts. -/
def texts (path a b : String) : Delta := ofField (a = b) path (.string a) (.string b)

/-- Compares values that may be absent; absence on one side only is a difference. -/
def optionals {α : Type} (same : α → α → Bool) (encode : α → Json) (path : String)
    (a b : Option α) : Delta :=
  let same :=
    match a, b with
    | some x, some y => same x y
    | none, none => true
    | _, _ => false
  ofField same path (.ofOption encode a) (.ofOption encode b)

/-- Compares lists of documents, in their order. -/
def sequences (path : String) (a b : List Json) : Delta :=
  ofField (Json.sameItems a b) path (.array a) (.array b)

/-- Compares lists of identifiers as sets. -/
def nameSets (path : String) (a b : List String) : Delta :=
  ofField (NameSet.sameElements a b) path (.ofStrings a) (.ofStrings b)

/-- Compares tags: they differ in number, or there is a change to make. -/
def tags (path : String) (a b : List Tag) : Delta :=
  ofField (a.length = b.length && (a.isEmpty || (Tags.change a b).isEmpty)) path
    (.array (a.map Tag.encode)) (.array (b.map Tag.encode))

/-- The path of a difference between a whole snapshot and none. -/
def wholePath : String := ""

/-- Both snapshots if both are there; otherwise the delta, which names the whole if one is missing.
-/
def start {α : Type} (encode : α → Json) : Option α → Option α → Except Delta (α × α)
  | some a, some b => .ok (a, b)
  | none, none => .error empty
  | a, b => .error (single wholePath (.ofOption encode a) (.ofOption encode b))

end Delta

end ShareKeeper
