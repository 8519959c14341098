import ShareKeeper.Json.Decode
import ShareKeeper.Roster

/-!
# Tags

A tag is a key and a value; a tag map holds at most one tag for each key.

Two classes of keys are out of the user's hands. Keys with the prefix `aws:` are *reserved*: the
service manages them and refuses to change them. The keys that the controller attaches itself are,
together with the reserved ones, the *system* keys.
-/

namespace ShareKeeper

structure Tag where
  key : String
  value : String
  deriving DecidableEq, Repr, Inhabited

/-- Tags by their keys. -/
abbrev Tags := Roster Tag.key

namespace Tag

/-! ## Classes of keys -/

def namespaceKey : String := "services.k8s.aws/namespace"

def controllerVersionKey : String := "services.k8s.aws/controller-version"

/-- The version that the controller puts into its own tag. -/
def controllerVersion : String := "0.1.0"

def isReserved (key : String) : Bool := "aws:".toList.isPrefixOf key.toList

def isSystem (key : String) : Bool :=
  isReserved key || key = namespaceKey || key = controllerVersionKey

theorem isSystem_of_isReserved {key : String} (h : isReserved key = true) : isSystem key = true := by
  simp [isSystem, h]

/-! ## JSON -/

def encode (t : Tag) : Json := .object [("key", .string t.key), ("value", .string t.value)]

/-- A tag; a missing value is the empty text. -/
def decode : Json → Except DecodeFault Tag :=
  Json.asStructure "Tag" 2
    (fun ms => do
      let key ← Json.field "key" Json.asText ms
      let value ← Json.field "value" Json.asText ms
      let key ← Json.require "key" key
      return ⟨key, value.getD ""⟩)
    (fun e => do
      let key ← e.get 0 Json.asText
      let value ← e.getD 1 Json.asText ""
      return ⟨key, value⟩)

theorem decode_encode (t : Tag) : decode t.encode = .ok t := rfl

end Tag

namespace Tags

/-! ## Operations on tag maps -/

/-- The map of a list of tags; of two with one key the later counts. -/
def ofTags (l : List Tag) : Tags := Roster.ofList l

/-- Without the system keys. -/
def withoutSystem (m : Tags) : Tags := m.filter (fun t => !Tag.isSystem t.key)

/-- With every reserved tag that is observed. -/
def withReserved (desired observed : Tags) : Tags :=
  desired.union (observed.filter (fun t => Tag.isReserved t.key))

/-- The tags that the controller attaches to an entity it creates for an object in a namespace. -/
def system (namespace' : String) : Tags :=
  ofTags [⟨Tag.namespaceKey, namespace'⟩, ⟨Tag.controllerVersionKey, Tag.controllerVersion⟩]

theorem find?_withoutSystem (m : Tags) (k : String) :
    m.withoutSystem.find? k = (m.find? k).filter (fun t => !Tag.isSystem t.key) :=
  Roster.find?_filter m _ k

end Tags

end ShareKeeper
