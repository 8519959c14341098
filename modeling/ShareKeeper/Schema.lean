import ShareKeeper.Json

/-!
# Schemas

What the values of a field may be, as an API server checks it, and the JSON document that says so.
-/

namespace ShareKeeper

inductive Schema where
  | text
  | truth
  /-- A text that is a time. -/
  | time
  | word (choices : List String)
  | list (items : Schema)
  /-- An object with some fields, of which the `required` ones must be there. -/
  | record (fields : List (String × Schema)) (required : List String)
  | titled (title : String) (s : Schema)
  | described (description : String) (s : Schema)
  /-- Null is let in too. -/
  | nullable (s : Schema)
  /-- The value where none is given. -/
  | withDefault (value : Json) (s : Schema)

namespace Schema

def typeName (name : String) : List (String × Json) := [("type", .string name)]

mutual

/-- The members of a schema's document. -/
def members : Schema → List (String × Json)
  | .text => typeName "string"
  | .truth => typeName "boolean"
  | .time => ("format", .string "date-time") :: typeName "string"
  | .word choices => ("enum", Json.ofStrings choices) :: typeName "string"
  | .list items => ("items", Json.ofMembers items.members) :: typeName "array"
  | .record fields required =>
    ("properties", Json.ofMembers (properties fields))
      :: (if required.isEmpty then [] else [("required", Json.ofStrings required)]) ++ typeName "object"
  | .titled title s => ("title", .string title) :: s.members
  | .described description s => ("description", .string description) :: s.members
  | .nullable s => ("nullable", .bool true) :: s.members
  | .withDefault value s => ("default", value) :: s.members

/-- The documents of fields under their names. -/
def properties : List (String × Schema) → List (String × Json)
  | [] => []
  | (name, s) :: rest => (name, Json.ofMembers s.members) :: properties rest

end

def encode (s : Schema) : Json := Json.ofMembers s.members

end Schema

end ShareKeeper
