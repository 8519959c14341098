import ShareKeeper.Json.Writer

/-!
# Writing YAML

A document in block style, two columns a level. The items of a list stand under the column of its
name. Empty lists and empty objects, and everything that has no members, stand on the line of their
name.

A text stands as it is where it reads as itself, and else in single quotes. Several lines become a
literal block. A text with characters that neither form can hold is written as in JSON, which is
YAML too.
-/

namespace ShareKeeper.Yaml

/-! ## Texts -/

/-- Words that a reader may take for a truth value or for nothing, in small letters. -/
def reservedWords : List String :=
  ["", "~", "null", "true", "false", "yes", "no", "on", "off", "y", "n", ".nan", ".inf", "-.inf",
   "+.inf"]

/-- Characters that mean something at the start of a text. -/
def indicators : List Char :=
  [',', '[', ']', '\x7b', '\x7d', '#', '&', '*', '!', '|', '>', '\'', '"', '%', '@', '\x60']

/-- Characters that mean something at the start of a text when a blank or nothing comes after them.
-/
def looseIndicators : List Char := ['-', '?', ':']

def isPrintable (c : Char) : Bool := ' ' ≤ c && c ≠ '\x7f'

/-- Whether a `:` before a blank or at the end, or a `#` after a blank, ends a text that begins with
these characters. -/
def isBroken : List Char → Bool
  | [] => false
  | [c] => c = ':' || c = ' '
  | c :: d :: rest => (c = ':' && d = ' ') || (c = ' ' && d = '#') || isBroken (d :: rest)

/-- Whether a text would be read as a number. -/
def isNumeral (s : String) : Bool :=
  match s.toList with
  | [] => false
  | c :: rest =>
    let digits := if c = '-' || c = '+' then rest else c :: rest
    match digits with
    | [] => false
    | '.' :: d :: _ => d.isDigit
    | d :: _ => d.isDigit && digits.all fun d => d.isAlphanum || d ∈ ['.', '_', '-', '+']

/-- Whether a text reads as itself. -/
def isPlain (s : String) : Bool :=
  match s.toList with
  | [] => false
  | c :: rest =>
    s.toList.all isPrintable && !(s.toLower ∈ reservedWords) && !isNumeral s && c ≠ ' '
      && !(c ∈ indicators) && !(c ∈ looseIndicators && (rest.isEmpty || rest.head? = some ' '))
      && !isBroken (c :: rest)

/-- A text in single quotes, where a quote stands for itself twice. -/
def quote (s : String) : String :=
  "'" ++ String.ofList (s.toList.flatMap fun c => if c = '\'' then ['\'', '\''] else [c]) ++ "'"

/-- The lines of a text. -/
def lines (s : String) : List String :=
  s.toList.foldr
    (fun c ls =>
      if c = '\n' then "" :: ls
      else
        match ls with
        | [] => [String.singleton c]
        | l :: ls => (String.singleton c ++ l) :: ls)
    [""]

/-- Whether a text can be a literal block: lines of printable characters, the first not blank at its
start and the last not empty. -/
def isLiteral (s : String) : Bool :=
  match lines s with
  | first :: rest =>
    !rest.isEmpty && (first :: rest).all (fun l => l.toList.all isPrintable) && !first.isEmpty
      && first.toList.head? ≠ some ' ' && rest.getLast? ≠ some ""
  | [] => false

/-! ## Documents -/

/-- How a value stands after its name. -/
inductive Node where
  /-- On the line of the name. -/
  | inline (text : String)
  /-- After a mark on the line of the name, on lines of its own. -/
  | literal (lines : List String)
  /-- The lines of items. -/
  | items (lines : List String)
  /-- The lines of members. -/
  | members (lines : List String)

/-- Lines one level further in; empty ones stay empty. -/
def indent (ls : List String) : List String := ls.map fun l => if l.isEmpty then l else "  " ++ l

/-- The text as a node. -/
def ofText (s : String) : Node :=
  if isPlain s then .inline s
  else if isLiteral s then .literal (lines s)
  else if s.toList.all isPrintable then .inline (quote s)
  else .inline (Json.render (.string s))

/-- A name, which always stands on one line. -/
def ofName (s : String) : String := if isPlain s then s else Json.render (.string s)

/-- The lines of an item. -/
def Node.asItem : Node → List String
  | .inline t => ["- " ++ t]
  | .literal ls => "- |-" :: indent ls
  | .items [] | .members [] => ["-"]
  | .items (l :: ls) | .members (l :: ls) => ("- " ++ l) :: indent ls

/-- The lines of a member. -/
def Node.asMember (name : String) : Node → List String
  | .inline t => [name ++ ": " ++ t]
  | .literal ls => (name ++ ": |-") :: indent ls
  | .items ls => (name ++ ":") :: ls
  | .members ls => (name ++ ":") :: indent ls

/-- The lines of a whole document. -/
def Node.lines : Node → List String
  | .inline t => [t]
  | .literal ls => "|-" :: indent ls
  | .items ls | .members ls => ls

mutual

def node : Json → Node
  | .string s => ofText s
  | .array [] => .inline "[]"
  | .array l => .items (itemLines l)
  | .object [] => .inline "\x7b\x7d"
  | .object ms => .members (memberLines ms)
  | j => .inline j.render

def itemLines : List Json → List String
  | [] => []
  | j :: rest => (node j).asItem ++ itemLines rest

def memberLines : List (String × Json) → List String
  | [] => []
  | (name, j) :: rest => (node j).asMember (ofName name) ++ memberLines rest

end

/-- The text of a document. -/
def render (j : Json) : String := String.join ((node j).lines.map fun l => l ++ "\n")

end ShareKeeper.Yaml
