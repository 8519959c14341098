import ShareKeeper.Json.Lexeme

/-!
# Reading a JSON text

A machine over lexemes. Its state is a stack of open arrays and objects and what is due next; one
lexeme is one step, so the machine is a fold and stops at the first lexeme that does not fit. An
array or an object may stand inside at most 126 others.

The errors say what was due: the same stray lexeme is a missing comma after an item, a missing value
after a colon, and trailing text after the whole value.
-/

namespace ShareKeeper.Json

/-- An array or object that is still open. -/
inductive Frame where
  /-- The items so far, the last first. -/
  | array (items : List Json)
  /-- The members so far and the key that was read last. -/
  | object (members : List (String × Json)) (key : String)

/-- What is due next. -/
inductive Due where
  | value
  | firstItem
  | nextItem
  | separator
  | firstKey
  | nextKey
  | colon
  | nothing (v : Json)

/-- A state of the reader. -/
structure Reader where
  stack : List Frame
  due : Due

namespace Reader

/-- How many arrays and objects may be open at once, and one more. -/
def depthLimit : Nat := 128

/-- Puts a finished value where it belongs. -/
def accept (v : Json) : List Frame → Reader
  | [] => ⟨[], .nothing v⟩
  | .array items :: stack => ⟨.array (v :: items) :: stack, .separator⟩
  | .object members key :: stack =>
    ⟨.object (insertByKey Prod.fst (key, v) members) key :: stack, .separator⟩

/-- Opens an array or object. -/
def descend (frame : Frame) (due : Due) (start : Nat) (stack : List Frame) : Except Fault Reader :=
  if stack.length + 1 < depthLimit then .ok ⟨frame :: stack, due⟩
  else .error ⟨.tooDeep, start + 1⟩

/-- A lexeme where a value is due. -/
def value (l : Lexeme) (stack : List Frame) : Except Fault Reader :=
  match l.kind with
  | .scalar v => .ok (accept v stack)
  | .text s => .ok (accept (.string s) stack)
  | .openArray => descend (.array []) .firstItem l.start stack
  | .openObject => descend (.object [] "") .firstKey l.start stack
  | .broken f => .error f
  | .brokenText f => .error f
  | _ => .error ⟨.expectedValue, l.start + 1⟩

/-- A lexeme where a key is due. -/
def key (l : Lexeme) (stack : List Frame) : Except Fault Reader :=
  match l.kind, stack with
  | .text s, .object members _ :: stack => .ok ⟨.object members s :: stack, .colon⟩
  | .brokenText f, _ => .error f
  | _, _ => .error ⟨.keyMustBeString, l.start + 1⟩

/-- A lexeme after an item or a member. -/
def separator (l : Lexeme) : List Frame → Except Fault Reader
  | .array items :: stack =>
    match l.kind with
    | .comma => .ok ⟨.array items :: stack, .nextItem⟩
    | .closeArray => .ok (accept (.array items.reverse) stack)
    | _ => .error ⟨.expectedCommaOrBracket, l.start + 1⟩
  | .object members k :: stack =>
    match l.kind with
    | .comma => .ok ⟨.object members k :: stack, .nextKey⟩
    | .closeObject => .ok (accept (.object members) stack)
    | _ => .error ⟨.expectedCommaOrBrace, l.start + 1⟩
  | [] => .error ⟨.trailingCharacters, l.start + 1⟩

/-- One lexeme. -/
def step (r : Reader) (l : Lexeme) : Except Fault Reader :=
  match r.due with
  | .value => value l r.stack
  | .firstItem =>
    match l.kind with
    | .closeArray => .ok (accept (.array []) r.stack.tail)
    | _ => value l r.stack
  | .nextItem =>
    match l.kind with
    | .closeArray => .error ⟨.trailingComma, l.start + 1⟩
    | _ => value l r.stack
  | .separator => separator l r.stack
  | .firstKey =>
    match l.kind with
    | .closeObject => .ok (accept (.object []) r.stack.tail)
    | _ => key l r.stack
  | .nextKey =>
    match l.kind with
    | .closeObject => .error ⟨.trailingComma, l.start + 1⟩
    | _ => key l r.stack
  | .colon =>
    match l.kind with
    | .colon => .ok { r with due := .value }
    | _ => .error ⟨.expectedColon, l.start + 1⟩
  | .nothing _ => .error ⟨.trailingCharacters, l.start + 1⟩

/-- The end of the text, at its length in bytes. -/
def finish (size : Nat) (r : Reader) : Except Fault Json :=
  match r.due, r.stack with
  | .nothing v, _ => .ok v
  | .firstItem, _ => .error ⟨.eofInList, size⟩
  | .separator, .array _ :: _ => .error ⟨.eofInList, size⟩
  | .separator, _ => .error ⟨.eofInObject, size⟩
  | .firstKey, _ => .error ⟨.eofInObject, size⟩
  | .colon, _ => .error ⟨.eofInObject, size⟩
  | _, _ => .error ⟨.eofInValue, size⟩

/-- All lexemes, then the end. -/
def run (size : Nat) (r : Reader) : List Lexeme → Except Fault Json
  | [] => finish size r
  | l :: rest => do run size (← step r l) rest

end Reader

/-- The value of a text, or why and where it is none. -/
def read (s : String) : Except ReadError Json :=
  let cs := s.toList
  match Reader.run s.utf8ByteSize ⟨[], .value⟩ (Lexeme.lexemes 0 cs) with
  | .ok v => .ok v
  | .error f => .error (f.locate cs)

end ShareKeeper.Json
