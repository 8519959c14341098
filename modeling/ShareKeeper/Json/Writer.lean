import ShareKeeper.Json
import ShareKeeper.Binary64.Shortest

/-!
# Writing a JSON text

The compact text of a value: no white space, members in the order of the object, strings with the
short escapes and `\u00xx` for the other control characters. Doubles take the fewest digits that
read back, stand positionally from `10^-5` to below `10^16`, and always show that they are no
integers.
-/

namespace ShareKeeper.Json

/-- How doubles are laid out in JSON. -/
def doubleLayout : Binary64.Layout := ⟨some (-4), some 16, true⟩

def Number.render : Number → String
  | .int i => toString i
  | .double x => doubleLayout.render x

/-- The last two digits of a control character's code unit. -/
def controlDigits (n : Nat) : List Char :=
  [if n < 16 then '0' else '1', (Nat.toDigits 16 (n % 16)).headD '0']

/-- One character as it stands between the quotes. -/
def escapeChar (c : Char) : List Char :=
  if c = '"' then ['\\', '"']
  else if c = '\\' then ['\\', '\\']
  else if c = '\x08' then ['\\', 'b']
  else if c = '\x0c' then ['\\', 'f']
  else if c = '\n' then ['\\', 'n']
  else if c = '\r' then ['\\', 'r']
  else if c = '\t' then ['\\', 't']
  else if c.toNat < 0x20 then ['\\', 'u', '0', '0'] ++ controlDigits c.toNat
  else [c]

/-- A string literal, written onto a text. -/
def writeText (out : String) (s : String) : String :=
  (s.toList.foldl (fun out c => (escapeChar c).foldl String.push out) (out.push '"')).push '"'

mutual

/-- A value, written onto a text. -/
def write (out : String) : Json → String
  | .null => out ++ "null"
  | .bool b => out ++ (if b then "true" else "false")
  | .number n => out ++ n.render
  | .string s => writeText out s
  | .array items => (writeItems (out.push '[') true items).push ']'
  | .object members => (writeMembers (out.push '\x7b') true members).push '\x7d'

/-- Items between commas. -/
def writeItems (out : String) (first : Bool) : List Json → String
  | [] => out
  | v :: rest => writeItems (write (if first then out else out.push ',') v) false rest

/-- Members between commas. -/
def writeMembers (out : String) (first : Bool) : List (String × Json) → String
  | [] => out
  | (k, v) :: rest =>
    writeMembers (write ((writeText (if first then out else out.push ',') k).push ':') v) false rest

end

/-- The compact text of a value. -/
def render (v : Json) : String := write "" v

end ShareKeeper.Json
