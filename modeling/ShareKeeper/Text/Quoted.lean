import ShareKeeper.Text.Hidden

/-!
# Quoted text

How messages quote a text: between double quotes, with short escapes for the quote, the backslash
and the common controls, and `\u` with the code point in braces for every other character that is
not shown as itself. A single quote is left alone.
-/

namespace ShareKeeper.Text

/-- The digits of a code point between braces. -/
def bracedHex (n : Nat) : List Char :=
  '\\' :: 'u' :: '\x7b' :: (Nat.toDigits 16 n ++ ['\x7d'])

/-- One character as it stands between the quotes. -/
def quoteChar (c : Char) : List Char :=
  if c = '\x00' then ['\\', '0']
  else if c = '\t' then ['\\', 't']
  else if c = '\r' then ['\\', 'r']
  else if c = '\n' then ['\\', 'n']
  else if c = '\\' then ['\\', '\\']
  else if c = '"' then ['\\', '"']
  else if isHidden c then bracedHex c.toNat
  else [c]

/-- A text between double quotes, on one line and with nothing invisible in it. -/
def quote (s : String) : String :=
  String.ofList ('"' :: (s.toList.flatMap quoteChar ++ ['"']))

end ShareKeeper.Text
