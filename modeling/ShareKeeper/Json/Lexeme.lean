import ShareKeeper.Json.Numeral

/-!
# The lexemes of a JSON text

A JSON text is first cut into lexemes: brackets, separators, literals, numbers and strings, each
with the byte offset where it starts. What cannot be read becomes a last lexeme that carries the
fault; whether the fault is reported depends on the place, since where no value is due the wrong
lexeme itself is the error. Text that starts like a string and cannot be read is kept apart from
other broken text, because an object's keys must be strings.

## Termination

`lexemes` recurses on the text that is left: every lexeme takes at least one character
(`scanText_length`, `Numeral.scan_length`).
-/

namespace ShareKeeper.Json

/-- What a lexeme is. -/
inductive Lexeme.Kind where
  | openArray
  | closeArray
  | openObject
  | closeObject
  | comma
  | colon
  | scalar (v : Json)
  | text (s : String)
  | broken (fault : Fault)
  | brokenText (fault : Fault)

/-- A lexeme and the offset of its first byte. -/
structure Lexeme where
  start : Nat
  kind : Lexeme.Kind

namespace Lexeme

/-! ## Strings -/

def hexValue? (c : Char) : Option Nat :=
  if '0' ≤ c && c ≤ '9' then some (c.toNat - 0x30)
  else if 'a' ≤ c && c ≤ 'f' then some (c.toNat - 0x61 + 10)
  else if 'A' ≤ c && c ≤ 'F' then some (c.toNat - 0x41 + 10)
  else none

/-- Four hexadecimal digits; the text has to go on for four bytes at least. -/
def scanHex (offset : Nat) : List Char → Except Fault (Nat × List Char)
  | a :: b :: c :: d :: rest =>
    match hexValue? a, hexValue? b, hexValue? c, hexValue? d with
    | some a, some b, some c, some d => .ok (((a * 16 + b) * 16 + c) * 16 + d, rest)
    | _, _, _, _ => .error ⟨.invalidEscape, offset + 4⟩
  | cs =>
    let size := (String.ofList cs).utf8ByteSize
    .error (if 4 ≤ size then ⟨.invalidEscape, offset + 4⟩ else ⟨.eofInString, offset + size⟩)

def isLeadingSurrogate (n : Nat) : Bool := 0xD800 ≤ n && n ≤ 0xDBFF

def isTrailingSurrogate (n : Nat) : Bool := 0xDC00 ≤ n && n ≤ 0xDFFF

/-- The second half of a surrogate pair. -/
def scanTrailing (lead offset : Nat) : List Char → Except Fault (Char × List Char × Nat)
  | [] => .error ⟨.eofInString, offset⟩
  | ['\\'] => .error ⟨.eofInString, offset + 1⟩
  | '\\' :: 'u' :: rest => do
    let (n, rest) ← scanHex (offset + 2) rest
    if isTrailingSurrogate n then
      return (Char.ofNat ((lead - 0xD800) * 0x400 + (n - 0xDC00) + 0x10000), rest, offset + 6)
    else .error ⟨.loneSurrogate, offset + 6⟩
  | '\\' :: _ => .error ⟨.unfinishedSurrogatePair, offset + 2⟩
  | _ => .error ⟨.unfinishedSurrogatePair, offset + 1⟩

/-- The escape of a code unit, after its `u`. -/
def scanUnit (offset : Nat) (cs : List Char) : Except Fault (Char × List Char × Nat) := do
  let (n, rest) ← scanHex offset cs
  if isTrailingSurrogate n then .error ⟨.loneSurrogate, offset + 4⟩
  else if isLeadingSurrogate n then scanTrailing n (offset + 4) rest
  else return (Char.ofNat n, rest, offset + 4)

/-- The characters with an escape of one letter. -/
def shortEscape? : Char → Option Char
  | '"' => some '"'
  | '\\' => some '\\'
  | '/' => some '/'
  | 'b' => some '\x08'
  | 'f' => some '\x0c'
  | 'n' => some '\n'
  | 'r' => some '\r'
  | 't' => some '\t'
  | _ => none

/-- An escape, after its backslash. -/
def scanEscape (offset : Nat) : List Char → Except Fault (Char × List Char × Nat)
  | [] => .error ⟨.eofInString, offset⟩
  | c :: rest =>
    if c = 'u' then scanUnit (offset + 1) rest
    else
      match shortEscape? c with
      | some d => .ok (d, rest, offset + 1)
      | none => .error ⟨.invalidEscape, offset + 1⟩

theorem scanHex_length {offset n : Nat} {cs rest : List Char}
    (h : scanHex offset cs = .ok (n, rest)) : rest.length < cs.length := by
  unfold scanHex at h
  split at h
  · split at h
    · cases h
      simp only [List.length_cons]
      omega
    · cases h
  · simp at h

theorem scanTrailing_length {lead offset offset' : Nat} {c : Char} {cs rest : List Char}
    (h : scanTrailing lead offset cs = .ok (c, rest, offset')) : rest.length < cs.length := by
  unfold scanTrailing at h
  split at h
  · cases h
  · cases h
  · rename_i cs'
    cases hx : scanHex (offset + 2) cs' with
    | error f => simp [hx, bind, Except.bind] at h
    | ok v =>
      obtain ⟨n, rest'⟩ := v
      have hl := scanHex_length hx
      simp only [hx, bind, Except.bind] at h
      split at h
      · simp only [pure, Except.pure, Except.ok.injEq, Prod.mk.injEq] at h
        obtain ⟨_, rfl, _⟩ := h
        simp only [List.length_cons]
        omega
      · cases h
  · cases h
  · cases h

theorem scanUnit_length {offset offset' : Nat} {c : Char} {cs rest : List Char}
    (h : scanUnit offset cs = .ok (c, rest, offset')) : rest.length < cs.length := by
  unfold scanUnit at h
  cases hx : scanHex offset cs with
  | error f => simp [hx, bind, Except.bind] at h
  | ok v =>
    obtain ⟨n, rest'⟩ := v
    have hl := scanHex_length hx
    simp only [hx, bind, Except.bind] at h
    split at h
    · cases h
    · split at h
      · exact Nat.lt_trans (scanTrailing_length h) hl
      · cases h
        exact hl

theorem scanEscape_length {offset offset' : Nat} {c : Char} {cs rest : List Char}
    (h : scanEscape offset cs = .ok (c, rest, offset')) : rest.length < cs.length := by
  unfold scanEscape at h
  split at h
  · cases h
  · split at h
    · exact Nat.lt_succ_of_lt (scanUnit_length h)
    · split at h
      · cases h
        exact Nat.lt_succ_self _
      · cases h

/-- A string, after its opening quote; `done` holds its characters so far, the last first. -/
def scanText (done : List Char) (offset : Nat) (cs : List Char) :
    Except Fault (String × List Char × Nat) :=
  match cs with
  | [] => .error ⟨.eofInString, offset⟩
  | c :: rest =>
    if c = '"' then .ok (String.ofList done.reverse, rest, offset + 1)
    else if c = '\\' then
      match h : scanEscape (offset + 1) rest with
      | .error f => .error f
      | .ok (d, rest', offset') =>
        have : rest'.length < rest.length + 1 := Nat.lt_succ_of_lt (scanEscape_length h)
        scanText (d :: done) offset' rest'
    else if c.toNat < 0x20 then .error ⟨.controlCharacter, offset + 1⟩
    else scanText (c :: done) (offset + c.utf8Size) rest
termination_by cs.length

/-- **A string that was read took at least its closing quote.** -/
theorem scanText_length {done : List Char} {offset offset' : Nat} {s : String}
    {cs rest : List Char} (h : scanText done offset cs = .ok (s, rest, offset')) :
    rest.length < cs.length := by
  fun_induction scanText done offset cs with
  | case1 => cases h
  | case2 =>
    cases h
    exact Nat.lt_succ_self _
  | case3 => cases h
  | case4 _ _ _ _ _ _ _ _ _ ih =>
    rename_i hlt _
    exact Nat.lt_trans (ih h) hlt
  | case5 => cases h
  | case6 done offset c rest₀ _ _ _ ih => exact Nat.lt_succ_of_lt (ih h)

/-! ## Words -/

/-- The rest of a literal, letter by letter. -/
def scanWord (offset : Nat) : List Char → List Char → Except Fault (List Char × Nat)
  | [], cs => .ok (cs, offset)
  | _ :: _, [] => .error ⟨.eofInValue, offset⟩
  | w :: word, c :: cs =>
    if c = w then scanWord (offset + 1) word cs else .error ⟨.expectedWord, offset + 1⟩

theorem scanWord_length {offset offset' : Nat} {word cs rest : List Char}
    (h : scanWord offset word cs = .ok (rest, offset')) : rest.length ≤ cs.length := by
  induction word generalizing offset cs with
  | nil =>
    cases h
    exact Nat.le_refl _
  | cons w word ih =>
    cases cs with
    | nil => cases h
    | cons c cs =>
      unfold scanWord at h
      split at h
      · exact Nat.le_succ_of_le (ih h)
      · cases h

/-! ## All lexemes -/

/-- The white space between lexemes. -/
def isSpace (c : Char) : Bool := c = ' ' || c = '\n' || c = '\t' || c = '\r'

/-- A lexeme's kind with what is left of the text after it, which is shorter. -/
abbrev Step (cs : List Char) := Kind × { rest : List Char × Nat // rest.1.length < cs.length }

/-- The end of the lexemes at text that cannot be read. -/
def stop {c : Char} {cs : List Char} (kind : Kind) (offset : Nat) : Step (c :: cs) :=
  (kind, ⟨([], offset), Nat.succ_pos _⟩)

/-- A literal, after its first letter. -/
def literal {c : Char} (v : Json) (word : String) (offset : Nat) (rest : List Char) :
    Step (c :: rest) :=
  match h : scanWord (offset + 1) word.toList rest with
  | .ok (left, offset') => (.scalar v, ⟨(left, offset'), Nat.lt_succ_of_le (scanWord_length h)⟩)
  | .error f => stop (.broken f) offset

/-- A number, after its sign if it has one. -/
def numeral (negative : Bool) (offset : Nat) (c : Char) (rest : List Char) : Step (c :: rest) :=
  if negative then
    match h : Numeral.scan true (offset + 1) rest with
    | .ok r => (.scalar (.number r.value), ⟨(r.rest, r.offset),
        Nat.lt_succ_of_lt (Numeral.scan_length h)⟩)
    | .error f => stop (.broken f) offset
  else
    match h : Numeral.scan false offset (c :: rest) with
    | .ok r => (.scalar (.number r.value), ⟨(r.rest, r.offset), Numeral.scan_length h⟩)
    | .error f => stop (.broken f) offset

/-- A mark of one character. -/
def mark {c : Char} (kind : Kind) (offset : Nat) (rest : List Char) : Step (c :: rest) :=
  (kind, ⟨(rest, offset + 1), Nat.lt_succ_self _⟩)

/-- The lexeme that starts with a character. -/
def next (offset : Nat) (c : Char) (rest : List Char) : Step (c :: rest) :=
  if c = '[' then mark .openArray offset rest
  else if c = ']' then mark .closeArray offset rest
  else if c = '\x7b' then mark .openObject offset rest
  else if c = '\x7d' then mark .closeObject offset rest
  else if c = ',' then mark .comma offset rest
  else if c = ':' then mark .colon offset rest
  else if c = 'n' then literal .null "ull" offset rest
  else if c = 't' then literal (.bool true) "rue" offset rest
  else if c = 'f' then literal (.bool false) "alse" offset rest
  else if c = '"' then
    match h : scanText [] (offset + 1) rest with
    | .ok (s, left, offset') => (.text s, ⟨(left, offset'), Nat.lt_succ_of_lt (scanText_length h)⟩)
    | .error f => stop (.brokenText f) offset
  else if c = '-' then numeral true offset c rest
  else if c.isDigit then numeral false offset c rest
  else stop (.broken ⟨.expectedValue, offset + 1⟩) offset

/-- The lexemes of a text that starts at an offset. -/
def lexemes (offset : Nat) (cs : List Char) : List Lexeme :=
  match cs with
  | [] => []
  | c :: rest =>
    if isSpace c then lexemes (offset + 1) rest
    else
      let (kind, ⟨(left, offset'), _⟩) := next offset c rest
      ⟨offset, kind⟩ :: lexemes offset' left
termination_by cs.length
decreasing_by
  · exact Nat.lt_succ_self rest.length
  · rename_i shorter
    exact shorter

end Lexeme

end ShareKeeper.Json
