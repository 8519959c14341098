import ShareKeeper.Json.Lexeme
import ShareKeeper.Proofs.Json.Numeral

/-!
# Where a lexeme ends

What a lexeme is depends only on the piece of text that it takes: the same piece is the same lexeme at any
offset and in front of anything, but for numbers, which want something behind them that ends a number
(`next_reads`). So a lexeme has tokens, the pieces of text that are this lexeme by themselves (`Token`),
and the lexemes of a text are told by cutting it into tokens and the white space around them (`Spaced`,
`spaced_iff`).
-/

namespace ShareKeeper.Json.Lexeme

open Numeral (Ends)

/-! ## Strings -/

theorem scanHex_reads {offset n : Nat} {cs left : List Char} (h : scanHex offset cs = .ok (n, left)) :
    ∃ k, cs = k ++ left ∧ ∀ o left', scanHex o (k ++ left') = .ok (n, left') := by
  unfold scanHex at h
  split at h
  · next a b c d rest =>
    split at h
    · next ha hb hc hd =>
      cases h
      refine ⟨[a, b, c, d], rfl, fun o left' => ?_⟩
      show scanHex o (a :: b :: c :: d :: left') = _
      rw [scanHex, ha, hb, hc, hd]
    · cases h
  · simp at h

theorem scanTrailing_reads {lead offset offset' : Nat} {c : Char} {cs left : List Char}
    (h : scanTrailing lead offset cs = .ok (c, left, offset')) :
    ∃ k, cs = k ++ left ∧ ∀ o left', ∃ o', scanTrailing lead o (k ++ left') = .ok (c, left', o') := by
  unfold scanTrailing at h
  split at h
  · cases h
  · cases h
  · next rest =>
    cases hx : scanHex (offset + 2) rest with
    | error f =>
      rw [hx] at h
      cases h
    | ok v =>
      obtain ⟨n, left'⟩ := v
      rw [hx] at h
      obtain ⟨k, rfl, hk⟩ := scanHex_reads hx
      simp only [bind, Except.bind] at h
      split at h
      · next htrailing =>
        simp only [pure, Except.pure, Except.ok.injEq, Prod.mk.injEq] at h
        obtain ⟨rfl, rfl, -⟩ := h
        refine ⟨'\\' :: 'u' :: k, rfl, fun o left' => ⟨o + 6, ?_⟩⟩
        show scanTrailing lead o ('\\' :: 'u' :: (k ++ left')) = _
        rw [scanTrailing, hk]
        simp only [bind, Except.bind]
        rw [if_pos htrailing]
        rfl
      · cases h
  · cases h
  · cases h

theorem scanUnit_reads {offset offset' : Nat} {c : Char} {cs left : List Char}
    (h : scanUnit offset cs = .ok (c, left, offset')) :
    ∃ k, cs = k ++ left ∧ ∀ o left', ∃ o', scanUnit o (k ++ left') = .ok (c, left', o') := by
  unfold scanUnit at h
  cases hx : scanHex offset cs with
  | error f =>
    rw [hx] at h
    cases h
  | ok v =>
    obtain ⟨n, rest⟩ := v
    rw [hx] at h
    obtain ⟨k, rfl, hk⟩ := scanHex_reads hx
    simp only [bind, Except.bind] at h
    split at h
    · cases h
    · next htrailing =>
      split at h
      · next hleading =>
        obtain ⟨k', rfl, hk'⟩ := scanTrailing_reads h
        refine ⟨k ++ k', (List.append_assoc _ _ _).symm, fun o left' => ?_⟩
        obtain ⟨o', hread⟩ := hk' (o + 4) left'
        refine ⟨o', ?_⟩
        rw [List.append_assoc, scanUnit, hk]
        simp only [bind, Except.bind]
        rw [if_neg htrailing, if_pos hleading, hread]
      · next hleading =>
        cases h
        refine ⟨k, rfl, fun o left' => ⟨o + 4, ?_⟩⟩
        rw [scanUnit, hk]
        simp only [bind, Except.bind]
        rw [if_neg htrailing, if_neg hleading]
        rfl

theorem scanEscape_reads {offset offset' : Nat} {d : Char} {cs left : List Char}
    (h : scanEscape offset cs = .ok (d, left, offset')) :
    ∃ k, cs = k ++ left ∧ ∀ o left', ∃ o', scanEscape o (k ++ left') = .ok (d, left', o') := by
  unfold scanEscape at h
  split at h
  · cases h
  · next c rest =>
    split at h
    · next hc =>
      obtain ⟨k, rfl, hk⟩ := scanUnit_reads h
      refine ⟨c :: k, rfl, fun o left' => ?_⟩
      obtain ⟨o', hread⟩ := hk (o + 1) left'
      refine ⟨o', ?_⟩
      rw [List.cons_append, scanEscape, if_pos hc, hread]
    · next hc =>
      cases hd : shortEscape? c with
      | some d' =>
        rw [hd] at h
        cases h
        refine ⟨[c], rfl, fun o left' => ⟨o + 1, ?_⟩⟩
        rw [List.singleton_append, scanEscape, if_neg hc, hd]
      | none =>
        rw [hd] at h
        cases h

section Text

variable {done : List Char} {offset offset' : Nat} {c d : Char} {rest left : List Char}

theorem scanText_quote : scanText done offset ('"' :: rest)
    = .ok (String.ofList done.reverse, rest, offset + 1) := by
  rw [scanText, if_pos rfl]

theorem scanText_escape (h : scanEscape (offset + 1) rest = .ok (d, left, offset')) :
    scanText done offset ('\\' :: rest) = scanText (d :: done) offset' left := by
  rw [scanText, if_neg (by decide), if_pos rfl]
  split
  · next heq => rw [h] at heq; cases heq
  · next heq =>
    rw [h] at heq
    cases heq
    rfl

theorem scanText_plain (hquote : c ≠ '"') (hslash : c ≠ '\\') (hcontrol : ¬ c.toNat < 0x20) :
    scanText done offset (c :: rest) = scanText (c :: done) (offset + c.utf8Size) rest := by
  rw [scanText, if_neg hquote, if_neg hslash, if_neg hcontrol]

/-- **A string is read alike wherever it stands.** -/
theorem scanText_reads {s : String} {cs : List Char}
    (h : scanText done offset cs = .ok (s, left, offset')) :
    ∃ k, cs = k ++ left ∧ ∀ o left', ∃ o', scanText done o (k ++ left') = .ok (s, left', o') := by
  fun_induction scanText done offset cs with
  | case1 => cases h
  | case2 done offset rest =>
    cases h
    exact ⟨['"'], rfl, fun o left' => ⟨o + 1, scanText_quote⟩⟩
  | case3 => cases h
  | case4 done offset rest d rest' offset'' hescape _ _ ih =>
    obtain ⟨k, rfl, hk⟩ := ih h
    obtain ⟨k', rfl, hk'⟩ := scanEscape_reads hescape
    refine ⟨'\\' :: (k' ++ k), by simp, fun o left' => ?_⟩
    obtain ⟨o', hescape'⟩ := hk' (o + 1) (k ++ left')
    obtain ⟨o'', hread⟩ := hk o' left'
    refine ⟨o'', ?_⟩
    rw [List.cons_append, List.append_assoc, scanText_escape hescape', hread]
  | case5 => cases h
  | case6 done offset c rest hquote hslash hcontrol ih =>
    obtain ⟨k, rfl, hk⟩ := ih h
    refine ⟨c :: k, rfl, fun o left' => ?_⟩
    obtain ⟨o', hread⟩ := hk (o + c.utf8Size) left'
    refine ⟨o', ?_⟩
    rw [List.cons_append, scanText_plain hquote hslash hcontrol, hread]

end Text

/-! ## Words -/

theorem scanWord_append (word left : List Char) (offset : Nat) :
    scanWord offset word (word ++ left) = .ok (left, offset + word.length) := by
  induction word generalizing offset with
  | nil => rfl
  | cons w word ih =>
    rw [List.cons_append, scanWord, if_pos rfl, ih, List.length_cons, Nat.add_right_comm]
    rfl

theorem scanWord_reads {offset offset' : Nat} {word cs left : List Char}
    (h : scanWord offset word cs = .ok (left, offset')) : cs = word ++ left := by
  induction word generalizing offset cs with
  | nil =>
    cases h
    rfl
  | cons w word ih =>
    cases cs with
    | nil => cases h
    | cons c cs =>
      unfold scanWord at h
      split at h
      · next hc => rw [hc, ih h, List.cons_append]
      · cases h

/-! ## One lexeme -/

/-- A lexeme that could be read. -/
def Kind.IsWhole : Kind → Prop
  | .broken _ => False
  | .brokenText _ => False
  | _ => True

/-- A literal or a number. -/
def Kind.IsScalar : Kind → Prop
  | .scalar _ => True
  | _ => False

/-- A step without the proof that it goes forward. -/
def Step.plain {cs : List Char} (s : Step cs) : Kind × List Char × Nat := (s.1, s.2.1)

/-- The marks, and what they are. -/
def marks : List (Char × Kind) :=
  [('[', .openArray), (']', .closeArray), ('\x7b', .openObject), ('\x7d', .closeObject), (',', .comma),
    (':', .colon)]

/-- The words: how they begin, what they mean, and how they go on. -/
def words : List (Char × Json × String) :=
  [('n', .null, "ull"), ('t', .bool true, "rue"), ('f', .bool false, "alse")]

/-- The lexeme that a scanner found, or the one that tells its fault. -/
def told {α : Type} (found : α → Kind × List Char × Nat) (broken : Fault → Kind) (offset : Nat) :
    Except Fault α → Kind × List Char × Nat
  | .ok a => found a
  | .error f => (broken f, [], offset)

section Next

variable {offset offset' : Nat} {c : Char} {kind : Kind} {rest left : List Char}

theorem exists_of_told {α : Type} {found : α → Kind × List Char × Nat} {broken : Fault → Kind}
    {e : Except Fault α} (h : told found broken offset e = (kind, left, offset'))
    (hbroken : ∀ f, ¬ (broken f).IsWhole) (hwhole : kind.IsWhole) :
    ∃ a, e = .ok a ∧ found a = (kind, left, offset') := by
  cases e with
  | ok a => exact ⟨a, rfl, h⟩
  | error f =>
    cases h
    exact absurd hwhole (hbroken f)

/-! ### By the first character -/

/-- What a number is as a lexeme. -/
def numberFound (r : Numeral.Scan Number) : Kind × List Char × Nat :=
  (.scalar (.number r.value), r.rest, r.offset)

theorem next_mark (h : (c, kind) ∈ marks) : (next offset c rest).plain = (kind, rest, offset + 1) := by
  simp only [marks, List.mem_cons, Prod.mk.injEq, List.not_mem_nil, or_false] at h
  rcases h with ⟨rfl, rfl⟩ | ⟨rfl, rfl⟩ | ⟨rfl, rfl⟩ | ⟨rfl, rfl⟩ | ⟨rfl, rfl⟩ | ⟨rfl, rfl⟩ <;> rfl

theorem plain_literal (v : Json) (word : String) :
    (literal (c := c) v word offset rest).plain
      = told (fun r => (.scalar v, r)) .broken offset (scanWord (offset + 1) word.toList rest) := by
  unfold literal
  split <;> rename_i h <;> simp only [h] <;> rfl

theorem next_word {v : Json} {word : String} (h : (c, v, word) ∈ words) :
    (next offset c rest).plain
      = told (fun r => (.scalar v, r)) .broken offset (scanWord (offset + 1) word.toList rest) := by
  simp only [words, List.mem_cons, Prod.mk.injEq, List.not_mem_nil, or_false] at h
  rcases h with ⟨rfl, rfl, rfl⟩ | ⟨rfl, rfl, rfl⟩ | ⟨rfl, rfl, rfl⟩ <;> exact plain_literal _ _

theorem next_quote :
    (next offset '"' rest).plain
      = told (fun r => (.text r.1, r.2)) .brokenText offset (scanText [] (offset + 1) rest) := by
  unfold next
  iterate 9 rw [if_neg (by decide)]
  rw [if_pos rfl]
  split <;> rename_i h <;> simp only [h] <;> rfl

theorem plain_numeral (negative : Bool) :
    (numeral negative offset c rest).plain
      = told numberFound .broken offset
        (if negative then Numeral.scan true (offset + 1) rest
          else Numeral.scan false offset (c :: rest)) := by
  unfold numeral
  cases negative with
  | true =>
    rw [if_pos rfl, if_pos rfl]
    split <;> rename_i h <;> simp only [h] <;> rfl
  | false =>
    rw [if_neg Bool.false_ne_true, if_neg Bool.false_ne_true]
    split <;> rename_i h <;> simp only [h] <;> rfl

theorem next_minus :
    (next offset '-' rest).plain
      = told numberFound .broken offset (Numeral.scan true (offset + 1) rest) :=
  plain_numeral true

theorem next_digit (h : c.isDigit = true) :
    (next offset c rest).plain
      = told numberFound .broken offset (Numeral.scan false offset (c :: rest)) := by
  have hne : ∀ d : Char, d.isDigit = false → c ≠ d := by
    rintro _ hd rfl
    exact Bool.false_ne_true (hd.symm.trans h)
  unfold next
  rw [if_neg (hne '[' rfl), if_neg (hne ']' rfl), if_neg (hne '\x7b' rfl), if_neg (hne '\x7d' rfl),
    if_neg (hne ',' rfl), if_neg (hne ':' rfl), if_neg (hne 'n' rfl), if_neg (hne 't' rfl),
    if_neg (hne 'f' rfl), if_neg (hne '"' rfl), if_neg (hne '-' rfl), if_pos h]
  exact plain_numeral false

/-- How a lexeme may begin. -/
inductive Opening (c : Char) : Prop
  | mark {kind : Kind} (h : (c, kind) ∈ marks)
  | word {v : Json} {word : String} (h : (c, v, word) ∈ words)
  | quote (h : c = '"')
  | minus (h : c = '-')
  | digit (h : c.isDigit = true)
  | stray (h : ∀ offset rest,
      (next offset c rest).plain = (.broken ⟨.expectedValue, offset + 1⟩, [], offset))

theorem opening (c : Char) : Opening c := by
  by_cases hmark : c ∈ marks.map Prod.fst
  · obtain ⟨⟨_, kind⟩, h, rfl⟩ := List.mem_map.1 hmark
    exact .mark h
  by_cases hword : c ∈ words.map Prod.fst
  · obtain ⟨⟨_, v, word⟩, h, rfl⟩ := List.mem_map.1 hword
    exact .word h
  by_cases hquote : c = '"'
  · exact .quote hquote
  by_cases hminus : c = '-'
  · exact .minus hminus
  by_cases hdigit : c.isDigit = true
  · exact .digit hdigit
  refine .stray fun offset rest => ?_
  simp only [marks, words, List.map_cons, List.map_nil, List.mem_cons, List.not_mem_nil, or_false,
    not_or] at hmark hword
  simp only [next, hmark, hword, hquote, hminus, hdigit, if_false]
  rfl

/-- **A lexeme is read alike wherever it stands.** Only numbers ask what comes after them. -/
theorem next_reads (h : (next offset c rest).plain = (kind, left, offset')) (hwhole : kind.IsWhole) :
    ∃ k, rest = k ++ left ∧ ∀ o left', (kind.IsScalar → Ends left') →
      ∃ o', (next o c (k ++ left')).plain = (kind, left', o') := by
  cases opening c with
  | mark hmark =>
    rw [next_mark hmark] at h
    cases h
    exact ⟨[], rfl, fun o left' _ => ⟨o + 1, next_mark hmark⟩⟩
  | @word v word hword =>
    rw [next_word hword] at h
    obtain ⟨⟨_, _⟩, hr, ⟨⟩⟩ := exists_of_told h (fun _ => id) hwhole
    refine ⟨word.toList, scanWord_reads hr, fun o left' _ => ⟨o + 1 + word.toList.length, ?_⟩⟩
    rw [next_word hword, scanWord_append, told]
  | quote hquote =>
    subst hquote
    rw [next_quote] at h
    obtain ⟨⟨_, _, _⟩, hr, ⟨⟩⟩ := exists_of_told h (fun _ => id) hwhole
    obtain ⟨k, hrest, hk⟩ := scanText_reads hr
    refine ⟨k, hrest, fun o left' _ => ?_⟩
    obtain ⟨o', hread⟩ := hk (o + 1) left'
    exact ⟨o', by rw [next_quote, hread, told]⟩
  | minus hminus =>
    subst hminus
    rw [next_minus] at h
    obtain ⟨r, hr, ⟨⟩⟩ := exists_of_told h (fun _ => id) hwhole
    obtain ⟨k, hrest, hk⟩ := Numeral.scan_reads hr
    refine ⟨k, hrest, fun o left' hends => ?_⟩
    obtain ⟨o', hread⟩ := hk (o + 1) left' (hends trivial)
    exact ⟨o', by rw [next_minus, hread, told, numberFound]⟩
  | digit hdigit =>
    rw [next_digit hdigit] at h
    obtain ⟨r, hr, ⟨⟩⟩ := exists_of_told h (fun _ => id) hwhole
    obtain ⟨k, hrest, hk⟩ := Numeral.scan_reads hr
    have hlength := Numeral.scan_length hr
    -- the first character is itself part of the number
    cases k with
    | nil =>
      rw [hrest, List.nil_append] at hlength
      exact absurd hlength (Nat.lt_irrefl _)
    | cons d k =>
      obtain ⟨rfl, rfl⟩ := List.cons.inj hrest
      refine ⟨k, rfl, fun o left' hends => ?_⟩
      obtain ⟨o', hread⟩ := hk o left' (hends trivial)
      exact ⟨o', by rw [next_digit hdigit, ← List.cons_append, hread, told, numberFound]⟩
  | stray hstray =>
    rw [hstray] at h
    cases h
    exact hwhole.elim

/-- A character with which a number goes on begins a number or no lexeme at all. -/
theorem not_numeral_of_next (h : (next offset c rest).plain = (kind, left, offset'))
    (hwhole : kind.IsWhole) (hscalar : ¬ kind.IsScalar) :
    c.isDigit = false ∧ c ≠ '.' ∧ c ≠ 'e' ∧ c ≠ 'E' := by
  refine ⟨?_, ?_, ?_, ?_⟩
  · rw [← Bool.not_eq_true]
    intro hdigit
    rw [next_digit hdigit] at h
    obtain ⟨r, -, ⟨⟩⟩ := exists_of_told h (fun _ => id) hwhole
    exact hscalar trivial
  all_goals
    rintro rfl
    cases h
    exact hwhole

end Next

/-! ## Tokens -/

/-- A piece of text that is a lexeme of some kind by itself. -/
structure Token (kind : Kind) (token : List Char) : Prop where
  isWhole : kind.IsWhole
  reads : ∃ c k offset, token = c :: k ∧ isSpace c = false ∧ (next 0 c k).plain = (kind, [], offset)

/-- A text as lexemes one after another, with white space where one likes. -/
inductive Spaced : List Kind → List Char → Prop
  | nil : Spaced [] []
  | space {c : Char} {kinds : List Kind} {cs : List Char} (h : isSpace c = true)
      (rest : Spaced kinds cs) : Spaced kinds (c :: cs)
  | token {kind : Kind} {kinds : List Kind} {token cs : List Char} (h : Token kind token)
      (rest : Spaced kinds cs) : Spaced (kind :: kinds) (token ++ cs)

/-- The lexemes of a text, told by their kinds. -/
def kinds (offset : Nat) (cs : List Char) : List Kind := (lexemes offset cs).map Lexeme.kind

@[simp] theorem kinds_nil (offset : Nat) : kinds offset [] = [] := by
  rw [kinds, lexemes, List.map_nil]

theorem kinds_space {c : Char} (h : isSpace c = true) (offset : Nat) (rest : List Char) :
    kinds offset (c :: rest) = kinds (offset + 1) rest := by
  rw [kinds, lexemes, if_pos h]
  rfl

theorem kinds_next {c : Char} {kind : Kind} {offset offset' : Nat} {rest left : List Char}
    (hc : isSpace c = false) (h : (next offset c rest).plain = (kind, left, offset')) :
    kinds offset (c :: rest) = kind :: kinds offset' left := by
  rw [Step.plain, Prod.mk.injEq] at h
  rw [kinds, lexemes, hc, if_neg Bool.false_ne_true]
  show (next offset c rest).1 :: kinds (next offset c rest).2.1.2 (next offset c rest).2.1.1 = _
  rw [h.1, h.2]

/-- **A text without broken lexemes is made of tokens and white space.** -/
theorem spaced_of_lexemes {offset : Nat} {cs : List Char}
    (h : ∀ kind ∈ kinds offset cs, kind.IsWhole) : Spaced (kinds offset cs) cs := by
  induction offset, cs using lexemes.induct with
  | case1 offset => exact kinds_nil offset ▸ .nil
  | case2 offset c rest hspace ih =>
    rw [kinds_space hspace] at h ⊢
    exact .space hspace (ih h)
  | case3 offset c rest hspace kind left offset' hshorter hnext ih =>
    have hplain : (next offset c rest).plain = (kind, left, offset') := by
      rw [Step.plain, hnext]
    rw [Bool.not_eq_true] at hspace
    rw [kinds_next hspace hplain] at h ⊢
    obtain ⟨hwhole, hrest⟩ := List.forall_mem_cons.1 h
    obtain ⟨k, rfl, hk⟩ := next_reads hplain hwhole
    obtain ⟨o, hread⟩ := hk 0 [] fun _ => nofun
    rw [List.append_nil] at hread
    exact .token ⟨hwhole, c, k, o, rfl, hspace, hread⟩ (ih hrest)

/-- Lexemes that can be told apart: none is broken, and no number or literal stands right before another
one. -/
def Parted : List Kind → Prop
  | [] => True
  | kind :: kinds =>
    kind.IsWhole ∧ (kind.IsScalar → ∀ k ∈ kinds.head?, ¬ k.IsScalar) ∧ Parted kinds

theorem Parted.isWhole {kinds : List Kind} (h : Parted kinds) : ∀ kind ∈ kinds, kind.IsWhole := by
  induction kinds with
  | nil => exact List.forall_mem_nil _
  | cons kind kinds ih => exact List.forall_mem_cons.2 ⟨h.1, ih h.2.2⟩

/-- What stands behind a number does not go on with it, unless it is another number. -/
theorem ends_of_spaced {kinds : List Kind} {cs : List Char} (h : Spaced kinds cs)
    (hhead : ∀ k ∈ kinds.head?, ¬ k.IsScalar) : Ends cs := by
  cases h with
  | nil => nofun
  | space hspace _ =>
    rintro _ ⟨⟩
    simp only [isSpace, Bool.or_eq_true, decide_eq_true_eq] at hspace
    rcases hspace with ((rfl | rfl) | rfl) | rfl <;> decide
  | token htoken _ =>
    obtain ⟨hwhole, c, k, offset, rfl, -, hread⟩ := htoken
    rintro _ ⟨⟩
    exact not_numeral_of_next hread hwhole (hhead _ rfl)

theorem kinds_of_spaced {ks : List Kind} {cs : List Char} (h : Spaced ks cs) (hparted : Parted ks)
    (offset : Nat) : kinds offset cs = ks := by
  induction h generalizing offset with
  | nil => exact kinds_nil offset
  | space hspace _ ih => rw [kinds_space hspace, ih hparted]
  | token htoken hrest ih =>
    obtain ⟨hwhole, c, k, o, rfl, hspace, hread⟩ := htoken
    obtain ⟨k', hk', hreads⟩ := next_reads hread hwhole
    rw [List.append_nil] at hk'
    obtain ⟨-, hends, hparted⟩ := hparted
    obtain ⟨o', hread'⟩ := hreads offset _ fun hscalar => ends_of_spaced hrest (hends hscalar)
    rw [List.cons_append, hk', kinds_next hspace hread', ih hparted]

/-- **The lexemes of a text are the tokens that it is made of.** -/
theorem spaced_iff {ks : List Kind} {cs : List Char} (h : Parted ks) (offset : Nat) :
    Spaced ks cs ↔ kinds offset cs = ks := by
  constructor
  · exact fun hspaced => kinds_of_spaced hspaced h offset
  · rintro rfl
    exact spaced_of_lexemes h.isWhole

end ShareKeeper.Json.Lexeme
