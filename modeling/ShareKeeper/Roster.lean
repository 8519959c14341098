/-!
# Rosters: lists in ascending key order

A roster holds values of one type, each found under a key that the value itself carries, at most one
for each key, in ascending order of the keys. Tags by their key, sets of identifiers (an identifier
is its own key) and the entries of an account by their resource name are all rosters.

The order of keys is `String`'s `<`, which compares code points and so agrees with the order of the
encoded bytes.

## The view

Everything about a roster is said through `find?`: two rosters with the same `find?` are equal
(`Roster.ext_find?`), and each operation has one equation for it.
-/

namespace ShareKeeper

/-! ## Order of keys -/

theorem key_lt_of_not_lt {a b : String} (h : ¬ a < b) (hne : a ≠ b) : b < a := by
  have := String.not_lt.1 h
  grind

/-! ## Insertion into an ascending list -/

/-- Puts a value in its place, over the one that has the same key. -/
def insertByKey {α : Type} (key : α → String) (a : α) : List α → List α
  | [] => [a]
  | b :: rest =>
    if key a < key b then a :: b :: rest
    else if key a = key b then a :: rest
    else b :: insertByKey key a rest

theorem mem_insertByKey_of {α : Type} {key : α → String} {a b : α} {l : List α}
    (h : b ∈ insertByKey key a l) : b = a ∨ b ∈ l := by
  induction l with
  | nil => simpa [insertByKey] using h
  | cons c rest ih =>
    unfold insertByKey at h
    split at h
    · simpa using h
    · split at h
      · rcases List.mem_cons.1 h with h | h
        · exact .inl h
        · exact .inr (List.mem_cons_of_mem _ h)
      · rcases List.mem_cons.1 h with h | h
        · exact .inr (h ▸ List.mem_cons_self)
        · rcases ih h with h | h
          · exact .inl h
          · exact .inr (List.mem_cons_of_mem _ h)

theorem insertByKey_ascending {α : Type} {key : α → String} (a : α) {l : List α}
    (h : l.Pairwise (fun x y => key x < key y)) :
    (insertByKey key a l).Pairwise (fun x y => key x < key y) := by
  induction l with
  | nil => simp [insertByKey]
  | cons b rest ih =>
    have hb := (List.pairwise_cons.1 h).1
    have hrest := (List.pairwise_cons.1 h).2
    unfold insertByKey
    split
    · rename_i hlt
      refine List.pairwise_cons.2 ⟨?_, h⟩
      intro c hc
      rcases List.mem_cons.1 hc with rfl | hc
      · exact hlt
      · exact String.lt_trans hlt (hb c hc)
    · split
      · rename_i heq
        exact List.pairwise_cons.2 ⟨fun c hc => heq ▸ hb c hc, hrest⟩
      · rename_i hnlt hne
        refine List.pairwise_cons.2 ⟨?_, ih hrest⟩
        intro c hc
        rcases mem_insertByKey_of hc with rfl | hc
        · exact key_lt_of_not_lt hnlt hne
        · exact hb c hc

/-! ## Rosters -/

/-- Values in ascending order of their keys, at most one for each key. -/
structure Roster {α : Type} (key : α → String) where
  toList : List α
  ascending : toList.Pairwise (fun a b => key a < key b)

namespace Roster

variable {α : Type} {key : α → String}

@[ext] theorem ext_toList {r s : Roster key} (h : r.toList = s.toList) : r = s := by
  cases r; cases s; cases h; rfl

instance [DecidableEq α] : DecidableEq (Roster key) := fun r s =>
  if h : r.toList = s.toList then isTrue (ext_toList h) else isFalse (fun e => h (e ▸ rfl))

/-- The roster without values. -/
def empty : Roster key := ⟨[], .nil⟩

instance : Inhabited (Roster key) := ⟨empty⟩

def isEmpty (r : Roster key) : Bool := r.toList.isEmpty

/-- The value under a key. -/
def find? (r : Roster key) (k : String) : Option α := r.toList.find? (fun a => key a = k)

def contains (r : Roster key) (k : String) : Bool := (r.find? k).isSome

/-- The keys, ascending. -/
def keys (r : Roster key) : List String := r.toList.map key

/-- Puts a value under its key, over the one that was there. -/
def insert (r : Roster key) (a : α) : Roster key :=
  ⟨insertByKey key a r.toList, insertByKey_ascending a r.ascending⟩

/-- Keeps the values that satisfy a test. -/
def filter (r : Roster key) (p : α → Bool) : Roster key :=
  ⟨r.toList.filter p, r.ascending.filter p⟩

/-- Drops the value under a key. -/
def erase (r : Roster key) (k : String) : Roster key := r.filter (fun a => key a ≠ k)

/-- Puts all values of a list under their keys; of two with one key the later stays. -/
def insertAll (r : Roster key) (l : List α) : Roster key := l.foldl insert r

/-- The roster of a list; of two values with one key the later stays. -/
def ofList (l : List α) : Roster key := empty.insertAll l

/-- Both rosters together; under a common key the value of the second stays. -/
def union (r s : Roster key) : Roster key := r.insertAll s.toList

/-! ### Each operation through `find?` -/

theorem find?_eq_some_iff {r : Roster key} {k : String} {a : α} :
    r.find? k = some a ↔ a ∈ r.toList ∧ key a = k := by
  obtain ⟨l, h⟩ := r
  simp only [find?]
  induction l with
  | nil => simp
  | cons b rest ih =>
    have hb := (List.pairwise_cons.1 h).1
    have ih := ih (List.pairwise_cons.1 h).2
    by_cases hk : key b = k
    · simp only [List.find?_cons, hk, decide_true, Option.some.injEq, List.mem_cons]
      constructor
      · rintro rfl; exact ⟨.inl rfl, hk⟩
      · rintro ⟨rfl | ha, hak⟩
        · rfl
        · have hlt := hb a ha
          rw [hk, hak] at hlt
          exact absurd hlt (String.lt_irrefl k)
    · simp only [List.find?_cons, hk, decide_false, List.mem_cons]
      rw [ih]
      constructor
      · rintro ⟨ha, hak⟩; exact ⟨.inr ha, hak⟩
      · rintro ⟨rfl | ha, hak⟩
        · exact absurd hak hk
        · exact ⟨ha, hak⟩

theorem mem_toList_iff {r : Roster key} {a : α} : a ∈ r.toList ↔ r.find? (key a) = some a := by
  simp [find?_eq_some_iff]

theorem key_of_find? {r : Roster key} {k : String} {a : α} (h : r.find? k = some a) : key a = k :=
  (find?_eq_some_iff.1 h).2

theorem find?_eq_none_iff {r : Roster key} {k : String} :
    r.find? k = none ↔ ∀ a ∈ r.toList, key a ≠ k := by
  simp [find?]

@[simp] theorem find?_empty (k : String) : (empty : Roster key).find? k = none := rfl

@[simp] theorem toList_filter (r : Roster key) (p : α → Bool) :
    (r.filter p).toList = r.toList.filter p := rfl

theorem find?_filter (r : Roster key) (p : α → Bool) (k : String) :
    (r.filter p).find? k = (r.find? k).filter p := by
  cases hf : r.find? k with
  | none =>
    rw [find?_eq_none_iff] at hf
    simp only [Option.filter_none, find?_eq_none_iff, toList_filter, List.mem_filter]
    exact fun a ha => hf a ha.1
  | some a =>
    obtain ⟨hmem, hkey⟩ := find?_eq_some_iff.1 hf
    by_cases hp : p a
    · simp only [Option.filter_some, hp, if_true, find?_eq_some_iff, toList_filter, List.mem_filter]
      exact ⟨⟨hmem, trivial⟩, hkey⟩
    · rw [Option.filter_some, if_neg hp, find?_eq_none_iff]
      intro b hmem hbk
      obtain ⟨hb, hpb⟩ := List.mem_filter.1 hmem
      have : r.find? k = some b := find?_eq_some_iff.2 ⟨hb, hbk⟩
      rw [hf] at this
      exact hp (Option.some.inj this ▸ hpb)

theorem find?_erase (r : Roster key) (k j : String) :
    (r.erase k).find? j = if j = k then none else r.find? j := by
  rw [erase, find?_filter]
  cases hf : r.find? j with
  | none => simp
  | some a =>
    have := key_of_find? hf
    by_cases hj : j = k <;> simp [Option.filter_some, this, hj]

theorem find?_insert (r : Roster key) (a : α) (k : String) :
    (r.insert a).find? k = if k = key a then some a else r.find? k := by
  obtain ⟨l, h⟩ := r
  simp only [find?, insert]
  induction l with
  | nil =>
    by_cases hk : k = key a
    · simp [insertByKey, hk]
    · simp [insertByKey, hk, Ne.symm hk]
  | cons b rest ih =>
    have hb := (List.pairwise_cons.1 h).1
    have ih := ih (List.pairwise_cons.1 h).2
    unfold insertByKey
    split
    · by_cases hk : k = key a
      · simp [hk]
      · simp [List.find?_cons, hk, Ne.symm hk]
    · split
      · rename_i heq
        by_cases hk : k = key a
        · simp [hk]
        · have hbk : ¬ key b = k := fun e => hk (e ▸ heq.symm)
          simp [hk, Ne.symm hk, hbk]
      · rename_i hnlt hne
        by_cases hbk : key b = k
        · have hk : k ≠ key a := fun e => hne (by rw [hbk, e])
          simp [hbk, hk]
        · simp only [List.find?_cons, hbk, decide_false]
          exact ih

/-- **Two rosters that answer alike are equal.** -/
theorem ext_find? {r s : Roster key} (h : ∀ k, r.find? k = s.find? k) : r = s := by
  obtain ⟨l, hl⟩ := r
  obtain ⟨m, hm⟩ := s
  have hmem : ∀ a, a ∈ l ↔ a ∈ m := by
    intro a
    have h1 := mem_toList_iff (r := ⟨l, hl⟩) (a := a)
    have h2 := mem_toList_iff (r := ⟨m, hm⟩) (a := a)
    rw [h (key a)] at h1
    exact h1.trans h2.symm
  clear h
  have : l = m := by
    induction l generalizing m with
    | nil =>
      cases m with
      | nil => rfl
      | cons b m => exact absurd ((hmem b).2 List.mem_cons_self) (List.not_mem_nil)
    | cons a l ih =>
      cases m with
      | nil => exact absurd ((hmem a).1 List.mem_cons_self) (List.not_mem_nil)
      | cons b m =>
        have ha := (List.pairwise_cons.1 hl).1
        have hb := (List.pairwise_cons.1 hm).1
        have hab : a = b := by
          rcases List.mem_cons.1 ((hmem a).1 List.mem_cons_self) with h | h
          · exact h
          · rcases List.mem_cons.1 ((hmem b).2 List.mem_cons_self) with h' | h'
            · exact h'.symm
            · exact absurd (ha b h') (String.lt_asymm (hb a h))
        subst hab
        congr 1
        refine ih (List.pairwise_cons.1 hl).2 m (List.pairwise_cons.1 hm).2 ?_
        intro c
        constructor
        · intro hc
          rcases List.mem_cons.1 ((hmem c).1 (List.mem_cons_of_mem _ hc)) with rfl | h
          · exact absurd (ha c hc) (String.lt_irrefl _)
          · exact h
        · intro hc
          rcases List.mem_cons.1 ((hmem c).2 (List.mem_cons_of_mem _ hc)) with rfl | h
          · exact absurd (hb c hc) (String.lt_irrefl _)
          · exact h
  exact ext_toList this

end Roster

/-! ## Sets of identifiers -/

/-- An ascending list of distinct identifiers. -/
abbrev NameSet := Roster (id : String → String)

end ShareKeeper
