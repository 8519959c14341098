import Mathlib.Data.List.Nodup
import Mathlib.Data.List.Perm.Basic
import Mathlib.Tactic.Tauto
import ShareKeeper.Account

/-!
# What is found in a roster

`Roster.find?` sees everything about a roster. Here it is followed through whole lists of insertions:
of the values with one key the last one inserted is found. A set of identifiers is seen through
membership, which is the same question asked of a roster whose values are their own keys.
-/

namespace ShareKeeper

namespace Roster

variable {α : Type} {key : α → String}

/-- The last value of a list under a key, before what was there already. -/
theorem find?_insertAll (r : Roster key) (l : List α) (k : String) :
    (r.insertAll l).find? k = (l.reverse.find? (fun a => key a = k)).or (r.find? k) := by
  induction l generalizing r with
  | nil => simp [insertAll]
  | cons a l ih =>
    have hstep : r.insertAll (a :: l) = (r.insert a).insertAll l := rfl
    rw [hstep, ih, List.reverse_cons, List.find?_append, Option.or_assoc, find?_insert]
    by_cases hk : k = key a
    · simp [hk]
    · simp [hk, Ne.symm hk]

/-- **The last value of each key counts.** -/
theorem find?_ofList (l : List α) (k : String) :
    (ofList l : Roster key).find? k = l.reverse.find? (fun a => key a = k) := by
  simp [ofList, find?_insertAll]

/-- The values of a roster, inserted one after another, are found as they were. -/
theorem find?_reverse_toList (r : Roster key) (k : String) :
    r.toList.reverse.find? (fun a => key a = k) = r.find? k := by
  cases hf : r.find? k with
  | none =>
    rw [List.find?_eq_none]
    intro a ha
    simpa using find?_eq_none_iff.1 hf a (List.mem_reverse.1 ha)
  | some a =>
    obtain ⟨hmem, hkey⟩ := find?_eq_some_iff.1 hf
    -- no other value has the key, so it makes no difference from which end it is looked for
    cases hg : r.toList.reverse.find? (fun a => key a = k) with
    | none =>
      have := List.find?_eq_none.1 hg a (List.mem_reverse.2 hmem)
      exact absurd hkey (by simpa using this)
    | some b =>
      have hb : key b = k := by simpa using List.find?_some hg
      have hbm : b ∈ r.toList := List.mem_reverse.1 (List.mem_of_find?_eq_some hg)
      rw [← hf, find?_eq_some_iff.2 ⟨hbm, hb⟩]

theorem find?_union (r s : Roster key) (k : String) :
    (r.union s).find? k = (s.find? k).or (r.find? k) := by
  rw [union, find?_insertAll, find?_reverse_toList]

/-- A roster is the roster of its own values. -/
theorem ofList_toList (r : Roster key) : ofList r.toList = r :=
  ext_find? fun k => by rw [find?_ofList, find?_reverse_toList]

theorem isEmpty_iff {r : Roster key} : r.isEmpty = true ↔ ∀ k, r.find? k = none := by
  rw [isEmpty, List.isEmpty_iff]
  constructor
  · intro h k
    exact find?_eq_none_iff.2 (by simp [h])
  · intro h
    exact List.eq_nil_iff_forall_not_mem.2 fun a ha => by
      simpa [h] using mem_toList_iff.1 ha

theorem toList_eq_nil_of_isEmpty {r : Roster key} (h : r.isEmpty = true) : r.toList = [] :=
  List.isEmpty_iff.1 h

theorem mem_keys_iff {r : Roster key} {k : String} : k ∈ r.keys ↔ (r.find? k).isSome = true := by
  rw [keys, List.mem_map, Option.isSome_iff_exists]
  exact exists_congr fun a => find?_eq_some_iff.symm

/-- Putting back what is there changes nothing. -/
theorem insert_self {r : Roster key} {k : String} {a : α} (h : r.find? k = some a) :
    r.insert a = r := by
  refine ext_find? fun j => ?_
  rw [find?_insert]
  split
  · next hj => rw [hj, key_of_find? h, h]
  · rfl

/-- What is true of every value under its key stays true when such a value is put in. -/
theorem forall_insert {r : Roster key} {P : String → α → Prop}
    (h : ∀ k b, r.find? k = some b → P k b) {a : α} (ha : P (key a) a) :
    ∀ k b, (r.insert a).find? k = some b → P k b := by
  intro k b hb
  rw [find?_insert] at hb
  split at hb
  · next hk =>
    cases hb
    rw [hk]
    exact ha
  · exact h k b hb

/-- Of two values put under one key the second stays. -/
theorem insert_insert (r : Roster key) {a b : α} (h : key a = key b) :
    (r.insert a).insert b = r.insert b := by
  refine ext_find? fun j => ?_
  rw [find?_insert, find?_insert, find?_insert, h]
  split <;> rfl

/-- Values under different keys are put in in any order. -/
theorem insert_comm (r : Roster key) {a b : α} (h : key a ≠ key b) :
    (r.insert a).insert b = (r.insert b).insert a := by
  refine ext_find? fun j => ?_
  rw [find?_insert, find?_insert, find?_insert, find?_insert]
  by_cases ha : j = key a
  · rw [if_neg (ha ▸ h), if_pos ha, if_pos ha]
  · rw [if_neg ha, if_neg ha]

/-- **Where no key is given twice the order of a list does not matter.** -/
theorem ofList_perm {l m : List α} (h : l.Perm m) (hkeys : (l.map key).Nodup) :
    (ofList l : Roster key) = ofList m := by
  refine h.foldl_eq' (fun a ha b hb r => ?_) empty
  by_cases hkey : key a = key b
  · rw [List.inj_on_of_nodup_map hkeys ha hb hkey]
  · exact insert_comm r hkey

theorem toList_insertAll (r : Roster key) (l : List α) :
    (r.insertAll l).toList = l.foldl (fun done a => insertByKey key a done) r.toList := by
  induction l generalizing r with
  | nil => rfl
  | cons a l ih => exact ih (r.insert a)

theorem nodup_keys (r : Roster key) : r.keys.Nodup := by
  rw [keys, List.Nodup, List.pairwise_map]
  refine r.ascending.imp fun {a b} hlt heq => ?_
  rw [heq] at hlt
  exact String.lt_irrefl _ hlt

theorem contains_keys (r : Roster key) (k : String) : r.keys.contains k = r.contains k := by
  rw [Bool.eq_iff_iff, List.contains_iff_mem, mem_keys_iff, contains]

end Roster

/-! ## Carrying out a change -/

namespace Change

variable {α : Type} {key : α → String}

/-- A roster after a change: without what is removed, and with what is added over the rest. -/
def apply (c : Change key) (r : Roster key) : Roster key :=
  (r.filter fun a => !c.toRemove.contains (key a)).union c.toAdd

theorem find?_apply (c : Change key) (r : Roster key) (k : String) :
    (c.apply r).find? k
      = (c.toAdd.find? k).or (if c.toRemove.contains k then none else r.find? k) := by
  rw [apply, Roster.find?_union, Roster.find?_filter]
  cases hr : r.find? k with
  | none => simp
  | some a =>
    rw [Option.filter_some, Roster.key_of_find? hr]
    cases c.toRemove.contains k <;> rfl

theorem isEmpty_iff {c : Change key} :
    c.isEmpty = true ↔ ∀ k, c.toAdd.find? k = none ∧ c.toRemove.find? k = none := by
  rw [isEmpty, Bool.and_eq_true, Roster.isEmpty_iff, Roster.isEmpty_iff, forall_and]

end Change

/-! ## Sets of identifiers -/

namespace NameSet

instance : Membership String NameSet where
  mem s x := s.contains x = true

instance (s : NameSet) (x : String) : Decidable (x ∈ s) := inferInstanceAs (Decidable (_ = true))

theorem contains_iff {s : NameSet} {x : String} : s.contains x = true ↔ x ∈ s := Iff.rfl

theorem mem_iff_find? {s : NameSet} {x : String} : x ∈ s ↔ s.find? x = some x := by
  rw [← contains_iff, Roster.contains, Option.isSome_iff_exists]
  constructor
  · rintro ⟨y, hy⟩
    rw [hy, ← Roster.key_of_find? hy]
    rfl
  · exact fun h => ⟨x, h⟩

@[simp] theorem mem_toList {s : NameSet} {x : String} : x ∈ s.toList ↔ x ∈ s := by
  rw [mem_iff_find?]
  exact Roster.mem_toList_iff

/-- **Sets with the same members are equal.** -/
theorem ext_mem {s t : NameSet} (h : ∀ x, x ∈ s ↔ x ∈ t) : s = t := by
  refine Roster.ext_find? fun x => ?_
  by_cases hx : x ∈ s
  · rw [mem_iff_find?.1 hx, mem_iff_find?.1 ((h x).1 hx)]
  · have ht : x ∉ t := fun ht => hx ((h x).2 ht)
    rw [← contains_iff, Roster.contains, Option.not_isSome_iff_eq_none] at hx ht
    rw [hx, ht]

@[simp] theorem not_mem_empty {x : String} : x ∉ (Roster.empty : NameSet) := by
  simp [← contains_iff, Roster.contains]

@[simp] theorem mem_filter {s : NameSet} {p : String → Bool} {x : String} :
    x ∈ s.filter p ↔ x ∈ s ∧ p x = true := by
  rw [← mem_toList, Roster.toList_filter, List.mem_filter, mem_toList]

@[simp] theorem mem_insertAll {s : NameSet} {l : List String} {x : String} :
    x ∈ s.insertAll l ↔ x ∈ l ∨ x ∈ s := by
  have hfind : (l.reverse.find? (fun a => decide (id a = x))).isSome = true ↔ x ∈ l := by
    simp
  rw [← contains_iff, Roster.contains, Roster.find?_insertAll, Option.isSome_or, Bool.or_eq_true,
    hfind]
  rfl

@[simp] theorem mem_ofNames {l : List String} {x : String} : x ∈ ofNames l ↔ x ∈ l := by
  rw [ofNames, Roster.ofList, mem_insertAll]
  simp

theorem ofNames_toList (s : NameSet) : ofNames s.toList = s := Roster.ofList_toList s

theorem ofNames_eq_iff {a b : List String} : ofNames a = ofNames b ↔ ∀ x, x ∈ a ↔ x ∈ b := by
  constructor
  · intro h x
    rw [← mem_ofNames, h, mem_ofNames]
  · exact fun h => ext_mem fun x => by simpa using h x

theorem sameElements_iff {a b : List String} :
    sameElements a b = true ↔ ofNames a = ofNames b := by
  simp [sameElements]

/-! ### Changes -/

@[simp] theorem mem_toAdd {desired observed : List String} {x : String} :
    x ∈ (change desired observed).toAdd ↔ x ∈ desired ∧ x ∉ observed := by
  simp only [change, mem_filter, mem_ofNames, Bool.not_eq_true', ← Bool.not_eq_true, contains_iff]

@[simp] theorem mem_toRemove {desired observed : List String} {x : String} :
    x ∈ (change desired observed).toRemove ↔ x ∈ observed ∧ x ∉ desired := by
  simp only [change, mem_filter, mem_ofNames, Bool.not_eq_true', ← Bool.not_eq_true, contains_iff]

/-- There is nothing to change exactly between lists with the same elements. -/
theorem change_eq_nil_iff {desired observed : List String} :
    (change desired observed).toAdd.toList = [] ∧ (change desired observed).toRemove.toList = []
      ↔ ofNames desired = ofNames observed := by
  rw [ofNames_eq_iff, List.eq_nil_iff_forall_not_mem, List.eq_nil_iff_forall_not_mem, ← forall_and]
  refine forall_congr' fun x => ?_
  rw [mem_toList, mem_toList, mem_toAdd, mem_toRemove]
  tauto

end NameSet

/-! ## Sets of the account -/

namespace Account

@[simp] theorem mem_addNames {s : NameSet} {l : List String} {x : String} :
    x ∈ addNames s l ↔ x ∈ l ∨ x ∈ s := NameSet.mem_insertAll

@[simp] theorem mem_dropNames {s : NameSet} {l : List String} {x : String} :
    x ∈ dropNames s l ↔ x ∈ s ∧ x ∉ l := by
  simp [dropNames]

@[simp] theorem addNames_nil (s : NameSet) : addNames s [] = s := rfl

@[simp] theorem dropNames_nil (s : NameSet) : dropNames s [] = s :=
  NameSet.ext_mem fun x => by simp

/-- A set that went through the change from `observed` to `desired`. -/
def track (desired observed : List String) (s : NameSet) : NameSet :=
  addNames (dropNames s (NameSet.change desired observed).toRemove.toList)
    (NameSet.change desired observed).toAdd.toList

theorem mem_track {desired observed : List String} {s : NameSet} {x : String} :
    x ∈ track desired observed s ↔
      (x ∈ desired ∧ x ∉ observed) ∨ (x ∈ s ∧ ¬ (x ∈ observed ∧ x ∉ desired)) := by
  simp [track]

/-- **What was observed truly is moved onto what is desired.** -/
theorem track_toList (desired : List String) (s : NameSet) :
    track desired s.toList s = NameSet.ofNames desired := by
  refine NameSet.ext_mem fun x => ?_
  rw [mem_track, NameSet.mem_ofNames, NameSet.mem_toList]
  tauto

/-- Where nothing seems to differ nothing is moved. -/
theorem track_of_same {desired observed : List String} (s : NameSet)
    (h : NameSet.ofNames desired = NameSet.ofNames observed) : track desired observed s = s := by
  obtain ⟨hadd, hremove⟩ := NameSet.change_eq_nil_iff.2 h
  rw [track, hadd, hremove, dropNames_nil, addNames_nil]

/-- **The outcome is right exactly where the desired set agrees with the actual one on every
identifier about which the observation was wrong.** -/
theorem track_eq_iff {desired observed : List String} {s : NameSet} :
    track desired observed s = NameSet.ofNames desired ↔
      ∀ x, ¬ (x ∈ s ↔ x ∈ observed) → (x ∈ s ↔ x ∈ desired) := by
  constructor
  · intro h x hx
    have hm : x ∈ track desired observed s ↔ x ∈ NameSet.ofNames desired := by rw [h]
    rw [mem_track, NameSet.mem_ofNames] at hm
    tauto
  · intro h
    refine NameSet.ext_mem fun x => ?_
    rw [mem_track, NameSet.mem_ofNames]
    have := h x
    tauto

end Account

end ShareKeeper
