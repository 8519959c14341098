import Mathlib.Data.List.Perm.Subperm
import ShareKeeper.Proofs.Roster
import ShareKeeper.Proofs.Text.Bytes

/-!
# The change between two sets of identifiers

What has to be added to the observed identifiers and what has to be removed from them, so that the desired
ones are left. The change does that (`apply_change`), and every other change that does it adds and removes
the same identifiers and perhaps more (`toAdd_subset_of_apply`, `toRemove_subset_of_apply`). It depends on
the two sets alone (`change_congr`), turns around with them (`change_swap`), and is empty exactly between
lists with the same elements (`isEmpty_change_iff_sameElements`).
-/

namespace ShareKeeper

/-- A change with the two sides in each other's place. -/
def Change.swap {α : Type} {key : α → String} (c : Change key) : Change key := ⟨c.toRemove, c.toAdd⟩

namespace NameSet

variable {desired observed : List String}

/-! ## Sets -/

/-- The members of a set stand in it in the order of their bytes. -/
theorem pairwise_bytes (s : NameSet) : (s.toList.map Text.bytes).Pairwise (· < ·) := by
  rw [List.pairwise_map]
  exact s.ascending.imp fun h => Text.bytes_lt_iff.2 h

theorem nodup_toList (s : NameSet) : s.toList.Nodup := by
  have h := Roster.nodup_keys s
  rwa [Roster.keys, List.map_id] at h

theorem length_le_of_subset {s t : NameSet} (h : s.toList ⊆ t.toList) :
    s.toList.length ≤ t.toList.length :=
  (List.subperm_of_subset (nodup_toList s) h).length_le

theorem mem_apply {c : Change (id : String → String)} {s : NameSet} {x : String} :
    x ∈ c.apply s ↔ x ∈ c.toAdd ∨ x ∈ s ∧ x ∉ c.toRemove := by
  rw [Change.apply, Roster.union, mem_insertAll, mem_toList, mem_filter, Bool.not_eq_true',
    ← Bool.not_eq_true]
  rfl

/-! ## What the change does -/

/-- **The change moves what is observed onto what is desired.** -/
theorem apply_change : (change desired observed).apply (ofNames observed) = ofNames desired := by
  refine ext_mem fun x => ?_
  rw [mem_apply, mem_toAdd, mem_toRemove, mem_ofNames, mem_ofNames]
  tauto

section Apply

variable {c : Change (id : String → String)} (h : c.apply (ofNames observed) = ofNames desired)
include h

theorem mem_desired_iff {x : String} :
    x ∈ desired ↔ x ∈ c.toAdd ∨ x ∈ observed ∧ x ∉ c.toRemove := by
  rw [← mem_ofNames, ← h, mem_apply, mem_ofNames]

/-- What is lacking is added by every change that arrives at what is desired. -/
theorem toAdd_subset_of_apply : (change desired observed).toAdd.toList ⊆ c.toAdd.toList := by
  intro x hx
  rw [mem_toList] at hx ⊢
  obtain ⟨hdesired, hobserved⟩ := mem_toAdd.1 hx
  obtain hadd | ⟨hkept, -⟩ := (mem_desired_iff h).1 hdesired
  · exact hadd
  · exact absurd hkept hobserved

/-- What is too much is removed by every change that arrives at what is desired. -/
theorem toRemove_subset_of_apply :
    (change desired observed).toRemove.toList ⊆ c.toRemove.toList := by
  intro x hx
  rw [mem_toList] at hx ⊢
  obtain ⟨hobserved, hdesired⟩ := mem_toRemove.1 hx
  by_contra hkept
  exact hdesired ((mem_desired_iff h).2 (.inr ⟨hobserved, hkept⟩))

end Apply

/-! ## What the change depends on -/

theorem change_swap : change observed desired = (change desired observed).swap := rfl

/-- **Order and repetition play no part.** -/
theorem change_congr {desired' observed' : List String} (hdesired : ∀ x, x ∈ desired' ↔ x ∈ desired)
    (hobserved : ∀ x, x ∈ observed' ↔ x ∈ observed) :
    change desired' observed' = change desired observed := by
  rw [change, change, ofNames_eq_iff.2 hdesired, ofNames_eq_iff.2 hobserved]

/-- There is nothing to do exactly between lists with the same elements. -/
theorem isEmpty_change_iff_sameElements :
    (change desired observed).isEmpty = true ↔ sameElements desired observed = true := by
  rw [Change.isEmpty, Bool.and_eq_true, Roster.isEmpty, Roster.isEmpty, List.isEmpty_iff,
    List.isEmpty_iff, change_eq_nil_iff, sameElements_iff]

/-! ## The difference of two sets -/

/-- What is to be said of the change from observed to desired identifiers in itself. -/
structure IsDifference (desired observed : List String) (c : Change (id : String → String)) : Prop where
  disjoint : c.toAdd.toList.Disjoint c.toRemove.toList
  /-- Both sides are without repetition, in the order of bytes. -/
  nodup : c.toAdd.toList.Nodup ∧ c.toRemove.toList.Nodup
  ascending : (c.toAdd.toList.map Text.bytes).Pairwise (· < ·) ∧
    (c.toRemove.toList.map Text.bytes).Pairwise (· < ·)
  added : ∀ x ∈ c.toAdd.toList, x ∈ desired ∧ x ∉ observed
  removed : ∀ x ∈ c.toRemove.toList, x ∈ observed ∧ x ∉ desired
  arrives : c.apply (ofNames observed) = ofNames desired
  /-- No change that arrives there does without any of it. -/
  least : ∀ other : Change (id : String → String), other.apply (ofNames observed) = ofNames desired →
    c.toAdd.toList ⊆ other.toAdd.toList ∧ c.toRemove.toList ⊆ other.toRemove.toList
  fewest : ∀ other : Change (id : String → String), other.apply (ofNames observed) = ofNames desired →
    c.toAdd.toList.length ≤ other.toAdd.toList.length ∧
      c.toRemove.toList.length ≤ other.toRemove.toList.length

theorem isDifference_change : IsDifference desired observed (change desired observed) where
  disjoint := by
    intro x hadd hremove
    obtain ⟨hdesired, -⟩ := mem_toAdd.1 (mem_toList.1 hadd)
    obtain ⟨-, hundesired⟩ := mem_toRemove.1 (mem_toList.1 hremove)
    exact hundesired hdesired
  nodup := ⟨nodup_toList _, nodup_toList _⟩
  ascending := ⟨pairwise_bytes _, pairwise_bytes _⟩
  added := fun _ hx => mem_toAdd.1 (mem_toList.1 hx)
  removed := fun _ hx => mem_toRemove.1 (mem_toList.1 hx)
  arrives := apply_change
  least := fun _ h => ⟨toAdd_subset_of_apply h, toRemove_subset_of_apply h⟩
  fewest := by
    intro other h
    have hadd := length_le_of_subset (toAdd_subset_of_apply h)
    have hremove := length_le_of_subset (toRemove_subset_of_apply h)
    exact ⟨hadd, hremove⟩

/-- The laws of the difference between two lists of identifiers. -/
structure Lawful (desired observed : List String) : Prop where
  difference : IsDifference desired observed (change desired observed)
  swapped : change observed desired = (change desired observed).swap
  /-- Only what the elements of the lists are plays a part. -/
  sameChange : ∀ desired' observed' : List String, (∀ x, x ∈ desired' ↔ x ∈ desired) →
    (∀ x, x ∈ observed' ↔ x ∈ observed) → change desired' observed' = change desired observed
  nothing : (change desired observed).isEmpty = true ↔ sameElements desired observed = true
  sameElements : NameSet.sameElements desired observed = true ↔ ∀ x, x ∈ desired ↔ x ∈ observed

/-- **The difference of two lists of identifiers** leads from the observed ones to the desired ones with the
least that does, in ascending order and without repetition, whatever order and repetition the lists
have. -/
theorem lawful_change (desired observed : List String) : Lawful desired observed where
  difference := isDifference_change
  swapped := change_swap
  sameChange := fun _ _ => change_congr
  nothing := isEmpty_change_iff_sameElements
  sameElements := by rw [sameElements_iff, ofNames_eq_iff]

end NameSet

end ShareKeeper
