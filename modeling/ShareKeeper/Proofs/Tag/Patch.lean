import ShareKeeper.Proofs.Tag

/-!
# The change of tags as a patch

A change is carried out by taking away the keys of what it removes and putting what it adds over the
rest (`Change.apply`). Carried out on the tags that are observed, the change towards the desired ones
leaves under each key what the class of the key calls for (`find?_patched`): an observed reserved tag
wins over a desired one, elsewhere the desired tag wins, and what is not desired stays only under a
system key.

From this one equation follows that the change does what it has to and not more, and that it leaves
nothing to change (`mends_change`).
-/

namespace ShareKeeper

namespace Tag

/-- The keys that the controller attaches itself. -/
def IsAttached (k : String) : Prop := k = namespaceKey ∨ k = controllerVersionKey

theorem isSystem_iff {k : String} : isSystem k = true ↔ isReserved k = true ∨ IsAttached k := by
  simp [isSystem, IsAttached, or_assoc]

end Tag

namespace Tags

/-! ## What a change of tags holds -/

theorem contains_iff {m : Tags} {k : String} : m.contains k = true ↔ ∃ t, m.find? k = some t :=
  Option.isSome_iff_exists

/-- The desired tags with the reserved ones that are observed. -/
theorem find?_withReserved (desired observed : Tags) (k : String) :
    (desired.withReserved observed).find? k
      = if Tag.isReserved k then (observed.find? k).or (desired.find? k) else desired.find? k := by
  rw [withReserved, Roster.find?_union, Roster.find?_filter]
  cases ho : observed.find? k with
  | none => simp
  | some u =>
    rw [Option.filter_some, Roster.key_of_find? ho]
    cases Tag.isReserved k <;> rfl

section Change

variable (desired observed : List Tag) (k : String)

theorem find?_added :
    (change desired observed).toAdd.find? k
      = (((ofTags desired).withReserved (ofTags observed)).find? k).filter
          fun t => (ofTags observed).find? k ≠ some t := by
  rw [change, Roster.find?_filter]
  cases hd : ((ofTags desired).withReserved (ofTags observed)).find? k with
  | none => rfl
  | some t => rw [Option.filter_some, Option.filter_some, Roster.key_of_find? hd]

/-- Reserved keys are system keys, so the reserved tags among the desired ones make no difference to
what is removed. -/
theorem find?_removed :
    (change desired observed).toRemove.find? k
      = if (ofTags desired).contains k || Tag.isSystem k then none else (ofTags observed).find? k := by
  rw [change, Roster.find?_filter]
  cases ho : (ofTags observed).find? k with
  | none => simp
  | some u =>
    rw [Option.filter_some, Roster.key_of_find? ho, Roster.contains, find?_withReserved]
    cases hsystem : Tag.isSystem k with
    | true => simp
    | false =>
      have hfree := Tag.not_isReserved hsystem
      cases hd : (ofTags desired).find? k <;> simp [hfree, Roster.contains, hd]

/-- **What the change leaves under a key.** -/
theorem find?_patched :
    ((change desired observed).apply (ofTags observed)).find? k
      = if Tag.isReserved k then ((ofTags observed).find? k).or ((ofTags desired).find? k)
        else ((ofTags desired).find? k).or
          (if Tag.isSystem k then (ofTags observed).find? k else none) := by
  rw [Change.find?_apply, Roster.contains, find?_removed, find?_added, find?_withReserved,
    Roster.contains]
  cases hreserved : Tag.isReserved k with
  | true =>
    -- nothing is removed, and what is added is not observed
    rw [Tag.isSystem_of_isReserved hreserved]
    cases (ofTags observed).find? k <;> cases (ofTags desired).find? k <;>
      simp [Option.filter_some]
  | false =>
    cases hd : (ofTags desired).find? k with
    | none =>
      cases Tag.isSystem k <;> cases (ofTags observed).find? k <;> simp
    | some t =>
      -- a desired tag that is not added is there already
      by_cases ho : (ofTags observed).find? k = some t
      · simp [ho, Option.filter_some]
      · simp [ho, Option.filter_some]

/-- A change that is none. -/
theorem isEmpty_change_iff {desired observed : List Tag} :
    (change desired observed).isEmpty = true ↔
      (∀ k t, (ofTags desired).find? k = some t →
        ∃ u, (ofTags observed).find? k = some u ∧ (Tag.isReserved k = false → u = t)) ∧
      ∀ k, (ofTags observed).contains k = true →
        (ofTags desired).contains k = true ∨ Tag.isSystem k = true := by
  rw [Change.isEmpty_iff, forall_and]
  refine and_congr (forall_congr' fun k => ?_) (forall_congr' fun k => ?_)
  · rw [find?_added, find?_withReserved]
    cases hreserved : Tag.isReserved k with
    | true =>
      cases (ofTags observed).find? k <;> cases (ofTags desired).find? k <;> simp
    | false =>
      cases hd : (ofTags desired).find? k with
      | none => simp
      | some t =>
        by_cases ho : (ofTags observed).find? k = some t
        · simp [ho]
        · simp [ho]
  · rw [find?_removed, contains_iff]
    cases (ofTags observed).find? k <;> cases (ofTags desired).contains k <;>
      cases Tag.isSystem k <;> simp

end Change

/-! ## The patch -/

/-- A change that makes of the observed tags what it has to where some are desired, and that does
nothing beyond it. -/
structure Mends (desired observed : Tags) (c : Change Tag.key) : Prop where
  /-- Every desired key has its desired tag, but for reserved ones that are observed. -/
  fulfilled : ∀ k, desired.contains k = true →
    ¬ (Tag.isReserved k = true ∧ observed.contains k = true) →
    (c.apply observed).find? k = desired.find? k
  reserved : ∀ k, Tag.isReserved k = true → observed.contains k = true →
    (c.apply observed).find? k = observed.find? k
  /-- The tags that the controller attached are kept if nothing else is desired. -/
  attached : ∀ k, Tag.IsAttached k → observed.contains k = true → desired.contains k = false →
    (c.apply observed).find? k = observed.find? k
  /-- No other key is there. -/
  closed : ∀ k, (c.apply observed).contains k = true →
    desired.contains k = true ∨
      observed.contains k = true ∧ (Tag.isReserved k = true ∨ Tag.IsAttached k)
  disjoint : ∀ k, c.toAdd.contains k = true → c.toRemove.contains k = false
  /-- Whatever is added was not there. -/
  added : ∀ t ∈ c.toAdd.toList, observed.find? t.key ≠ some t
  /-- Whatever is removed was there, and it is the user's. -/
  removed : ∀ t ∈ c.toRemove.toList, observed.find? t.key = some t ∧ Tag.isSystem t.key = false

section Mends

variable (desired observed : List Tag)

theorem fulfilled_change {k : String} (hdesired : (ofTags desired).contains k = true)
    (hfree : ¬ (Tag.isReserved k = true ∧ (ofTags observed).contains k = true)) :
    ((change desired observed).apply (ofTags observed)).find? k = (ofTags desired).find? k := by
  obtain ⟨t, ht⟩ := contains_iff.1 hdesired
  rw [find?_patched, ht]
  split
  · next hreserved =>
    have hnone : (ofTags observed).find? k = none := by
      simpa [hreserved, Roster.contains] using hfree
    rw [hnone, Option.none_or]
  · rfl

/-- What stays of the observed tags: those that nobody but the service or the controller may touch. -/
theorem kept_change {k : String} (hsystem : Tag.isSystem k = true)
    (hobserved : (ofTags observed).contains k = true)
    (hfree : Tag.isReserved k = true ∨ (ofTags desired).contains k = false) :
    ((change desired observed).apply (ofTags observed)).find? k = (ofTags observed).find? k := by
  obtain ⟨u, hu⟩ := contains_iff.1 hobserved
  rw [find?_patched, hu, hsystem]
  split
  · rfl
  · next hreserved =>
    have hnone : (ofTags desired).find? k = none := by
      simpa [hreserved, Roster.contains] using hfree
    rw [hnone]
    rfl

theorem closed_change {k : String}
    (h : ((change desired observed).apply (ofTags observed)).contains k = true) :
    (ofTags desired).contains k = true ∨
      (ofTags observed).contains k = true ∧ Tag.isSystem k = true := by
  rw [Roster.contains, find?_patched] at h
  split at h
  · next hreserved =>
    rw [Option.isSome_or, Bool.or_eq_true] at h
    exact h.symm.imp_right fun h => ⟨h, Tag.isSystem_of_isReserved hreserved⟩
  · rw [Option.isSome_or, Bool.or_eq_true] at h
    refine h.imp_right fun h => ?_
    split at h
    · next hsystem => exact ⟨h, hsystem⟩
    · cases h

theorem disjoint_change {k : String} (h : (change desired observed).toAdd.contains k = true) :
    (change desired observed).toRemove.contains k = false := by
  rw [Roster.contains, find?_removed]
  split
  · rfl
  · next hkept =>
    -- a key that may be removed is neither desired nor reserved, so nothing is added under it
    simp only [Roster.contains, Bool.or_eq_true, not_or, Bool.not_eq_true, Option.isSome_eq_false_iff,
      Option.isNone_iff_eq_none] at hkept
    obtain ⟨t, ht⟩ := contains_iff.1 h
    rw [find?_added, find?_withReserved, Tag.not_isReserved hkept.2, if_neg Bool.false_ne_true,
      hkept.1] at ht
    cases ht

/-- After the change there is nothing to change. -/
theorem change_patched :
    (change desired ((change desired observed).apply (ofTags observed)).toList).isEmpty = true := by
  rw [isEmpty_change_iff, ofTags_toList]
  refine ⟨fun k t ht => ?_, fun k hk => (closed_change desired observed hk).imp_right And.right⟩
  rw [find?_patched, ht]
  split
  · next hreserved =>
    refine ⟨((ofTags observed).find? k).getD t, ?_, fun h => absurd h (by simp [hreserved])⟩
    cases (ofTags observed).find? k <;> rfl
  · exact ⟨t, rfl, fun _ => rfl⟩

/-- **The change of tags is a patch.** -/
theorem mends_change :
    Mends (ofTags desired) (ofTags observed) (change desired observed) ∧
      (change desired ((change desired observed).apply (ofTags observed)).toList).isEmpty = true where
  left := {
    fulfilled := fun k => fulfilled_change desired observed
    reserved := fun k hreserved hobserved => kept_change desired observed
      (Tag.isSystem_of_isReserved hreserved) hobserved (.inl hreserved)
    attached := fun k hattached hobserved hfree => kept_change desired observed
      (Tag.isSystem_iff.2 (.inr hattached)) hobserved (.inr hfree)
    closed := fun k hk => (closed_change desired observed hk).imp_right fun h =>
      ⟨h.1, Tag.isSystem_iff.1 h.2⟩
    disjoint := fun k => disjoint_change desired observed
    added := fun t ht => by simpa using (List.mem_filter.1 ht).2
    removed := fun t ht =>
      ⟨Roster.mem_toList_iff.1 (List.mem_filter.1 ht).1, not_isSystem_of_mem_toRemove ht⟩ }
  right := change_patched desired observed

end Mends

end Tags

end ShareKeeper
