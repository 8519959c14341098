import ShareKeeper.Manager
import ShareKeeper.Proofs.Roster

/-!
# What becomes of a list of tags

The service keeps tags in a list and changes it by dropping keys and by putting tags at its end. Seen
through the map of its last values, the first filters the map and the second inserts into it. From
this follows what the controller does to the tags of an entity: it makes the tags of the user what
the specification asks for (`agree_settle`), and where they are so already it asks for nothing
(`change_of_agree`).
-/

namespace ShareKeeper

open Account

namespace Tag

theorem not_isReserved {k : String} (h : isSystem k = false) : isReserved k = false := by
  simp only [isSystem, Bool.or_eq_false_iff] at h
  exact h.1.1

end Tag

namespace Tags

/-! ## Maps of lists that change -/

theorem find?_ofTags (l : List Tag) (k : String) :
    (ofTags l).find? k = l.reverse.find? (fun t => t.key = k) := Roster.find?_ofList l k

@[simp] theorem ofTags_toList (m : Tags) : ofTags m.toList = m := Roster.ofList_toList m

/-- The map of a list has the keys of the list. -/
theorem contains_ofTags {l : List Tag} {k : String} :
    (ofTags l).contains k = true ↔ k ∈ l.map Tag.key := by
  rw [Roster.contains, find?_ofTags, List.find?_isSome]
  simp

/-- A list of tags names no key twice. -/
def DistinctKeys (l : List Tag) : Prop := (l.map Tag.key).Nodup

instance (l : List Tag) : Decidable (DistinctKeys l) := inferInstanceAs (Decidable (List.Nodup _))

theorem distinctKeys_toList (m : Tags) : DistinctKeys m.toList := m.nodup_keys

/-- A list without the tags under some keys. -/
theorem ofTags_filter (l : List Tag) (p : String → Bool) :
    ofTags (l.filter fun t => p t.key) = (ofTags l).filter (fun t => p t.key) := by
  refine Roster.ext_find? fun k => ?_
  rw [Roster.find?_filter, find?_ofTags, find?_ofTags, ← List.filter_reverse, List.find?_filter]
  cases hp : p k with
  | true =>
    -- a tag with the key passes the filter anyway
    have : (fun t : Tag => decide (p t.key = true ∧ decide (t.key = k) = true))
        = fun t => decide (t.key = k) := by
      funext t
      by_cases ht : t.key = k <;> simp [ht, hp]
    rw [this]
    cases hf : l.reverse.find? (fun t => decide (t.key = k)) with
    | none => rfl
    | some t =>
      have ht : t.key = k := by simpa using List.find?_some hf
      simp [Option.filter_some, ht, hp]
  | false =>
    rw [List.find?_eq_none.2]
    · cases hf : l.reverse.find? (fun t => decide (t.key = k)) with
      | none => rfl
      | some t =>
        have ht : t.key = k := by simpa using List.find?_some hf
        simp [Option.filter_some, ht, hp]
    · intro t _ ht
      simp only [decide_eq_true_eq] at ht
      rw [ht.2, hp] at ht
      exact Bool.noConfusion ht.1

theorem ofTags_dropTags (l : List Tag) (keys : List String) :
    ofTags (dropTags l keys) = (ofTags l).filter (fun t => !keys.contains t.key) :=
  ofTags_filter l fun k => !keys.contains k

theorem ofTags_putTag (l : List Tag) (t : Tag) : ofTags (putTag l t) = (ofTags l).insert t := by
  have happ : ofTags (putTag l t) = (ofTags (l.filter fun u => u.key ≠ t.key)).insert t := by
    simp [putTag, ofTags, Roster.ofList, Roster.insertAll]
  -- the keys that are dropped before are the ones that the insertion takes over
  rw [happ, ofTags_filter l fun k => decide (k ≠ t.key)]
  refine Roster.ext_find? fun k => ?_
  rw [Roster.find?_insert, Roster.find?_insert, Roster.find?_filter]
  by_cases hk : k = t.key
  · rw [if_pos hk, if_pos hk]
  · rw [if_neg hk, if_neg hk]
    cases hf : (ofTags l).find? k with
    | none => rfl
    | some u =>
      have hu : u.key = k := Roster.key_of_find? hf
      simp [Option.filter_some, hu, hk]

theorem ofTags_putTags (l new : List Tag) : ofTags (putTags l new) = (ofTags l).insertAll new := by
  induction new generalizing l with
  | nil => rfl
  | cons t new ih =>
    show ofTags (putTags (putTag l t) new) = ((ofTags l).insert t).insertAll new
    rw [ih, ofTags_putTag]

/-- A change of the list is the change of its map. -/
theorem ofTags_change (l : List Tag) (c : Change Tag.key) :
    ofTags (putTags (dropTags l c.toRemove.keys) c.toAdd.toList) = c.apply (ofTags l) := by
  rw [ofTags_putTags, ofTags_dropTags]
  simp only [Roster.contains_keys]
  rfl

/-! ## The tags of the user -/

/-- Whether two lists of tags agree on everything but system keys. -/
def Agree (a b : List Tag) : Prop := (ofTags a).withoutSystem = (ofTags b).withoutSystem

/-- Looked up among the tags of the user, a system key is not there. -/
theorem find?_withoutSystem_eq (m : Tags) (k : String) :
    m.withoutSystem.find? k = if Tag.isSystem k then none else m.find? k := by
  rw [find?_withoutSystem]
  cases hf : m.find? k with
  | none => simp
  | some t => cases hk : Tag.isSystem k <;> simp [Option.filter_some, Roster.key_of_find? hf, hk]

theorem agree_iff {a b : List Tag} :
    Agree a b ↔ ∀ k, Tag.isSystem k = false → (ofTags a).find? k = (ofTags b).find? k := by
  constructor
  · intro h k hk
    have := congrArg (fun m => m.find? k) h
    simpa [find?_withoutSystem_eq, hk] using this
  · intro h
    refine Roster.ext_find? fun k => ?_
    rw [find?_withoutSystem_eq, find?_withoutSystem_eq]
    cases hk : Tag.isSystem k with
    | true => rfl
    | false => simpa using h k hk

@[simp] theorem ofTags_visible (l : List Tag) : ofTags (visible l) = (ofTags l).withoutSystem :=
  ofTags_toList _

/-- The tags that are visible to the user are not reserved. -/
theorem withReserved_visible (m : Tags) (l : List Tag) :
    m.withReserved (ofTags (visible l)) = m := by
  have hnone : ((ofTags (visible l)).filter fun t => Tag.isReserved t.key).toList = [] := by
    refine Roster.toList_eq_nil_of_isEmpty (Roster.isEmpty_iff.2 fun k => ?_)
    rw [Roster.find?_filter, ofTags_visible, find?_withoutSystem]
    cases (ofTags l).find? k with
    | none => rfl
    | some t => cases ht : Tag.isSystem t.key <;> simp [Option.filter_some, ht, Tag.not_isReserved]
  rw [withReserved, Roster.union, hnone]
  rfl

theorem find?_toAdd (desired l : List Tag) (k : String) :
    (change desired (visible l)).toAdd.find? k
      = ((ofTags desired).find? k).filter fun t => (ofTags l).withoutSystem.find? t.key ≠ some t := by
  rw [change, Roster.find?_filter, withReserved_visible, ofTags_visible]

theorem find?_toRemove (desired l : List Tag) (k : String) :
    (change desired (visible l)).toRemove.find? k
      = ((ofTags l).withoutSystem.find? k).filter
          fun t => !(ofTags desired).contains t.key && !Tag.isSystem t.key := by
  rw [change, Roster.find?_filter, withReserved_visible, ofTags_visible]

/-- The tags of an entity after those of the user were brought in step. -/
@[irreducible]
def settle (desired l : List Tag) : List Tag :=
  let c := change desired (visible l)
  putTags (dropTags l c.toRemove.keys) c.toAdd.toList

/-- After the change a key has the desired value. One that is not desired is gone, unless it is a
system key, which is left alone. -/
theorem find?_settle (desired l : List Tag) (k : String) :
    (ofTags (settle desired l)).find? k
      = ((ofTags desired).find? k).or (if Tag.isSystem k then (ofTags l).find? k else none) := by
  rw [settle, ofTags_change, Change.find?_apply, Roster.contains, find?_toAdd, find?_toRemove]
  cases hd : (ofTags desired).find? k with
  | none =>
    -- the key is not desired, so if the user has put it there it is removed
    cases hk : Tag.isSystem k with
    | true => simp [find?_withoutSystem_eq, hk]
    | false =>
      cases hl : (ofTags l).find? k with
      | none => simp
      | some u =>
        simp [find?_withoutSystem_eq, Option.filter_some, Roster.key_of_find? hl, hk,
          Roster.contains, hd, hl]
  | some t =>
    have ht : t.key = k := Roster.key_of_find? hd
    by_cases hv : (ofTags l).withoutSystem.find? k = some t
    · have hl : (ofTags l).find? k = some t := by
        rw [find?_withoutSystem_eq] at hv
        split at hv
        · cases hv
        · exact hv
      simp [Option.filter_some, ht, hv, hl, Roster.contains, hd]
    · simp [Option.filter_some, ht, hv]

/-- **The tags of the user become the desired ones.** -/
theorem agree_settle (desired l : List Tag) : Agree desired (settle desired l) :=
  agree_iff.2 fun k hk => by rw [find?_settle, hk, if_neg Bool.false_ne_true, Option.or_none]

/-- Where there is nothing to change the tags stay as they are. -/
theorem settle_of_isEmpty {desired l : List Tag}
    (h : (change desired (visible l)).isEmpty = true) : settle desired l = l := by
  simp only [Change.isEmpty, Bool.and_eq_true] at h
  have hkeys : (change desired (visible l)).toRemove.keys = [] := by
    rw [Roster.keys, Roster.toList_eq_nil_of_isEmpty h.2]
    rfl
  rw [settle, hkeys, Roster.toList_eq_nil_of_isEmpty h.1]
  simp [putTags, dropTags]

/-- **Tags of the user that agree already need no change,** as long as the desired ones hold no
system key. -/
theorem change_of_agree {desired l : List Tag} (h : Agree desired l)
    (hsys : ∀ t ∈ desired, Tag.isSystem t.key = false) :
    (change desired (visible l)).isEmpty = true := by
  have hclean : ∀ k t, (ofTags desired).find? k = some t → Tag.isSystem t.key = false := by
    intro k t ht
    rw [find?_ofTags] at ht
    exact hsys t (List.mem_reverse.1 (List.mem_of_find?_eq_some ht))
  simp only [Change.isEmpty, Bool.and_eq_true]
  constructor <;> refine Roster.isEmpty_iff.2 fun k => ?_
  · rw [find?_toAdd, ← h]
    cases hd : (ofTags desired).find? k with
    | none => rfl
    | some t =>
      have ht : t.key = k := Roster.key_of_find? hd
      simp [Option.filter_some, ht, find?_withoutSystem, hd, ht ▸ hclean k t hd]
  · rw [find?_toRemove, ← h, find?_withoutSystem]
    cases hd : (ofTags desired).find? k with
    | none => rfl
    | some t =>
      have ht : t.key = k := Roster.key_of_find? hd
      simp [Option.filter_some, ht, Roster.contains, hd, ht ▸ hclean k t hd]

/-! ## The tags of a new entity -/

/-- **A new entity has the tags of the user.** -/
theorem agree_creationTags {k : Kind} (r : Resource k) (tags : List Tag) :
    Agree tags (r.creationTags tags) := by
  refine agree_iff.2 fun j hj => ?_
  have hsystem : (Tags.system r.namespaceName).find? j = none := by
    have hne : j ≠ Tag.namespaceKey ∧ j ≠ Tag.controllerVersionKey := by
      simp only [Tag.isSystem, Bool.or_eq_false_iff, decide_eq_false_iff_not] at hj
      exact ⟨hj.1.2, hj.2⟩
    simp [Tags.system, find?_ofTags, Ne.symm hne.1, Ne.symm hne.2]
  rw [Resource.creationTags, ofTags_toList, Roster.find?_union, hsystem, Option.or_none]

end Tags

end ShareKeeper
