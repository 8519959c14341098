import ShareKeeper.Change
import ShareKeeper.Tag

/-!
# Changes of tags

From observed to desired tags. The desired tags first take over the reserved ones that are observed,
so that a specification need not name them. A tag whose value differs is added again; only keys that
the desired tags lack are removed, and no system key ever is.
-/

namespace ShareKeeper.Tags

/-- The change from observed to desired tags. -/
def change (desired observed : List Tag) : Change Tag.key :=
  let observed := ofTags observed
  let desired := (ofTags desired).withReserved observed
  { toAdd := desired.filter (fun t => observed.find? t.key ≠ some t)
    toRemove := observed.filter (fun t => !desired.contains t.key && !Tag.isSystem t.key) }

/-- **No system key is ever removed.** -/
theorem not_isSystem_of_mem_toRemove {desired observed : List Tag} {t : Tag}
    (h : t ∈ (change desired observed).toRemove.toList) : Tag.isSystem t.key = false := by
  simp only [change, Roster.toList_filter, List.mem_filter, Bool.and_eq_true, Bool.not_eq_true'] at h
  exact h.2.2

end ShareKeeper.Tags
