import ShareKeeper.Proofs.Delta

/-!
# Paths by their segments

Paths are compared as texts: a recorded path lies under another one if it is the same text, or goes
on behind it with a point. Cut at its points a path is a list of names, its segments, and then lying
under another path means that it begins with the segments of that one (`isUnder_iff_segments`). This
holds of all texts, those without a point, with empty segments, or with nothing in them included.

Two facts carry it: the segments of a path, joined by points, are the path (`intercalate_segments`),
and a point ends one path and begins another (`segments_append_point`).
-/

namespace ShareKeeper

namespace Delta

/-! ## Segments -/

/-- The names between the points of a path. There is always one, if only the empty one. -/
def segments (path : String) : List String := (path.split '.').toList.map String.Slice.copy

theorem segments_eq (path : String) :
    segments path = (path.toList.splitOn '.').map String.ofList := String.toList_split_char

theorem segments_ne_nil (path : String) : segments path ≠ [] := by
  rw [segments_eq, Ne, List.map_eq_nil_iff]
  exact List.splitOn_ne_nil '.' path.toList

/-- **A path is its segments with points between them.** -/
theorem intercalate_segments (path : String) : ".".intercalate (segments path) = path := by
  have hmap : (segments path).map String.toList = path.toList.splitOn '.' := by
    rw [segments_eq, List.map_map]
    simp [Function.comp_def]
  rw [← String.toList_inj, String.toList_intercalate, hmap]
  exact List.intercalate_splitOn '.'

/-- **Behind a point new segments begin.** -/
theorem segments_append_point (top rest : String) :
    segments (top ++ "." ++ rest) = segments top ++ segments rest := by
  have htext : (top ++ "." ++ rest).toList = top.toList ++ '.' :: rest.toList := by simp
  rw [segments_eq, segments_eq, segments_eq, htext, List.splitOn_append_cons_self, List.map_append]

/-! ## Lying under a path -/

variable {top path : String}

theorem isUnder_iff : isUnder top path = true ↔ path = top ∨ ∃ rest, path = top ++ "." ++ rest := by
  unfold isUnder
  rw [Bool.or_eq_true, decide_eq_true_eq, List.isPrefixOf_iff_prefix]
  refine or_congr_right ?_
  constructor
  · rintro ⟨rest, hrest⟩
    refine ⟨String.ofList rest, String.toList_inj.1 ?_⟩
    rw [← hrest]
    simp
  · rintro ⟨rest, rfl⟩
    exact ⟨rest.toList, by simp⟩

/-- **A path lies under another one exactly if it begins with its segments.** -/
theorem isUnder_iff_segments : isUnder top path = true ↔ segments top <+: segments path := by
  rw [isUnder_iff]
  constructor
  · rintro (rfl | ⟨rest, rfl⟩)
    · exact List.prefix_rfl
    · rw [segments_append_point]
      exact List.prefix_append ..
  · rintro ⟨more, hmore⟩
    -- joined again, what is there beyond the segments of `top` stands behind a point
    have hpath := intercalate_segments path
    rw [← hmore] at hpath
    by_cases hnil : more = []
    · left
      rw [← hpath, hnil, List.append_nil, intercalate_segments]
    · right
      refine ⟨".".intercalate more, ?_⟩
      rw [← hpath, String.intercalate_append_of_ne_nil (segments_ne_nil top) hnil,
        intercalate_segments]

/-- Where the last segment of `top` stands, `path` has one that begins with the text of it and is
longer. -/
def Outgrows (top path : String) : Prop :=
  ∃ last longer, (segments top).getLast? = some last ∧
    (segments path)[(segments top).length - 1]? = some longer ∧
    last.toList <+: longer.toList ∧ last ≠ longer

/-- A common beginning of two names does not put the one under the other. -/
theorem Outgrows.isUnder_eq_false (h : Outgrows top path) : isUnder top path = false := by
  obtain ⟨last, longer, hlast, hlonger, -, hne⟩ := h
  rw [Bool.eq_false_iff, Ne, isUnder_iff_segments]
  rintro ⟨more, hmore⟩
  have hpos : 0 < (segments top).length := List.length_pos_iff.2 (segments_ne_nil top)
  rw [List.getLast?_eq_getElem?] at hlast
  rw [← hmore, List.getElem?_append_left (by omega), hlast] at hlonger
  exact hne (Option.some.inj hlonger)

/-! ## What a delta tells -/

theorem differentAt_iff {d : Delta} :
    d.differentAt top = true ↔ ∃ p ∈ d.paths, isUnder top p = true := by
  rw [differentAt, List.any_eq_true, paths]
  simp

/-- What a delta tells about a path rests on whole segments. -/
structure MatchesSegments (d : Delta) (top : String) : Prop where
  /-- It differs exactly if the delta lists a path that begins with its segments. -/
  iff_segments : d.differentAt top = true ↔ ∃ p ∈ d.paths, segments top <+: segments p
  /-- It differs if anything below it does. -/
  of_below : ∀ rest, d.differentAt (top ++ "." ++ rest) = true → d.differentAt top = true
  /-- A path that only has a longer name where its last one stands makes no difference to it. -/
  of_outgrown : ∀ path a b, Outgrows top path →
    (d ++ single path a b).differentAt top = d.differentAt top

/-- **Paths are matched by whole segments,** whatever the delta lists and whatever text is asked for.
-/
theorem matchesSegments_differentAt (d : Delta) (top : String) : MatchesSegments d top := by
  have hiff : ∀ asked, d.differentAt asked = true ↔ ∃ p ∈ d.paths, segments asked <+: segments p := by
    intro asked
    rw [differentAt_iff]
    simp only [isUnder_iff_segments]
  refine ⟨hiff top, fun rest hbelow => ?_, fun path a b houtgrown => ?_⟩
  · obtain ⟨p, hp, hunder⟩ := (hiff _).1 hbelow
    rw [segments_append_point] at hunder
    exact (hiff top).2 ⟨p, hp, (List.prefix_append ..).trans hunder⟩
  · rw [differentAt_append]
    have hsingle : (single path a b).differentAt top = false := by
      simp [single, differentAt, houtgrown.isUnder_eq_false]
    rw [hsingle, Bool.or_false]

example : Outgrows "Spec.Ta" "Spec.Tags" :=
  ⟨"Ta", "Tags", by cbv, by cbv, by decide, by decide⟩

end Delta

end ShareKeeper
