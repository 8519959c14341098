import ShareKeeper.Proofs.Share.Plan

/-!
# Shares on the way

An update moves a share by several requests, and if one of them is refused the share is left somewhere
on the way. Every part of it, down to single tags and identifiers, is then either as it was or as it is
to be (`Between`). Each request of a plan keeps it on the way, even if the plan was made for another
place on it (`between_serve`), and from any place on it an update leads to the same end
(`normal_settled`), but for the order in which the tags are listed.
-/

namespace ShareKeeper

open Account

/-- The detail, apart from its tags. -/
def ShareDetail.untagged (d : ShareDetail) : ShareDetail := { d with tags := [] }

/-- The share with its tags in the order of their keys, and those that do not count left out. -/
def ShareRecord.normal (s : ShareRecord) : ShareRecord :=
  s.withTags (Tags.ofTags s.detail.tags).toList

namespace NameSet

/-- On every identifier one set agrees with one of two others. -/
def Between (s t u : NameSet) : Prop := ∀ x, (x ∈ u ↔ x ∈ s) ∨ (x ∈ u ↔ x ∈ t)

variable {s t u : NameSet} {l : List String}

theorem Between.addNames (h : Between s t u) (hl : ∀ x ∈ l, x ∈ t) :
    Between s t (Account.addNames u l) := by
  intro x
  by_cases hx : x ∈ l
  · exact .inr (iff_of_true (mem_addNames.2 (.inl hx)) (hl x hx))
  · simpa [mem_addNames, hx] using h x

theorem Between.dropNames (h : Between s t u) (hl : ∀ x ∈ l, x ∉ t) :
    Between s t (Account.dropNames u l) := by
  intro x
  by_cases hx : x ∈ l
  · exact .inr (iff_of_false (fun hu => (mem_dropNames.1 hu).2 hx) (hl x hx))
  · simpa [mem_dropNames, hx] using h x

end NameSet

/-- On every key one list of tags agrees with one of two others. -/
def Tags.Between (s t u : List Tag) : Prop :=
  ∀ k, (ofTags u).find? k = (ofTags s).find? k ∨ (ofTags u).find? k = (ofTags t).find? k

/-- A share is on the way from one state to another one. -/
structure ShareRecord.Between (s t u : ShareRecord) : Prop where
  arn : u.arn = s.arn
  detail : u.detail.untagged = s.detail.untagged ∨ u.detail.untagged = t.detail.untagged
  tags : Tags.Between s.detail.tags t.detail.tags u.detail.tags
  principals : NameSet.Between s.principals t.principals u.principals
  resources : NameSet.Between s.resources t.resources u.resources
  sources : NameSet.Between s.sources t.sources u.sources
  permissions : NameSet.Between s.permissions t.permissions u.permissions

theorem ShareRecord.Between.start (s t : ShareRecord) : s.Between t s where
  arn := rfl
  detail := .inl rfl
  tags _ := .inl rfl
  principals _ := .inl Iff.rfl
  resources _ := .inl Iff.rfl
  sources _ := .inl Iff.rfl
  permissions _ := .inl Iff.rfl

/-- What the looks at a share are answered. -/
def ShareRecord.view (s : ShareRecord) : ShareView :=
  ⟨s.detail, s.principals.toList, s.resources.toList, s.permissions.toList⟩

namespace Share

open SyncPlan

variable {r : Share} {s u v : ShareRecord}

/-! ## Settings -/

theorem settingsDiffer_eq (r : Share) (s : ShareRecord) :
    settingsDiffer r s = settingsStale r s.detail := by
  have hreported := settingsStale_eq r s.view
  rw [differentAt_name, differentAt_openness, ← Bool.not_and] at hreported
  exact hreported

theorem settingsStale_congr {d e : ShareDetail} (h : d.untagged = e.untagged) :
    settingsStale r d = settingsStale r e := by
  have hsame : settingsStale r d.untagged = settingsStale r e.untagged := by rw [h]
  exact hsame

/-- The detail with the desired settings. -/
def reset (r : Share) (d : ShareDetail) : ShareDetail :=
  { d with
    name := some r.spec.name
    allowExternalPrincipals := r.spec.allowExternalPrincipals.or d.allowExternalPrincipals }

theorem settingsStale_reset (r : Share) (d : ShareDetail) : settingsStale r (reset r d) = false := by
  cases h : r.spec.allowExternalPrincipals <;> simp [settingsStale, reset, h]

theorem reset_reset (r : Share) (d : ShareDetail) : reset r (reset r d) = reset r d := by
  cases h : r.spec.allowExternalPrincipals <;> simp [reset, h]

/-- The settings at the end of an update. -/
theorem untagged_settled (r : Share) (s : ShareRecord) :
    (settled r s).detail.untagged
      = if settingsStale r s.detail then reset r s.detail.untagged else s.detail.untagged := by
  show (withSettings r s).detail.untagged = _
  rw [withSettings, settingsDiffer_eq]
  split <;> rfl

/-- What is stale is still as it was in the beginning. -/
theorem untagged_of_stale (h : s.Between (settled r s) u) (hstale : settingsStale r u.detail = true) :
    settingsStale r s.detail = true ∧
      (settled r s).detail.untagged = reset r s.detail.untagged := by
  have hbegin : settingsStale r s.detail = true := by
    rcases h.detail with hu | hu
    · rwa [← settingsStale_congr hu]
    · have hend := settingsStale_congr (r := r) (d := u.detail) (e := (settled r s).detail.untagged) hu
      rw [hstale, untagged_settled] at hend
      split at hend
      · assumption
      · exact hend.symm
  exact ⟨hbegin, (untagged_settled r s).trans (if_pos hbegin)⟩

/-! ## One request of a plan -/

/-- Stale settings are put right. -/
theorem between_updateDetail (hu : s.Between (settled r s) u)
    (hstale : settingsStale r u.detail = true) (hv : s.Between (settled r s) v) :
    s.Between (settled r s) (updateDetail (some r.spec.name) r.spec.allowExternalPrincipals v) := by
  have hgoal := (untagged_of_stale hu hstale).2
  refine { hv with detail := .inr ?_ }
  show reset r v.detail.untagged = _
  rw [hgoal]
  rcases hv.detail with h | h
  · rw [h]
  · rw [h, hgoal, reset_reset]

/-- Keys that are superfluous somewhere on the way are gone at its end. -/
theorem between_dropTags (hv : s.Between (settled r s) v) (tags : List Tag) :
    s.Between (settled r s)
      (v.withTags (dropTags v.detail.tags (superfluousKeys r.spec.tags tags))) := by
  refine { hv with tags := fun k => ?_ }
  show (Tags.ofTags (dropTags v.detail.tags _)).find? k = _ ∨
    (Tags.ofTags (dropTags v.detail.tags _)).find? k
      = (Tags.ofTags (Tags.settle r.spec.tags s.detail.tags)).find? k
  by_cases hk : k ∈ superfluousKeys r.spec.tags tags
  · -- a user key that is not desired: under it there is nothing now, and nothing in the end
    obtain ⟨huser, hunwanted⟩ := List.mem_filter.1 hk
    rw [Roster.mem_keys_iff, Tags.find?_withoutSystem_eq] at huser
    rw [Bool.not_eq_true', Roster.contains, Option.isSome_eq_false_iff, Option.isNone_iff_eq_none]
      at hunwanted
    right
    rw [Tags.find?_settle, hunwanted, Option.none_or, Tags.ofTags_dropTags, Roster.find?_filter]
    cases hsystem : Tag.isSystem k with
    | true => simp [hsystem] at huser
    | false =>
      cases hf : (Tags.ofTags v.detail.tags).find? k with
      | none => rfl
      | some t => simp [Option.filter_some, Roster.key_of_find? hf, hk]
  · have hkept : (Tags.ofTags (dropTags v.detail.tags (superfluousKeys r.spec.tags tags))).find? k
        = (Tags.ofTags v.detail.tags).find? k := by
      rw [Tags.ofTags_dropTags, Roster.find?_filter]
      cases hf : (Tags.ofTags v.detail.tags).find? k with
      | none => rfl
      | some t => simp [Option.filter_some, Roster.key_of_find? hf, hk]
    rw [hkept]
    exact hv.tags k

/-- Tags that are missing somewhere on the way are there at its end. -/
theorem between_putTags (hv : s.Between (settled r s) v) (tags : List Tag) :
    s.Between (settled r s)
      (v.withTags (putTags v.detail.tags (missingTags r.spec.tags tags))) := by
  refine { hv with tags := fun k => ?_ }
  show (Tags.ofTags (putTags v.detail.tags _)).find? k = _ ∨
    (Tags.ofTags (putTags v.detail.tags _)).find? k
      = (Tags.ofTags (Tags.settle r.spec.tags s.detail.tags)).find? k
  rw [Tags.ofTags_putTags, Roster.find?_insertAll]
  cases hf : (missingTags r.spec.tags tags).reverse.find? fun t => t.key = k with
  | none => exact hv.tags k
  | some t =>
    -- what is sent is desired, so it is the tag that the key has in the end
    have hkey : t.key = k := by simpa using List.find?_some hf
    have hmem := (List.mem_filter.1 (List.mem_reverse.1 (List.mem_of_find?_eq_some hf))).1
    rw [Roster.mem_toList_iff, hkey] at hmem
    exact .inr (by rw [Tags.find?_settle, hmem, Option.some_or, Option.some_or])

theorem mem_track_of_lacking {desired observed : List String} {t : NameSet} {x : String}
    (h : x ∈ lacking desired observed) : x ∈ track desired observed t :=
  mem_track.2 (.inl (mem_lacking.1 h))

theorem not_mem_track_of_lacking {desired observed : List String} {t : NameSet} {x : String}
    (h : x ∈ lacking observed desired) : x ∉ track desired observed t := by
  have := mem_lacking.1 h
  rw [mem_track]
  tauto

theorem mem_ofNames_of_lacking {desired observed : List String} {x : String}
    (h : x ∈ lacking desired observed) : x ∈ NameSet.ofNames desired :=
  NameSet.mem_ofNames.2 (mem_lacking.1 h).1

theorem not_mem_ofNames_of_lacking {desired observed : List String} {x : String}
    (h : x ∈ lacking observed desired) : x ∉ NameSet.ofNames desired :=
  fun hx => (mem_lacking.1 h).2 (NameSet.mem_ofNames.1 hx)

/-- Stray associations are taken away. -/
theorem between_disassociate (hv : s.Between (settled r s) v) (view : ShareView) :
    s.Between (settled r s) (disassociate (strayAssociations r view) v) :=
  { hv with
    principals := hv.principals.dropNames fun _ => not_mem_ofNames_of_lacking
    resources := hv.resources.dropNames fun _ => not_mem_ofNames_of_lacking
    sources := hv.sources.dropNames fun _ => not_mem_track_of_lacking }

/-- Missing associations are made. -/
theorem between_associate (hv : s.Between (settled r s) v) (view : ShareView) :
    s.Between (settled r s) (associate (unassociated r view) v) :=
  { hv with
    principals := hv.principals.addNames fun _ => mem_ofNames_of_lacking
    resources := hv.resources.addNames fun _ => mem_ofNames_of_lacking
    sources := hv.sources.addNames fun _ => mem_track_of_lacking }

theorem permissions_settled (h : r.spec.permissionArns.isEmpty = false) :
    (settled r s).permissions = NameSet.ofNames r.spec.permissionArns :=
  if_neg (by simp [h])

/-- A stray permission is taken away. -/
theorem between_detach (hempty : r.spec.permissionArns.isEmpty = false)
    (hv : s.Between (settled r s) v) {view : ShareView} {permission : String}
    (h : permission ∈ lacking view.permissionArns r.spec.permissionArns) :
    s.Between (settled r s) { v with permissions := dropNames v.permissions [permission] } := by
  refine { hv with permissions := hv.permissions.dropNames fun y hy => ?_ }
  rw [permissions_settled hempty, List.mem_singleton.1 hy]
  exact not_mem_ofNames_of_lacking h

/-- A missing permission is given. -/
theorem between_attach (hempty : r.spec.permissionArns.isEmpty = false)
    (hv : s.Between (settled r s) v) {view : ShareView} {permission : String}
    (h : permission ∈ lacking r.spec.permissionArns view.permissionArns) :
    s.Between (settled r s) { v with permissions := addNames v.permissions [permission] } := by
  refine { hv with permissions := hv.permissions.addNames fun y hy => ?_ }
  rw [permissions_settled hempty, List.mem_singleton.1 hy]
  exact mem_ofNames_of_lacking h

/-- **A request that is planned somewhere on the way keeps the share on the way,** wherever it is. -/
theorem between_serve {a : Account} {arn : String} {q : Request} (hkey : s.arn = arn)
    (hu : s.Between (settled r s) u) (hq : q ∈ plan r arn u.view) (hv : s.Between (settled r s) v) :
    ∃ w, (serve q (a.putShare v)).2 = a.putShare w ∧ s.Between (settled r s) w := by
  have hfound : (a.putShare v).shares.find? arn = some v := putShare_find? (hv.arn.trans hkey)
  have hput : ∀ w : ShareRecord, w.arn = v.arn →
      (a.putShare v).putShare w = a.putShare w := fun w hw => putShare_putShare hw.symm
  have hchange : ∀ o f, (f v).arn = v.arn →
      ((a.putShare v).changeShare o arn f).2 = a.putShare (f v) := by
    intro o f harn
    rw [changeShare_of_find? hfound, hput _ harn]
  have htags : ∀ f : List Tag → List Tag,
      (a.putShare v).changeTags arn f = a.putShare (v.withTags (f v.detail.tags)) := by
    intro f
    rw [changeTags_share hfound]
    exact hput _ rfl
  rcases List.mem_append.1 hq with hq | hq
  · -- the request is there only if the settings are stale
    cases hstale : settingsStale r u.detail with
    | false =>
      rw [show u.view.detail = u.detail from rfl, hstale] at hq
      cases hq
    | true =>
      rw [mem_when hq, serve_updateShare hfound]
      exact ⟨_, hput _ rfl, between_updateDetail hu hstale hv⟩
  rcases List.mem_append.1 hq with hq | hq
  · -- what is dropped and put was reckoned from the tags of `u`, but it is dropped from those of `v`
    rcases List.mem_append.1 hq with hq | hq
    · rw [mem_when hq]
      exact ⟨_, htags (dropTags · _), between_dropTags hv _⟩
    · rw [mem_when hq]
      exact ⟨_, htags (putTags · _), between_putTags hv _⟩
  rcases List.mem_append.1 hq with hq | hq
  · rcases List.mem_append.1 hq with hq | hq
    · rw [mem_when hq]
      exact ⟨_, hchange _ _ rfl, between_disassociate hv _⟩
    · rw [mem_when hq]
      exact ⟨_, hchange _ _ rfl, between_associate hv _⟩
  · cases hempty : r.spec.permissionArns.isEmpty with
    | true =>
      rw [hempty, if_pos rfl] at hq
      cases hq
    | false =>
      rw [hempty, if_neg Bool.false_ne_true] at hq
      rcases List.mem_append.1 hq with hq | hq
      · obtain ⟨x, hx, rfl⟩ := List.mem_map.1 hq
        exact ⟨_, hchange _ _ rfl, between_detach hempty hv hx⟩
      · obtain ⟨x, hx, rfl⟩ := List.mem_map.1 hq
        exact ⟨_, hchange _ _ rfl, between_attach hempty hv hx⟩

/-! ## The end of the way -/

section End

variable (hu : s.Between (settled r s) u)
include hu

theorem untagged_settled_of_between :
    (settled r u).detail.untagged = (settled r s).detail.untagged := by
  rw [untagged_settled, untagged_settled]
  rcases hu.detail with h | h
  · rw [settingsStale_congr h, h]
  · have hstale : settingsStale r u.detail = false := by
      rw [settingsStale_congr h]
      show settingsStale r (settled r s).detail.untagged = false
      rw [untagged_settled]
      cases hs : settingsStale r s.detail with
      | true => exact settingsStale_reset r s.detail.untagged
      | false => exact hs
    rw [hstale, if_neg Bool.false_ne_true, h, untagged_settled]

theorem tags_settled_of_between :
    Tags.ofTags (settled r u).detail.tags = Tags.ofTags (settled r s).detail.tags := by
  refine Roster.ext_find? fun k => ?_
  show (Tags.ofTags (Tags.settle r.spec.tags u.detail.tags)).find? k
    = (Tags.ofTags (Tags.settle r.spec.tags s.detail.tags)).find? k
  have hk : (Tags.ofTags u.detail.tags).find? k = (Tags.ofTags s.detail.tags).find? k ∨
    (Tags.ofTags u.detail.tags).find? k
      = (Tags.ofTags (Tags.settle r.spec.tags s.detail.tags)).find? k := hu.tags k
  rw [Tags.find?_settle] at hk ⊢
  rw [Tags.find?_settle]
  cases hd : (Tags.ofTags r.spec.tags).find? k with
  | some t => rfl
  | none =>
    cases hsystem : Tag.isSystem k with
    | false => rfl
    | true =>
      -- a system key that is not desired has kept its tag all the way
      rw [hd, hsystem] at hk
      simpa using hk

/-- The sources are not looked up again, but what is remembered of them has not changed. -/
theorem sources_settled_of_between : (settled r u).sources = (settled r s).sources := by
  show track r.spec.sources (associatedSources r) u.sources
    = track r.spec.sources (associatedSources r) s.sources
  refine NameSet.ext_mem fun x => ?_
  have hx : (x ∈ u.sources ↔ x ∈ s.sources) ∨
      (x ∈ u.sources ↔ x ∈ track r.spec.sources (associatedSources r) s.sources) := hu.sources x
  rw [mem_track] at hx ⊢
  rw [mem_track]
  tauto

theorem permissions_settled_of_between :
    (settled r u).permissions = (settled r s).permissions := by
  cases hempty : r.spec.permissionArns.isEmpty with
  | false => rw [permissions_settled hempty, permissions_settled hempty]
  | true =>
    have hkept : ∀ w, (settled r w).permissions = w.permissions := fun w => if_pos hempty
    rw [hkept, hkept]
    refine NameSet.ext_mem fun x => ?_
    have hx := hu.permissions x
    rw [hkept] at hx
    exact hx.elim id id

/-- **From anywhere on the way an update leads to the same end.** -/
theorem normal_settled : (settled r u).normal = (settled r s).normal := by
  have hdetail : (settled r u).normal.detail = (settled r s).normal.detail := by
    have hparts : ∀ w : ShareRecord, w.normal.detail
        = { w.detail.untagged with tags := (Tags.ofTags w.detail.tags).toList } := fun _ => rfl
    rw [hparts, hparts, untagged_settled_of_between hu, tags_settled_of_between hu]
  have hmk : ∀ w : ShareRecord,
      w.normal = ⟨w.arn, w.normal.detail, w.principals, w.resources, w.sources, w.permissions⟩ :=
    fun _ => rfl
  have harn : (settled r u).arn = (settled r s).arn := hu.arn
  rw [hmk, hmk (settled r s), harn, hdetail, sources_settled_of_between hu,
    permissions_settled_of_between hu]
  rfl

end End

end Share

end ShareKeeper
