import ShareKeeper.Proofs.Comparison

/-!
# Drift is seen where something would be done about it

A relation of an entity is compared twice: by the delta, which says that it drifted, and by the plan
that keeps it in step. The two do it in different ways. For sets of identifiers both come down to the
same elements. For tags they agree as long as no key is desired twice and the observed tags are the ones
that are visible to the user: a delta also looks at the length of the lists, and the length of the
observed one is right only if no system key is in it. Where there is something to change the delta sees
it in any case (`Tags.isEmpty_tags_of_change`).

So drift is never reported without a request that would mend it, and no request would be made that no
drift was reported for (`detectsDrift_of_service`).
-/

namespace ShareKeeper

open Delta

/-! ## Requests of a plan -/

/-- Whether a plan asks for anything does not depend on the service. -/
theorem SyncPlan.requests_perform_eq_nil_iff {σ : Type} (service : Service σ) (s : σ) (p : SyncPlan) :
    Pass.requests service p.perform s = [] ↔ p.requests = [] := by
  rw [SyncPlan.perform, SyncPlan.requests]
  cases p.removals with
  | nil =>
    cases p.additions with
    | nil => exact iff_of_true rfl rfl
    | cons r rest => exact iff_of_false (List.cons_ne_nil _ _) (List.cons_ne_nil _ _)
  | cons r rest => exact iff_of_false (List.cons_ne_nil _ _) (List.cons_ne_nil _ _)

/-! ## Comparisons -/

theorem Delta.isEmpty_ofField (same : Bool) (path : String) (a b : Json) :
    (ofField same path a b).isEmpty = same := by
  cases same <;> rfl

namespace NameSet

theorem isEmpty_change_iff {desired observed : List String} :
    (change desired observed).isEmpty = true ↔ ofNames desired = ofNames observed := by
  rw [← change_eq_nil_iff, Change.isEmpty, Bool.and_eq_true, Roster.isEmpty, Roster.isEmpty,
    List.isEmpty_iff, List.isEmpty_iff]

end NameSet

namespace Tags

variable {desired observed : List Tag} {path : String}

theorem isEmpty_tags_of_change (h : (change desired observed).isEmpty = false) :
    (Delta.tags path desired observed).isEmpty = false := by
  rw [tags_eq, isEmpty_ofField]
  cases hsame : sameTags desired observed with
  | false => rfl
  | true => exact absurd (change_of_sameTags hsame) (by simp [h])

theorem contains_withoutSystem {m : Tags} {k : String} (h : m.withoutSystem.contains k = true) :
    Tag.isSystem k = false := by
  rw [Roster.contains, find?_withoutSystem_eq] at h
  split at h
  · cases h
  · next hk => simpa using hk

/-- **Of tags that are visible to the user the length is right** as soon as there is nothing to
change. -/
theorem sameTags_visible_iff (h : DistinctKeys desired) (m : Tags) :
    sameTags desired m.withoutSystem.toList = true
      ↔ (change desired m.withoutSystem.toList).isEmpty = true := by
  refine ⟨change_of_sameTags, fun hnone => sameTags_iff.2 ⟨?_, hnone⟩⟩
  obtain ⟨hadd, hremove⟩ := isEmpty_change_iff.1 hnone
  refine length_eq_of_keys h (distinctKeys_toList _) fun k => ?_
  rw [← contains_ofTags, ← contains_ofTags]
  constructor
  · intro hk
    obtain ⟨t, ht⟩ := contains_iff.1 hk
    obtain ⟨u, hu, -⟩ := hadd k t ht
    exact contains_iff.2 ⟨u, hu⟩
  · intro hk
    have hvisible := hk
    rw [ofTags_toList] at hvisible
    exact (hremove k hk).resolve_right (by simp [contains_withoutSystem hvisible])

/-- A key that is desired twice is reported for ever. -/
example : sameTags [⟨"stage", "dev"⟩, ⟨"stage", "prod"⟩] [⟨"stage", "prod"⟩] = false ∧
    (change [⟨"stage", "dev"⟩, ⟨"stage", "prod"⟩] [⟨"stage", "prod"⟩]).isEmpty = true := by
  decide

end Tags

/-! ## Paths -/

section Paths

theorem mem_paths_tags {k : Kind} (a b : Resource k) :
    "Spec.Tags" ∈ (k.manager.delta (some a) (some b)).paths
      ↔ sameTags (k.tags a.spec) (k.tags b.spec) = false := by
  cases k with
  | permission =>
    show "Spec.Tags" ∈ (Permission.fieldDelta a.spec b.spec).paths ↔ _
    simp [Permission.fieldDelta, texts, Kind.tags]
  | share =>
    show "Spec.Tags" ∈ (Share.fieldDelta a.spec b.spec).paths ↔ _
    simp [Share.fieldDelta, texts, nameSets, Kind.tags]

namespace Share

variable (a b : ShareSpec)

theorem mem_paths_permissions :
    "Spec.PermissionARNs" ∈ (fieldDelta a b).paths
      ↔ NameSet.ofNames a.permissionArns ≠ NameSet.ofNames b.permissionArns := by
  simp [fieldDelta, texts, nameSets, ← NameSet.sameElements_iff]

theorem mem_paths_principals :
    "Spec.Principals" ∈ (fieldDelta a b).paths
      ↔ NameSet.ofNames a.principals ≠ NameSet.ofNames b.principals := by
  simp [fieldDelta, texts, nameSets, ← NameSet.sameElements_iff]

theorem mem_paths_resources :
    "Spec.ResourceARNs" ∈ (fieldDelta a b).paths
      ↔ NameSet.ofNames a.resourceArns ≠ NameSet.ofNames b.resourceArns := by
  simp [fieldDelta, texts, nameSets, ← NameSet.sameElements_iff]

theorem mem_paths_sources :
    "Spec.Sources" ∈ (fieldDelta a b).paths
      ↔ NameSet.ofNames a.sources ≠ NameSet.ofNames b.sources := by
  simp [fieldDelta, texts, nameSets, ← NameSet.sameElements_iff]

end Share

end Paths

/-! ## Drift -/

/-- The deltas and the plans agree about what drifted. A plan is carried out against some service in
some state. -/
structure DetectsDrift {σ : Type} (service : Service σ) (s : σ) : Prop where
  names : ∀ path desired observed,
    ((Delta.nameSets path desired observed).isEmpty = false
        ↔ NameSet.sameElements desired observed = false) ∧
      (NameSet.sameElements desired observed = false
        ↔ (NameSet.change desired observed).isEmpty = false)
  permissions : ∀ (a b : Share) arn,
    "Spec.PermissionARNs" ∈ (Share.delta (some a) (some b)).paths
      ↔ Pass.requests service
          (SyncPlan.permissions arn a.spec.permissionArns b.spec.permissionArns).perform s ≠ []
  associations : ∀ (a b : Share) arn,
    ("Spec.Principals" ∈ (Share.delta (some a) (some b)).paths ∨
        "Spec.ResourceARNs" ∈ (Share.delta (some a) (some b)).paths ∨
        "Spec.Sources" ∈ (Share.delta (some a) (some b)).paths)
      ↔ Pass.requests service (SyncPlan.associations arn a.spec b.spec).perform s ≠ []
  /-- The observed tags are those of a map without its system keys. -/
  tags : ∀ path desired (m : Tags) target, Tags.DistinctKeys desired →
    ((Delta.tags path desired m.withoutSystem.toList).isEmpty = false
        ↔ (Tags.change desired m.withoutSystem.toList).isEmpty = false) ∧
      ((Tags.change desired m.withoutSystem.toList).isEmpty = false
        ↔ Pass.requests service (SyncPlan.tags target desired m.withoutSystem.toList).perform s ≠ [])
  /-- In the delta of two objects tags are reported by their comparison. -/
  tags_reported : ∀ {k : Kind} (a b : Resource k),
    "Spec.Tags" ∈ (k.manager.delta (some a) (some b)).paths
      ↔ (Delta.tags "Spec.Tags" (k.tags a.spec) (k.tags b.spec)).isEmpty = false
  /-- Whatever the tags are, a change of them does not go unseen. -/
  changes : ∀ path desired observed, (Tags.change desired observed).isEmpty = false →
    (Delta.tags path desired observed).isEmpty = false

/-- **Drift is reported exactly where something would be done about it.** -/
theorem detectsDrift_of_service {σ : Type} (service : Service σ) (s : σ) : DetectsDrift service s where
  names path desired observed := by
    have hchange : NameSet.sameElements desired observed = true
        ↔ (NameSet.change desired observed).isEmpty = true :=
      NameSet.sameElements_iff.trans NameSet.isEmpty_change_iff.symm
    rw [Delta.nameSets, isEmpty_ofField]
    exact ⟨Iff.rfl, by simpa using not_congr hchange⟩
  permissions a b arn := (Share.mem_paths_permissions a.spec b.spec).trans <| not_congr <|
    (SyncPlan.requests_permissions_eq_nil_iff.symm).trans
      (SyncPlan.requests_perform_eq_nil_iff service s _).symm
  associations a b arn := by
    rw [Ne, SyncPlan.requests_perform_eq_nil_iff, SyncPlan.requests_associations_eq_nil_iff]
    show "Spec.Principals" ∈ (Share.fieldDelta a.spec b.spec).paths ∨ _ ∈ (Share.fieldDelta _ _).paths ∨
      _ ∈ (Share.fieldDelta _ _).paths ↔ _
    rw [Share.mem_paths_principals, Share.mem_paths_resources, Share.mem_paths_sources]
    tauto
  tags path desired m target hdistinct := by
    rw [tags_eq, isEmpty_ofField, Ne, SyncPlan.requests_perform_eq_nil_iff,
      SyncPlan.requests_tags_eq_nil_iff]
    exact ⟨by simpa using not_congr (Tags.sameTags_visible_iff hdistinct m), by simp⟩
  tags_reported a b := by rw [mem_paths_tags, tags_eq, isEmpty_ofField]
  changes _ _ _ := Tags.isEmpty_tags_of_change

namespace Share

/-- Tags of a share as the service has them. -/
def stagedTags : Tags := .ofTags
  [⟨"aws:stack", "one"⟩, ⟨Tag.namespaceKey, "default"⟩, ⟨Tag.controllerVersionKey, "0.1.0"⟩,
    ⟨"stage", "dev"⟩]

/-- Another value is seen and would be sent, past the tags that are not the user's. -/
theorem drift_stagedTags :
    Tags.DistinctKeys [⟨"stage", "prod"⟩] ∧
      (Delta.tags "Spec.Tags" [⟨"stage", "prod"⟩] stagedTags.withoutSystem.toList).isEmpty = false ∧
      Pass.requests Account.serve (SyncPlan.tags (.share "team") [⟨"stage", "prod"⟩]
        stagedTags.withoutSystem.toList).perform .empty ≠ [] := by
  have hdistinct : Tags.DistinctKeys [⟨"stage", "prod"⟩] := by decide
  obtain ⟨hdelta, hplan⟩ := (detectsDrift_of_service Account.serve .empty).tags "Spec.Tags"
    [⟨"stage", "prod"⟩] stagedTags (.share "team") hdistinct
  have hchange : (Tags.change [⟨"stage", "prod"⟩] stagedTags.withoutSystem.toList).isEmpty = false := by
    decide +kernel
  exact ⟨hdistinct, hdelta.2 hchange, hplan.1 hchange⟩

end Share

end ShareKeeper
