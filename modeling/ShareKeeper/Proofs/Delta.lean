import ShareKeeper.Permission.Delta
import ShareKeeper.Share.Delta
import ShareKeeper.Proofs.Tag

/-!
# Which fields a delta reports

A delta is put together from one comparison for each field, and each comparison reports its own path.
So a path is reported exactly if its own comparison failed, and the delta is empty exactly if none
did.
-/

namespace ShareKeeper

namespace Delta

@[simp] theorem differentAt_append (d e : Delta) (path : String) :
    (d ++ e).differentAt path = (d.differentAt path || e.differentAt path) := by
  show (d.differences ++ e.differences).any _ = _
  rw [List.any_append]
  rfl

@[simp] theorem differentAt_ofField (same : Bool) (path field : String) (a b : Json) :
    (ofField same field a b).differentAt path = (!same && isUnder path field) := by
  cases same <;> simp [ofField, empty, single, differentAt]

@[simp] theorem paths_append (d e : Delta) : (d ++ e).paths = d.paths ++ e.paths :=
  List.map_append

@[simp] theorem paths_ofField (same : Bool) (path : String) (a b : Json) :
    (ofField same path a b).paths = if same then [] else [path] := by
  cases same <;> rfl

theorem isEmpty_iff_paths {d : Delta} : d.isEmpty = true ↔ d.paths = [] := by
  rw [isEmpty, List.isEmpty_iff, paths, List.map_eq_nil_iff]

/-- An empty delta reports no path. -/
theorem differentAt_of_isEmpty {d : Delta} (h : d.isEmpty = true) (path : String) :
    d.differentAt path = false := by
  rw [isEmpty, List.isEmpty_iff] at h
  rw [differentAt, h]
  rfl

/-- Whether two lists of tags count as the same. -/
def sameTags (a b : List Tag) : Bool :=
  a.length = b.length && (a.isEmpty || (Tags.change a b).isEmpty)

@[simp] theorem tags_eq (path : String) (a b : List Tag) :
    tags path a b
      = ofField (sameTags a b) path (.array (a.map Tag.encode)) (.array (b.map Tag.encode)) := rfl

theorem sameTags_iff {a b : List Tag} :
    sameTags a b = true ↔ a.length = b.length ∧ (Tags.change a b).isEmpty = true := by
  rw [sameTags, Bool.and_eq_true, decide_eq_true_eq, Bool.or_eq_true, List.isEmpty_iff]
  refine and_congr_right fun hlen => or_iff_right_of_imp ?_
  rintro rfl
  rw [List.length_eq_zero_iff.1 hlen.symm]
  rfl

/-- Tags that count as the same need no change. -/
theorem change_of_sameTags {a b : List Tag} (h : sameTags a b = true) :
    (Tags.change a b).isEmpty = true := (sameTags_iff.1 h).2

end Delta

namespace Share

open Delta

/-- Whether the openness that is observed counts as the desired one. -/
@[simp] theorem optionals_eq (path : String) (a b : Option Bool) :
    optionals (· = ·) Json.bool path a b
      = ofField (a = b) path (.ofOption .bool a) (.ofOption .bool b) := by
  cases a <;> cases b <;> simp [optionals]

section Paths

variable (a b : ShareSpec)

theorem differentAt_tags : (fieldDelta a b).differentAt "Spec.Tags" = !sameTags a.tags b.tags := by
  simp [fieldDelta, texts, nameSets, isUnder, List.isPrefixOf]

theorem differentAt_openness :
    (fieldDelta a b).differentAt "Spec.AllowExternalPrincipals"
      = !decide (a.allowExternalPrincipals = b.allowExternalPrincipals) := by
  simp [fieldDelta, texts, nameSets, isUnder, List.isPrefixOf]

theorem differentAt_name :
    (fieldDelta a b).differentAt "Spec.Name" = !decide (a.name = b.name) := by
  simp [fieldDelta, texts, nameSets, isUnder, List.isPrefixOf]

theorem differentAt_permissions :
    (fieldDelta a b).differentAt "Spec.PermissionARNs"
      = !NameSet.sameElements a.permissionArns b.permissionArns := by
  simp [fieldDelta, texts, nameSets, isUnder, List.isPrefixOf]

theorem differentAt_principals :
    (fieldDelta a b).differentAt "Spec.Principals"
      = !NameSet.sameElements a.principals b.principals := by
  simp [fieldDelta, texts, nameSets, isUnder, List.isPrefixOf]

theorem differentAt_resources :
    (fieldDelta a b).differentAt "Spec.ResourceARNs"
      = !NameSet.sameElements a.resourceArns b.resourceArns := by
  simp [fieldDelta, texts, nameSets, isUnder, List.isPrefixOf]

theorem differentAt_sources :
    (fieldDelta a b).differentAt "Spec.Sources" = !NameSet.sameElements a.sources b.sources := by
  simp [fieldDelta, texts, nameSets, isUnder, List.isPrefixOf]

end Paths

end Share

namespace Permission

open Delta

section Paths

variable (a b : PermissionSpec)

theorem differentAt_tags : (fieldDelta a b).differentAt "Spec.Tags" = !sameTags a.tags b.tags := by
  simp [fieldDelta, texts, isUnder, List.isPrefixOf]

theorem differentAt_name :
    (fieldDelta a b).differentAt "Spec.Name" = !decide (a.name = b.name) := by
  simp [fieldDelta, texts, isUnder, List.isPrefixOf]

theorem differentAt_policy :
    (fieldDelta a b).differentAt "Spec.PolicyTemplate"
      = !samePolicy a.policyTemplate b.policyTemplate := by
  simp [fieldDelta, texts, isUnder, List.isPrefixOf]

theorem differentAt_resourceType :
    (fieldDelta a b).differentAt "Spec.ResourceType" = !decide (a.resourceType = b.resourceType) := by
  simp [fieldDelta, texts, isUnder, List.isPrefixOf]

end Paths

end Permission

end ShareKeeper
