import Mathlib.Data.Finset.Dedup
import ShareKeeper.Proofs.Delta
import ShareKeeper.Proofs.Quiescence
import ShareKeeper.Proofs.Tag.Patch

/-!
# What a delta says of two objects

What can differ between two objects of a kind is told by a list of fields (`Kind.fields`), and each
field says when two specifications have the same there: texts, options, sets of identifiers, policies as
documents, tags by their keys and by the values under those that are not reserved. In every field this is
an equivalence relation, whatever way the comparison itself is made (`Kind.equivalence_same`).

As long as no key of a tag is given twice, a delta lists the paths of exactly the fields that are not the
same, in the order of the list (`paths_delta`). So it depends on the specifications alone, it does not
matter which of the two objects comes first, and objects without a difference form classes
(`comparesFields_manager`).
-/

namespace ShareKeeper

/-! ## Tags -/

namespace Tags

/-- Two lists of tags have the same keys, and the same values under those that are not reserved. -/
def Alike (a b : List Tag) : Prop :=
  (a.map Tag.key).toFinset = (b.map Tag.key).toFinset ∧
    ∀ k ∈ a.map Tag.key, Tag.isReserved k = false → (ofTags a).find? k = (ofTags b).find? k

instance (a b : List Tag) : Decidable (Alike a b) := inferInstanceAs (Decidable (_ ∧ _))

theorem mem_keys_of_toFinset {a b : List Tag}
    (h : (a.map Tag.key).toFinset = (b.map Tag.key).toFinset) (k : String) :
    k ∈ a.map Tag.key ↔ k ∈ b.map Tag.key := by
  rw [← List.mem_toFinset, h, List.mem_toFinset]

theorem equivalence_alike : Equivalence Alike where
  refl _ := ⟨rfl, fun _ _ _ => rfl⟩
  symm h := ⟨h.1.symm, fun k hk hfree => (h.2 k ((mem_keys_of_toFinset h.1 k).2 hk) hfree).symm⟩
  trans h h' := ⟨h.1.trans h'.1, fun k hk hfree =>
    (h.2 k hk hfree).trans (h'.2 k ((mem_keys_of_toFinset h.1 k).1 hk) hfree)⟩

variable {a b : List Tag}

/-- Lists that name the same keys, and none of them twice, have the same length. -/
theorem length_eq_of_keys (ha : DistinctKeys a) (hb : DistinctKeys b)
    (h : ∀ k, k ∈ a.map Tag.key ↔ k ∈ b.map Tag.key) : a.length = b.length := by
  have := ((List.perm_ext_iff_of_nodup ha hb).2 h).length_eq
  simpa using this

/-- Of two lists of one length, none of which names a key twice, neither can lack a key of the other if
the other lacks none of its own. -/
theorem keys_of_length (ha : DistinctKeys a) (hlen : a.length = b.length)
    (h : a.map Tag.key ⊆ b.map Tag.key) (k : String) : k ∈ a.map Tag.key ↔ k ∈ b.map Tag.key := by
  have hperm : (a.map Tag.key).Perm (b.map Tag.key) :=
    (List.subperm_of_subset ha h).perm_of_length_le (by simp [hlen])
  exact hperm.mem_iff

/-- **Tags count as the same if they are alike.** The length stands in for the keys that the change would
not remove. -/
theorem sameTags_iff_alike (ha : DistinctKeys a) (hb : DistinctKeys b) :
    Delta.sameTags a b = true ↔ Alike a b := by
  rw [Delta.sameTags_iff, isEmpty_change_iff]
  constructor
  · rintro ⟨hlen, hadd, -⟩
    have hsub : a.map Tag.key ⊆ b.map Tag.key := by
      intro k hk
      obtain ⟨t, ht⟩ := contains_iff.1 (contains_ofTags.2 hk)
      obtain ⟨u, hu, -⟩ := hadd k t ht
      exact contains_ofTags.1 (contains_iff.2 ⟨u, hu⟩)
    refine ⟨Finset.ext fun k => ?_, fun k hk hfree => ?_⟩
    · rw [List.mem_toFinset, List.mem_toFinset]
      exact keys_of_length ha hlen hsub k
    · obtain ⟨t, ht⟩ := contains_iff.1 (contains_ofTags.2 hk)
      obtain ⟨u, hu, hvalue⟩ := hadd k t ht
      rw [ht, hu, hvalue hfree]
  · rintro ⟨hkeys, hvalues⟩
    have hmem := mem_keys_of_toFinset hkeys
    refine ⟨length_eq_of_keys ha hb hmem, fun k t ht => ?_, fun k hk => ?_⟩
    · have hk : k ∈ a.map Tag.key := contains_ofTags.1 (contains_iff.2 ⟨t, ht⟩)
      obtain ⟨u, hu⟩ := contains_iff.1 (contains_ofTags.2 ((hmem k).1 hk))
      refine ⟨u, hu, fun hfree => ?_⟩
      have heq := hvalues k hk hfree
      rw [ht, hu] at heq
      exact (Option.some.inj heq).symm
    · exact .inl (contains_ofTags.2 ((hmem k).2 (contains_ofTags.1 hk)))

/-- Tags count as the same as themselves, even if keys are given twice. -/
theorem sameTags_self (a : List Tag) : Delta.sameTags a a = true :=
  Delta.sameTags_iff.2 ⟨rfl, isEmpty_change_iff.2 ⟨fun _ t ht => ⟨t, ht, fun _ => rfl⟩, fun _ => .inl⟩⟩

end Tags

/-! ## Policies -/

namespace Permission

/-- Two policies hold the same document, or where one of them holds none, they are the same text. -/
inductive PolicyAlike (a b : String) : Prop
  | document {x y : Json} (ha : Json.read a = .ok x) (hb : Json.read b = .ok y)
      (h : x.same y = true)
  | text (hnone : (∀ x, Json.read a ≠ .ok x) ∨ ∀ y, Json.read b ≠ .ok y) (h : a = b)

namespace PolicyAlike

variable {a b : String}

theorem same {x y : Json} (h : PolicyAlike a b) (ha : Json.read a = .ok x)
    (hb : Json.read b = .ok y) : x.same y = true := by
  cases h with
  | document ha' hb' h =>
    cases ha.symm.trans ha'
    cases hb.symm.trans hb'
    exact h
  | text hnone _ =>
    rcases hnone with hnone | hnone
    · exact absurd ha (hnone x)
    · exact absurd hb (hnone y)

theorem eq_of_none (h : PolicyAlike a b)
    (hnone : (∀ x, Json.read a ≠ .ok x) ∨ ∀ y, Json.read b ≠ .ok y) : a = b := by
  cases h with
  | @document x y ha hb _ =>
    rcases hnone with hnone | hnone
    · exact absurd ha (hnone x)
    · exact absurd hb (hnone y)
  | text _ h => exact h

theorem equivalence : Equivalence PolicyAlike where
  refl a := by
    cases ha : Json.read a with
    | error e => exact .text (.inl (by simp [ha])) rfl
    | ok x => exact .document ha ha (Json.same_refl x)
  symm h := by
    cases h with
    | document ha hb h => exact .document hb ha (Json.same_symm h)
    | text hnone h => exact .text hnone.symm h.symm
  trans h h' := by
    cases h with
    | text _ heq => exact heq ▸ h'
    | document ha hb hsame =>
      cases h' with
      | text _ heq => exact heq ▸ .document ha hb hsame
      | document hb' hc hsame' =>
        cases hb.symm.trans hb'
        exact .document ha hc (Json.same_trans hsame hsame')

end PolicyAlike

theorem samePolicy_iff_alike {a b : String} : samePolicy a b = true ↔ PolicyAlike a b := by
  rw [samePolicy]
  cases ha : Json.read a with
  | error e =>
    have hnone : ∀ x, Json.read a ≠ .ok x := by simp [ha]
    rw [decide_eq_true_eq]
    exact ⟨.text (.inl hnone), fun h => h.eq_of_none (.inl hnone)⟩
  | ok x =>
    cases hb : Json.read b with
    | error e =>
      have hnone : ∀ y, Json.read b ≠ .ok y := by simp [hb]
      rw [decide_eq_true_eq]
      exact ⟨.text (.inr hnone), fun h => h.eq_of_none (.inr hnone)⟩
    | ok y => exact ⟨.document ha hb, fun h => h.same ha hb⟩

instance (a b : String) : Decidable (PolicyAlike a b) := decidable_of_iff _ samePolicy_iff_alike

end Permission

/-! ## Fields -/

/-- A field of specifications: where it is, and when two of them have the same there. -/
structure Field (S : Type) where
  path : String
  Same : S → S → Prop
  [decidable : DecidableRel Same]

namespace Field

variable {S : Type}

instance (f : Field S) : DecidableRel f.Same := f.decidable

/-- A field that is the same if what is seen of it is equal. -/
def seen {β : Type} [DecidableEq β] (path : String) (view : S → β) : Field S where
  path := path
  Same a b := view a = view b

theorem equivalence_seen {β : Type} [DecidableEq β] (path : String) (view : S → β) :
    Equivalence (seen path view).Same := eq_equivalence.comap view

/-- The paths of the fields that are not the same. -/
def differing (fields : List (Field S)) (a b : S) : List String :=
  (fields.filter fun f => ¬ f.Same a b).map Field.path

section Differing

variable {fields : List (Field S)} {a b : S}

theorem differing_eq_nil_iff : differing fields a b = [] ↔ ∀ f ∈ fields, f.Same a b := by
  simp [differing, List.filter_eq_nil_iff]

theorem nodup_differing (h : (fields.map Field.path).Nodup) : (differing fields a b).Nodup :=
  h.sublist (List.filter_sublist.map Field.path)

theorem differing_comm (h : ∀ f ∈ fields, Equivalence f.Same) :
    differing fields b a = differing fields a b := by
  refine congrArg (List.map Field.path) (List.filter_congr fun f hf => ?_)
  rw [decide_eq_decide]
  exact not_congr ⟨(h f hf).symm, (h f hf).symm⟩

/-- What is the same in every field. -/
theorem equivalence_forall (h : ∀ f ∈ fields, Equivalence f.Same) :
    Equivalence fun a b => ∀ f ∈ fields, f.Same a b where
  refl a f hf := (h f hf).refl a
  symm hsame f hf := (h f hf).symm (hsame f hf)
  trans hsame hsame' f hf := (h f hf).trans (hsame f hf) (hsame' f hf)

end Differing

@[simp] theorem differing_nil (a b : S) : differing [] a b = [] := rfl

@[simp] theorem differing_cons (f : Field S) (fields : List (Field S)) (a b : S) :
    differing (f :: fields) a b
      = (if f.Same a b then [] else [f.path]) ++ differing fields a b := by
  by_cases h : f.Same a b <;> simp [differing, h]

end Field

/-- The fields of a permission, in the order in which they are compared. -/
def Permission.fields : List (Field PermissionSpec) :=
  [{ path := "Spec.Tags", Same := fun a b => Tags.Alike a.tags b.tags },
    .seen "Spec.Name" PermissionSpec.name,
    { path := "Spec.PolicyTemplate", Same := fun a b => PolicyAlike a.policyTemplate b.policyTemplate },
    .seen "Spec.ResourceType" PermissionSpec.resourceType]

/-- The fields of a share, in the order in which they are compared. -/
def Share.fields : List (Field ShareSpec) :=
  [{ path := "Spec.Tags", Same := fun a b => Tags.Alike a.tags b.tags },
    .seen "Spec.AllowExternalPrincipals" ShareSpec.allowExternalPrincipals,
    .seen "Spec.Name" ShareSpec.name,
    .seen "Spec.PermissionARNs" fun s => s.permissionArns.toFinset,
    .seen "Spec.Principals" fun s => s.principals.toFinset,
    .seen "Spec.ResourceARNs" fun s => s.resourceArns.toFinset,
    .seen "Spec.Sources" fun s => s.sources.toFinset]

/-- The fields of the objects of a kind. -/
def Kind.fields : (k : Kind) → List (Field k.Spec)
  | .permission => Permission.fields
  | .share => Share.fields

theorem Kind.nodup_fields (k : Kind) : (k.fields.map Field.path).Nodup := by
  cases k <;> decide

/-- **In every field, to have the same is an equivalence relation.** -/
theorem Kind.equivalence_same (k : Kind) : ∀ f ∈ k.fields, Equivalence f.Same := by
  have htags := Tags.equivalence_alike
  cases k with
  | permission =>
    have hpolicy := Permission.PolicyAlike.equivalence
    simp only [Kind.fields, Permission.fields, List.forall_mem_cons, Field.equivalence_seen, true_and]
    exact ⟨htags.comap _, hpolicy.comap _, List.forall_mem_nil _⟩
  | share =>
    simp only [Kind.fields, Share.fields, List.forall_mem_cons, Field.equivalence_seen, true_and]
    exact ⟨htags.comap _, List.forall_mem_nil _⟩

/-! ## Deltas -/

/-- No key of a tag in the specification is given twice. -/
def Resource.HasDistinctTags {k : Kind} (r : Resource k) : Prop := Tags.DistinctKeys (k.tags r.spec)

instance {k : Kind} (r : Resource k) : Decidable r.HasDistinctTags :=
  inferInstanceAs (Decidable (Tags.DistinctKeys _))

theorem sameElements_iff_toFinset {a b : List String} :
    NameSet.sameElements a b = true ↔ a.toFinset = b.toFinset := by
  rw [NameSet.sameElements_iff, NameSet.ofNames_eq_iff, Finset.ext_iff]
  simp only [List.mem_toFinset]

section Paths

open Delta

theorem Permission.paths_fieldDelta {a b : PermissionSpec}
    (htags : sameTags a.tags b.tags = true ↔ Tags.Alike a.tags b.tags) :
    (fieldDelta a b).paths = Field.differing fields a b := by
  simp [fieldDelta, texts, fields, Field.seen, htags, samePolicy_iff_alike]

theorem Share.paths_fieldDelta {a b : ShareSpec}
    (htags : sameTags a.tags b.tags = true ↔ Tags.Alike a.tags b.tags) :
    (fieldDelta a b).paths = Field.differing fields a b := by
  simp [fieldDelta, texts, nameSets, fields, Field.seen, htags, sameElements_iff_toFinset]

variable {k : Kind} {a b : Resource k}

theorem paths_delta_of (htags : sameTags (k.tags a.spec) (k.tags b.spec) = true ↔
      Tags.Alike (k.tags a.spec) (k.tags b.spec)) :
    (k.manager.delta (some a) (some b)).paths = Field.differing k.fields a.spec b.spec := by
  cases k with
  | permission => exact Permission.paths_fieldDelta htags
  | share => exact Share.paths_fieldDelta htags

/-- **A delta lists the fields that are not the same.** -/
theorem paths_delta (ha : a.HasDistinctTags) (hb : b.HasDistinctTags) :
    (k.manager.delta (some a) (some b)).paths = Field.differing k.fields a.spec b.spec :=
  paths_delta_of (Tags.sameTags_iff_alike ha hb)

theorem isEmpty_delta_iff (ha : a.HasDistinctTags) (hb : b.HasDistinctTags) :
    (k.manager.delta (some a) (some b)).isEmpty = true ↔ ∀ f ∈ k.fields, f.Same a.spec b.spec := by
  rw [isEmpty_iff_paths, paths_delta ha hb, Field.differing_eq_nil_iff]

/-- An object does not differ from itself, even if keys of tags are given twice. -/
theorem isEmpty_delta_self (a : Resource k) : (k.manager.delta (some a) (some a)).isEmpty = true := by
  have hsame := Tags.sameTags_self (k.tags a.spec)
  rw [isEmpty_iff_paths, paths_delta_of (iff_of_true hsame (Tags.equivalence_alike.refl _)),
    Field.differing_eq_nil_iff]
  exact fun f hf => (k.equivalence_same f hf).refl a.spec

/-- Nothing but the specifications is compared. -/
theorem delta_congr {a' b' : Resource k} (ha : a.spec = a'.spec) (hb : b.spec = b'.spec) :
    k.manager.delta (some a) (some b) = k.manager.delta (some a') (some b') := by
  cases k with
  | permission => exact congrArg₂ Permission.fieldDelta ha hb
  | share => exact congrArg₂ Share.fieldDelta ha hb

end Paths

/-- What the comparison of two objects promises. -/
structure Manager.ComparesFields {k : Kind} (m : Manager k) : Prop where
  /-- The paths are those of the fields that differ, in the order of the fields. -/
  paths_eq : ∀ a b : Resource k, a.HasDistinctTags → b.HasDistinctTags →
    (m.delta (some a) (some b)).paths = Field.differing k.fields a.spec b.spec
  nodup : ∀ a b : Resource k, a.HasDistinctTags → b.HasDistinctTags →
    (m.delta (some a) (some b)).paths.Nodup
  /-- Metadata and status play no part. -/
  spec_only : ∀ a a' b b' : Resource k, a.spec = a'.spec → b.spec = b'.spec →
    m.delta (some a) (some b) = m.delta (some a') (some b')
  self : ∀ a : Resource k, (m.delta (some a) (some a)).isEmpty = true
  swap : ∀ a b : Resource k, a.HasDistinctTags → b.HasDistinctTags →
    (m.delta (some b) (some a)).paths = (m.delta (some a) (some b)).paths
  /-- Objects without a difference form classes. -/
  equivalence : Equivalence fun a b : {r : Resource k // r.HasDistinctTags} =>
    (m.delta (some a.1) (some b.1)).isEmpty = true

/-- **Objects are compared field by field.** -/
theorem comparesFields_manager (k : Kind) : k.manager.ComparesFields where
  paths_eq a b ha hb := paths_delta ha hb
  nodup a b ha hb := by
    rw [paths_delta ha hb]
    exact Field.nodup_differing k.nodup_fields
  spec_only a a' b b' ha hb := delta_congr ha hb
  self := isEmpty_delta_self
  swap a b ha hb := by
    rw [paths_delta ha hb, paths_delta hb ha]
    exact Field.differing_comm k.equivalence_same
  equivalence := by
    have hsame := (Field.equivalence_forall k.equivalence_same).comap
      fun r : {r : Resource k // r.HasDistinctTags} => r.1.spec
    simpa only [isEmpty_delta_iff (Subtype.prop _) (Subtype.prop _)] using hsame

namespace Permission

/-- A permission as its user wrote it. -/
def written : Permission where
  metadata := .empty
  spec := ⟨"reader", "ec2:Subnet", "\x7b\"Effect\": \"Allow\", \"Action\": []\x7d",
    [⟨"aws:stack", "one"⟩, ⟨"stage", "dev"⟩]⟩
  status := none

/-- The permission with the same policy written another way, and with another value under each key. -/
def rewritten : Permission where
  metadata := { Metadata.empty with name := some "reader" }
  spec := ⟨"reader", "ec2:Subnet", "\x7b\"Action\":[],\"Effect\":\"Allow\"\x7d",
    [⟨"stage", "prod"⟩, ⟨"aws:stack", "two"⟩]⟩
  status := none

/-- Only the tags differ, and they do for the key that is not reserved. -/
theorem paths_rewritten :
    written.HasDistinctTags ∧ rewritten.HasDistinctTags ∧
      (delta (some written) (some rewritten)).paths = ["Spec.Tags"] ∧
      (delta (some rewritten) (some written)).paths = ["Spec.Tags"] := by
  have ha : written.HasDistinctTags := by decide +kernel
  have hb : rewritten.HasDistinctTags := by decide +kernel
  have hpaths : (delta (some written) (some rewritten)).paths = ["Spec.Tags"] :=
    ((comparesFields_manager .permission).paths_eq written rewritten ha hb).trans (by decide +kernel)
  exact ⟨ha, hb, hpaths,
    ((comparesFields_manager .permission).swap written rewritten ha hb).trans hpaths⟩

end Permission

end ShareKeeper
