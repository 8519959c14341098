import ShareKeeper.Proofs.Comparison
import ShareKeeper.Proofs.Json.Written

/-!
# The formatting of a policy

A text of a policy is another one *reformatted* if both spell the same document, up to white space and the
order of members, and no object in it gives a name twice (`Json.Reformatted`). Then both are read as the same
value, and the comparison of permissions finds no difference (`policyAlike_of_reformatted`).

The comparison falls back on the texts themselves where one of them is no document. Even so the policies
between which it reports nothing form classes, over all texts (`comparesDocuments`).
-/

namespace ShareKeeper

/-- Two texts of one document that gives no name twice: they may differ in white space and in the order of
members. -/
def Json.Reformatted (s s' : String) : Prop :=
  ∃ w w' : Json.Written, w.Spells s ∧ w.DistinctNames ∧ w.Reordered w' ∧ w'.Spells s'

/-- A reformatted text is read alike. -/
theorem Json.read_of_reformatted {s s' : String} {v : Json} (h : Json.read s = .ok v)
    (hreformatted : Json.Reformatted s s') : Json.read s' = .ok v := by
  obtain ⟨w, w', hw, hnames, hreordered, hw'⟩ := hreformatted
  exact Json.Written.read_of_reordered h hw hnames hreordered hw'

namespace Permission

open Delta

/-- What the comparison of two policies reports. -/
def policyDelta (a b : String) : Delta :=
  ofField (samePolicy a b) "Spec.PolicyTemplate" (.string a) (.string b)

/-- The permission with another policy. -/
def withPolicy (p : Permission) (text : String) : Permission :=
  { p with spec := { p.spec with policyTemplate := text } }

theorem isEmpty_policyDelta_iff {a b : String} :
    (policyDelta a b).isEmpty = true ↔ PolicyAlike a b := by
  rw [← samePolicy_iff_alike, isEmpty_iff_paths, policyDelta, paths_ofField]
  cases samePolicy a b <;> simp

/-- Permissions that differ in their policies alone differ as the policies do. -/
theorem delta_withPolicy (p : Permission) (a b : String) :
    delta (some (p.withPolicy a)) (some (p.withPolicy b)) = policyDelta a b := by
  have htags : Delta.tags "Spec.Tags" p.spec.tags p.spec.tags = Delta.empty := by
    rw [tags_eq, Tags.sameTags_self]
    rfl
  have htexts (path s : String) : Delta.texts path s s = Delta.empty := by
    rw [texts, decide_eq_true rfl]
    rfl
  show fieldDelta _ _ = _
  simp only [fieldDelta, withPolicy]
  rw [htags, htexts, htexts]
  exact congrArg Delta.mk (List.append_nil _)

/-- A reformatted policy is no difference. -/
theorem policyAlike_of_reformatted {s s' : String} {v : Json} (h : Json.read s = .ok v)
    (hreformatted : Json.Reformatted s s') : PolicyAlike s s' :=
  .document h (Json.read_of_reformatted h hreformatted) (Json.same_refl v)

/-- What the comparison of policies promises. -/
structure ComparesDocuments : Prop where
  /-- The policies that can be read are the texts of documents that are not too deep. -/
  readable : ∀ s v, Json.read s = .ok v ↔
    ∃ w : Json.Written, w.Spells s ∧ w.depth < Json.Reader.depthLimit ∧ w.value = v
  /-- Where nothing but the policies differs, the difference of two permissions is theirs. -/
  alone : ∀ (p : Permission) a b,
    delta (some (p.withPolicy a)) (some (p.withPolicy b)) = policyDelta a b
  /-- Between permissions that differ in the formatting of their policies alone there is no difference,
  whichever comes first. -/
  reformatted : ∀ s s' v, Json.read s = .ok v → Json.Reformatted s s' → ∀ p : Permission,
    (delta (some (p.withPolicy s)) (some (p.withPolicy s'))).isEmpty = true ∧
      (delta (some (p.withPolicy s')) (some (p.withPolicy s))).isEmpty = true
  /-- Policies without a difference form classes, whether they can be read or not. -/
  equivalence : Equivalence fun a b => (policyDelta a b).isEmpty = true
  /-- Different documents are a difference. -/
  documents : ∀ a b x y, Json.read a = .ok x → Json.read b = .ok y →
    ((policyDelta a b).isEmpty = true ↔ x.same y = true)
  /-- A policy that cannot be read is like no other text. -/
  unreadable : ∀ a b e, Json.read a = .error e → ((policyDelta a b).isEmpty = true ↔ a = b)

/-- **Policies are compared as documents**, and their formatting is no part of them. -/
theorem comparesDocuments : ComparesDocuments where
  readable _ _ := Json.read_eq_ok_iff
  alone := delta_withPolicy
  reformatted s s' v h hreformatted p := by
    have halike := policyAlike_of_reformatted h hreformatted
    rw [delta_withPolicy, delta_withPolicy, isEmpty_policyDelta_iff, isEmpty_policyDelta_iff]
    exact ⟨halike, PolicyAlike.equivalence.symm halike⟩
  equivalence := by
    simp only [isEmpty_policyDelta_iff]
    exact PolicyAlike.equivalence
  documents a b x y ha hb := by
    rw [isEmpty_policyDelta_iff]
    exact ⟨fun halike => halike.same ha hb, .document ha hb⟩
  unreadable a b e ha := by
    have hnone : ∀ x, Json.read a ≠ .ok x := by simp [ha]
    rw [isEmpty_policyDelta_iff]
    exact ⟨fun halike => halike.eq_of_none (.inl hnone), .text (.inl hnone)⟩

/-- A policy in a text that is laid out carelessly. -/
def rough : String :=
  "\x7b \"Effect\" : \"Allow\",\n\"Action\":[ \"ec2:DescribeSubnets\" ,7]\x7d\n"

/-- The same policy as a formatter would leave it. -/
def tidy : String :=
  "\x7b\n  \"Action\": [\"ec2:DescribeSubnets\", 7],\n  \"Effect\": \"Allow\"\n\x7d"

/-- A plain member. -/
def effect : String × Json.Written := ("Effect", .text "Allow")

/-- A member with items. -/
def action : String × Json.Written :=
  ("Action", .array [.text "ec2:DescribeSubnets", .scalar (.ofInt 7)])

theorem isEmpty_delta_tidy :
    Json.Reformatted rough tidy ∧
      (delta (some (written.withPolicy rough)) (some (written.withPolicy tidy))).isEmpty = true := by
  have hrough : (Json.Written.object [effect, action]).Spells rough :=
    Json.Written.spells_iff.2 (by with_unfolding_all rfl)
  have htidy : (Json.Written.object [action, effect]).Spells tidy :=
    Json.Written.spells_iff.2 (by with_unfolding_all rfl)
  have hread : Json.read rough = .ok (Json.Written.object [effect, action]).value :=
    Json.read_eq_ok_iff.2 ⟨_, hrough, by decide, rfl⟩
  have hmembers : Json.Written.ReorderedMembers [effect, action] [effect, action] :=
    .cons _ (.text _) (.cons _ (.array (.cons (.text _) (.cons (.scalar _) .nil))) .nil)
  have hreformatted : Json.Reformatted rough tidy :=
    ⟨_, _, hrough, ⟨by decide, trivial, ⟨trivial, trivial, trivial⟩, trivial⟩,
      .object hmembers (.swap _ _ _), htidy⟩
  exact ⟨hreformatted, (comparesDocuments.reformatted rough tidy _ hread hreformatted written).1⟩

end Permission

end ShareKeeper
