import ShareKeeper.Proofs.Permission.Course

/-!
# Permissions converge

A pass over a permission that gets through leaves behind a permission that is what the specification
asks for, and tells by its outcome whether the policy was rotated (`Permission.meets_of_ok`).
-/

namespace ShareKeeper.Permission

open Account Pass

/-- Two texts are the same JSON document. -/
def SameDocument (s t : String) : Prop :=
  ∃ x y, Json.read s = .ok x ∧ Json.read t = .ok y ∧ x.same y = true

/-- Of a text that is a document, being the same policy is being the same document. -/
theorem samePolicy_iff {s t : String} {x : Json} (h : Json.read s = .ok x) :
    samePolicy s t = true ↔ SameDocument s t := by
  rw [samePolicy, h]
  constructor
  · intro hsame
    cases ht : Json.read t with
    | ok y =>
      rw [ht] at hsame
      exact ⟨x, y, h, ht, hsame⟩
    | error e =>
      -- `t` would have to be the same text as `s`, which can be read
      rw [ht] at hsame
      rw [of_decide_eq_true hsame, ht] at h
      cases h
  · rintro ⟨x', y, hx, hy, hsame⟩
    cases h.symm.trans hx
    rw [hy]
    exact hsame

/-- The policy of an object that is valid is a document. -/
theorem read_of_validate {r : Permission} (h : validate r = .ok ()) :
    ∃ x, Json.read r.spec.policyTemplate = .ok x := by
  rw [validate] at h
  split at h
  · cases h
  · split at h
    · cases h
    · cases hread : Json.read r.spec.policyTemplate with
      | ok x => exact ⟨x, rfl⟩
      | error e =>
        rw [hread] at h
        cases h

/-- A permission that is what a specification asks for. -/
structure Meets (spec : PermissionSpec) (p : PermissionRecord) : Prop where
  name : p.detail.name = some spec.name
  resourceType : p.detail.resourceType = some spec.resourceType
  /-- The text may differ, for white space and the order of members do not count. -/
  policy : ∃ policy, p.detail.policyTemplate = some policy ∧ SameDocument spec.policyTemplate policy
  tags : Tags.Agree spec.tags p.detail.tags

/-- What an object has of a permission that reports everything which is compared. -/
structure Reported (p : PermissionRecord) : Prop where
  name : p.detail.name.isSome = true
  resourceType : p.detail.resourceType.isSome = true
  policy : p.detail.policyTemplate.isSome = true

section Meets

variable {r : Permission} {p : PermissionRecord} {x : Json}

theorem Fixed.name_eq (h : Fixed r p) (hp : p.detail.name.isSome = true) :
    p.detail.name = some r.spec.name := by
  obtain ⟨name, hname⟩ := Option.isSome_iff_exists.1 hp
  have := h.name
  simp only [seen, observe, hname, Option.getD_some] at this
  rw [hname, this]

theorem Fixed.resourceType_eq (h : Fixed r p) (hp : p.detail.resourceType.isSome = true) :
    p.detail.resourceType = some r.spec.resourceType := by
  obtain ⟨type, htype⟩ := Option.isSome_iff_exists.1 hp
  have := h.resourceType
  simp only [seen, observe, htype, Option.getD_some] at this
  rw [htype, this]

/-- Whether the policy is kept, in terms of documents. -/
theorem policyKept_iff (h : Json.read r.spec.policyTemplate = .ok x) {policy : String}
    (hp : p.detail.policyTemplate = some policy) :
    policyKept r p = true ↔ SameDocument r.spec.policyTemplate policy := by
  rw [policyKept, samePolicy_iff h, seen, observe, hp]
  rfl

/-- A permission that accords with the specification meets it, if it reports everything. -/
theorem Accords.meets (h : Accords r p) (hreported : Reported p)
    (hread : Json.read r.spec.policyTemplate = .ok x) : Meets r.spec p where
  name := h.name_eq hreported.name
  resourceType := h.resourceType_eq hreported.resourceType
  policy := by
    obtain ⟨policy, hp⟩ := Option.isSome_iff_exists.1 hreported.policy
    exact ⟨policy, hp, (policyKept_iff hread hp).1 h.policy⟩
  tags := h.tags

end Meets

/-! ## Passes -/

section Passes

variable {a : Account} {r : Permission} {arn : String} {p : PermissionRecord}
  {t : Status PermissionFacts} {requeue : Bool}

/-- What is reported before a pass is reported after it. -/
theorem Becomes.reported (hreported : ∀ arn p, Behind a r arn p → Reported p)
    (h : Becomes a r arn p t requeue) : Reported p := by
  cases h with
  | kept h => exact ⟨(hreported _ _ h).name, (hreported _ _ h).resourceType, (hreported _ _ h).policy⟩
  | rotated h => exact ⟨(hreported _ _ h).name, (hreported _ _ h).resourceType, rfl⟩
  | created => exact ⟨rfl, rfl, rfl⟩

/-- **A permission after a pass that gets through.** It is what the specification asks for. If it was
there before, then either its policy was the same document already, and its version is what it was,
or the policy was rotated: the version is the number of the one that was created, whose text is
stored as the default version, and the entity does not count as settled yet. -/
theorem meets_of_ok (harns : a.ByArn) (hdisjoint : a.Disjoint)
    (hreported : ∀ arn p, Behind a r arn p → Reported p) {region : Option String} {now : Instant}
    {out : Reconciled .permission} {a' : Account}
    (h : run serve (reconcile manager region now r) a = (.ok out, a')) :
    ∃ arn p, (r.store now (.ok out)).arn = some arn ∧ a'.permissions.find? arn = some p ∧
      Meets r.spec p ∧
      ∀ arn₀ q policy, Behind a r arn₀ q → q.detail.policyTemplate = some policy →
        (SameDocument r.spec.policyTemplate policy → p.detail.version = q.detail.version) ∧
        (¬ SameDocument r.spec.policyTemplate policy →
          ∃ (created : PermissionDetail) (n : Int),
            (⟨.createPermissionVersion arn₀ r.spec.policyTemplate, .ok created⟩ : Exchange)
              ∈ transcript serve (reconcile manager region now r) a ∧
            Rotation.parseVersion (created.version.getD "") = .ok n ∧
            p.detail.version = some (toString n) ∧
            (r.store now (.ok out)).statusD.facts.version = created.version ∧
            (r.store now (.ok out)).statusD.facts.defaultVersion = some true ∧
            out.synced = false) := by
  have hvalid : validate r = .ok () := validate_of_ok (m := manager) h
  obtain ⟨document, hread⟩ := read_of_validate hvalid
  obtain ⟨arn, p, t, requeue, x, hbecomes, hx, rfl, rfl⟩ := becomes_of_ok harns hdisjoint h
  obtain ⟨hkey, harn⟩ := hbecomes.arn_eq harns
  refine ⟨arn, p, ?_, putPermission_find? hkey,
    hbecomes.accords.meets (hbecomes.reported hreported) hread, ?_⟩
  · rw [arn_store, Resource.arn, hx]
    exact harn
  intro arn₀ q policy hbehind hpolicy
  -- there is only one permission behind the object, and this is what became of it
  cases hbecomes with
  | created habsent => exact absurd hbehind (habsent arn₀ q)
  | @kept arn q' h' hfixed hkept =>
    cases h'.recorded.symm.trans hbehind.recorded
    cases h'.found.symm.trans hbehind.found
    exact ⟨fun _ => rfl, fun hnot => absurd ((policyKept_iff hread hpolicy).1 hkept) hnot⟩
  | @rotated arn q' h' hfixed hkept n hn hanswer =>
    cases h'.recorded.symm.trans hbehind.recorded
    cases h'.found.symm.trans hbehind.found
    constructor
    · intro hsame
      rw [(policyKept_iff hread hpolicy).2 hsame] at hkept
      cases hkept
    · intro _
      refine ⟨_, n, (Course.lift_ok hvalid).mem_transcript_bind (mem_transcript_bind hanswer _), hn,
        rfl, ?_, ?_, rfl⟩
      · rw [facts_store _ _ _ _ hx]
        rfl
      · rw [facts_store _ _ _ _ hx]
        rfl

end Passes

/-- An object that has its permission. -/
def recorded (spec : PermissionSpec) (arn : String) : Permission where
  metadata := .empty
  spec
  status := some { Kind.emptyStatus .permission with identity := some ⟨some arn, none, none⟩ }

/-- An account with a permission whose policy is an empty object. -/
def readerAccount : Account :=
  (serve (.createPermission ⟨"reader", "ec2:Subnet", "\x7b\x7d", []⟩) .empty).2

/-- The permission is to have a tag, and an empty list as its policy. -/
def reader : Permission :=
  recorded ⟨"reader", "ec2:Subnet", "[]", [⟨"stage", "x"⟩]⟩ (permissionArn "reader")

/-- A permission whose policy is rotated. -/
theorem reader_meets :
    ∃ out a', run serve (reconcile manager none .epoch reader) readerAccount = (.ok out, a') ∧
      ∃ arn p, (reader.store .epoch (.ok out)).arn = some arn ∧ a'.permissions.find? arn = some p ∧
        Meets reader.spec p ∧
        ∀ arn₀ q policy, Behind readerAccount reader arn₀ q →
          q.detail.policyTemplate = some policy →
          (SameDocument reader.spec.policyTemplate policy → p.detail.version = q.detail.version) ∧
          (¬ SameDocument reader.spec.policyTemplate policy →
            ∃ (created : PermissionDetail) (n : Int),
              (⟨.createPermissionVersion arn₀ reader.spec.policyTemplate, .ok created⟩ : Exchange)
                ∈ transcript serve (reconcile manager none .epoch reader) readerAccount ∧
              Rotation.parseVersion (created.version.getD "") = .ok n ∧
              p.detail.version = some (toString n) ∧
              (reader.store .epoch (.ok out)).statusD.facts.version = created.version ∧
              (reader.store .epoch (.ok out)).statusD.facts.defaultVersion = some true ∧
              out.synced = false) := by
  have hok : (run serve (reconcile manager none .epoch reader) readerAccount).1.isOk = true := by
    decide +kernel
  obtain ⟨out, a', hrun⟩ := exists_of_isOk hok
  refine ⟨out, a', hrun, meets_of_ok (byArn_serve (.createPermission _) byArn_empty)
    (fun arn => .inr rfl) ?_ hrun⟩
  rintro arn p ⟨harn, hfound⟩
  cases harn
  have hreader : readerAccount.permissions.find? (permissionArn "reader")
      = some (newPermission ⟨"reader", "ec2:Subnet", "\x7b\x7d", []⟩) :=
    putPermission_find? (a := empty)
      (p := newPermission ⟨"reader", "ec2:Subnet", "\x7b\x7d", []⟩) rfl
  cases hreader.symm.trans hfound
  exact ⟨rfl, rfl, rfl⟩

end ShareKeeper.Permission
