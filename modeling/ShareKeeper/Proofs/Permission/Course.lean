import ShareKeeper.Proofs.Delta
import ShareKeeper.Proofs.Reconcile
import ShareKeeper.Proofs.SyncPlan

/-!
# Passes over a permission

What a pass over a permission does on an account that answers for itself. If there is no permission
under the recorded ARN, one is created. Otherwise its tags are brought in step, and then its policy is
rotated if it says something else than the desired one. A pass fails if it would have to change what
is fixed, or if it meets a version that is no number.
-/

namespace ShareKeeper

/-- The record with another policy. -/
def PermissionRecord.withPolicy (p : PermissionRecord) (policy : String) : PermissionRecord :=
  { p with detail := { p.detail with policyTemplate := some policy } }

/-- The record with another version. -/
def PermissionRecord.withVersion (p : PermissionRecord) (version : String) : PermissionRecord :=
  { p with detail := { p.detail with version := some version } }

/-- The answer to the creation of a version. -/
def PermissionRecord.newVersion (p : PermissionRecord) (policy : String) : PermissionDetail :=
  { (p.withPolicy policy).detail with
    version := some (toString (Account.nextVersion p.detail.version))
    defaultVersion := some false }

namespace Account

variable {a : Account} {arn : String} {p : PermissionRecord}

theorem serve_createPermissionVersion (h : a.permissions.find? arn = some p) (policy : String) :
    serve (.createPermissionVersion arn policy) a
      = (.ok (p.newVersion policy), a.putPermission (p.withPolicy policy)) := by
  rw [serve, withPermission_of_find? h]
  rfl

theorem serve_deletePermissionVersion (a : Account) (arn : String) (version : Int) :
    serve (.deletePermissionVersion arn version) a = (.ok (), a) := rfl

theorem serve_setDefaultPermissionVersion (h : a.permissions.find? arn = some p) (version : Int) :
    serve (.setDefaultPermissionVersion arn version) a
      = (.ok (), a.putPermission (p.withVersion (toString version))) := by
  rw [serve, withPermission_of_find? h]
  rfl

end Account

namespace Rotation

open Account Pass

variable {a : Account} {arn version : String} {p : PermissionRecord}

/-- The steps from the first one on. -/
theorem course_replace (h : a.permissions.find? arn = some p) (policy : String) (m : Int)
    {out : Rotation} {asked : List Request} {a' : Account}
    (hpromote : Course serve
      (promote arn (toString (nextVersion p.detail.version)) (p.newVersion policy))
      (a.putPermission (p.withPolicy policy)) asked (.ok out) a') :
    Course serve (replace arn m policy) a
      (.createPermissionVersion arn policy :: .deletePermissionVersion arn m :: asked) (.ok out) a' :=
  .attempt_recorded_ok (serve_createPermissionVersion h policy)
    (.attempt_recorded_ok (serve_deletePermissionVersion (a.putPermission (p.withPolicy policy)) arn m)
      hpromote)

/-- **A rotation from one version to the next.** -/
theorem course_run (h : a.permissions.find? arn = some p) {m n : Int}
    (hold : parseVersion version = .ok m)
    (hnew : parseVersion (toString (nextVersion p.detail.version)) = .ok n) (policy : String) :
    Course serve (run arn (some version) policy) a
      [.createPermissionVersion arn policy, .deletePermissionVersion arn m,
        .setDefaultPermissionVersion arn n]
      (.ok ⟨.defaultVersionSet (toString (nextVersion p.detail.version)),
        .ok { p.newVersion policy with defaultVersion := some true }⟩)
      (a.putPermission ((p.withPolicy policy).withVersion (toString n))) := by
  have hkey : p.arn = arn := Roster.key_of_find? h
  have hpromoted := serve_setDefaultPermissionVersion
    (putPermission_find? (a := a) (p := p.withPolicy policy) hkey) n
  rw [putPermission_putPermission (by rfl)] at hpromoted
  rw [run]
  simp only [hold]
  refine course_replace h policy m ?_
  rw [promote, hnew]
  exact .attempt_recorded_ok hpromoted (.done _)

/-- The answer with which a rotation begins. -/
theorem mem_transcript_run (h : a.permissions.find? arn = some p) {m : Int}
    (hold : parseVersion version = .ok m) (policy : String) :
    (⟨.createPermissionVersion arn policy, .ok (p.newVersion policy)⟩ : Exchange)
      ∈ transcript serve (run arn (some version) policy) a := by
  rw [run]
  simp only [hold]
  refine mem_transcript_bind ?_ _
  rw [transcript_attempt]
  exact mem_transcript_recorded (serve_createPermissionVersion h policy)

/-- A rotation goes through, or it meets a version that is no number. -/
theorem run_cases (h : a.permissions.find? arn = some p) (previous : Option String)
    (policy : String) :
    (∃ version m n, previous = some version ∧ parseVersion version = .ok m ∧
      parseVersion (toString (nextVersion p.detail.version)) = .ok n) ∨
    ∃ asked state e a',
      Course serve (run arn previous policy) a asked (.ok ⟨state, .error e⟩) a' := by
  cases previous with
  | none => exact .inr ⟨_, _, _, a, .done _⟩
  | some version =>
    rw [run]
    cases hold : parseVersion version with
    | error e => exact .inr ⟨_, _, _, a, .done _⟩
    | ok m =>
      cases hnew : parseVersion (toString (nextVersion p.detail.version)) with
      | ok n => exact .inl ⟨version, m, n, rfl, hold, rfl⟩
      | error e =>
        -- the new version is there and the old one is gone, but no default is set
        refine .inr ⟨[.createPermissionVersion arn policy, .deletePermissionVersion arn m],
          .oldVersionDeleted (toString (nextVersion p.detail.version)), e,
          a.putPermission (p.withPolicy policy), course_replace h policy m ?_⟩
        rw [promote, hnew]
        exact .done _

end Rotation

namespace Permission

open Account Pass

/-! ## The status that is observed -/

/-- What an observation makes of a status. -/
def observeStatus (s : Status PermissionFacts) (d : PermissionDetail) : Status PermissionFacts where
  identity :=
    match d.arn with
    | some arn => some { s.identity.getD .empty with arn := some arn }
    | none => s.identity
  conditions := s.conditions
  creationTime := d.creationTime
  lastUpdatedTime := d.lastUpdatedTime
  featureSet := d.featureSet
  state := d.status
  facts :=
    { defaultVersion := d.defaultVersion
      isResourceTypeDefault := d.isResourceTypeDefault
      permissionType := d.permissionType
      version := d.version }

/-- **Observing twice is observing once.** -/
theorem observeStatus_again (s : Status PermissionFacts) (d : PermissionDetail) :
    observeStatus (observeStatus s d) d = observeStatus s d := by
  cases harn : d.arn <;> simp [observeStatus, harn]

/-- An observation of the entity under an ARN leaves the status with this ARN. -/
theorem arn_observeStatus {s : Status PermissionFacts} {d : PermissionDetail} {arn : String}
    (hself : ∀ x ∈ d.arn, x = arn) (harn : s.identity.bind Identity.arn = some arn) :
    (observeStatus s d).identity.bind Identity.arn = some arn := by
  cases hd : d.arn with
  | none => simpa [observeStatus, hd] using harn
  | some x =>
    cases hself x hd
    simp [observeStatus, hd]

/-- It makes no difference whether a status is concluded before or after it is observed. -/
theorem observeStatus_concluded (region : Option String) (now : Instant) (b : Bool)
    (s : Status PermissionFacts) (d : PermissionDetail) :
    observeStatus (s.concluded region now b) d = (observeStatus s d).concluded region now b := by
  cases harn : d.arn <;> simp [observeStatus, Status.concluded, harn]

/-! ## Looking at the permission -/

/-- The permission behind an object is the one under the recorded ARN. -/
structure Behind (a : Account) (r : Permission) (arn : String) (p : PermissionRecord) : Prop where
  recorded : r.arn = some arn
  found : a.permissions.find? arn = some p

/-- The object with its permission in view. -/
def seen (r : Permission) (p : PermissionRecord) : Permission :=
  let latest := observe r p.detail
  { latest with spec := { latest.spec with tags := Tags.visible p.detail.tags } }

section Look

variable {a : Account} {r : Permission} {arn : String} {p : PermissionRecord}

/-- **A look at the permission behind an object.** -/
theorem course_readOne (h : Behind a r arn p) :
    Course serve (readOne r) a [.getPermission arn none] (.ok (seen r p)) a :=
  (Course.lift_ok (requireArn_of_arn h.recorded)).bind_quiet
    ((Course.recorded_ok (serve_getPermission h.found none)).bind_done rfl)

/-- A look in vain. -/
theorem course_readOne_absent (h : ∀ arn p, ¬ Behind a r arn p) :
    ∃ e asked, e.isNotFound = true ∧ Course serve (readOne r) a asked (.error e) a := by
  cases harn : r.arn with
  | none => exact ⟨.notFound, _, rfl, (Course.lift_error (requireArn_of_none harn)).bind_error⟩
  | some arn =>
    cases hp : a.permissions.find? arn with
    | none =>
      exact ⟨_, _, rfl, (Course.lift_ok (requireArn_of_arn harn)).bind_quiet
        (Course.recorded_error (serve_getPermission_absent hp none)).bind_error⟩
    | some p => exact absurd ⟨harn, hp⟩ (h arn p)

/-- The permission that is seen is the one under the recorded ARN. -/
theorem seen_arn (hself : ∀ x ∈ p.detail.arn, x = arn) (harn : r.arn = some arn) :
    (seen r p).arn = some arn :=
  arn_observeStatus hself ((arn_eq_statusD r).symm.trans harn)

end Look

/-! ## Creating the permission -/

/-- What is told of a permission that was created. -/
def announced (r : Permission) : PermissionDetail :=
  { (newPermission r.input).detail with policyTemplate := none }

theorem course_create (a : Account) (r : Permission) :
    Course serve (create r) a [.createPermission r.input] (.ok (observe r (announced r)))
      (a.putPermission (newPermission r.input)) :=
  (Course.recorded_ok (v := announced r) rfl).bind_done rfl

/-! ## Updating the permission -/

/-- What cannot be changed is as desired. -/
structure Fixed (r : Permission) (p : PermissionRecord) : Prop where
  name : r.spec.name = (seen r p).spec.name
  resourceType : r.spec.resourceType = (seen r p).spec.resourceType

/-- Whether the policy is the desired one. -/
def policyKept (r : Permission) (p : PermissionRecord) : Bool :=
  samePolicy r.spec.policyTemplate (seen r p).spec.policyTemplate

/-- The permission with its tags in step. -/
def tagged (r : Permission) (p : PermissionRecord) : PermissionRecord :=
  p.withTags (Tags.settle r.spec.tags p.detail.tags)

/-- The permission with the desired policy in the version with a number. -/
def rotated (r : Permission) (p : PermissionRecord) (n : Int) : PermissionRecord :=
  ((tagged r p).withPolicy r.spec.policyTemplate).withVersion (toString n)

/-- What a rotation tells about the new version. -/
def promoted (r : Permission) (p : PermissionRecord) : PermissionDetail :=
  { (tagged r p).newVersion r.spec.policyTemplate with defaultVersion := some true }

/-- The requests that bring the tags in step. -/
def planned (arn : String) (r : Permission) (p : PermissionRecord) : List Request :=
  (SyncPlan.tags (.resource arn) r.spec.tags (Tags.visible p.detail.tags)).requests

section Update

variable {a : Account} {r : Permission} {arn : String} {p : PermissionRecord}

/-- An empty delta reports nothing that is fixed. -/
theorem refuseImmutable_of_isEmpty {d : Delta} (h : d.isEmpty = true) :
    refuseImmutable d = .ok () := by
  simp [refuseImmutable, Delta.differentAt_of_isEmpty h]

/-- What is fixed is as desired, or the update is refused. -/
theorem refuseImmutable_cases (r : Permission) (p : PermissionRecord) :
    refuseImmutable (fieldDelta r.spec (seen r p).spec) = .ok () ∧ Fixed r p ∨
      ∃ e, refuseImmutable (fieldDelta r.spec (seen r p).spec) = .error e := by
  rw [refuseImmutable, differentAt_name, differentAt_resourceType]
  by_cases hname : r.spec.name = (seen r p).spec.name
  · by_cases htype : r.spec.resourceType = (seen r p).spec.resourceType
    · exact .inl ⟨by simp [hname, htype], hname, htype⟩
    · exact .inr ⟨.validation (.immutable "Spec.ResourceType"), by simp [hname, htype]⟩
  · exact .inr ⟨.validation (.immutable "Spec.Name"), by simp [hname]⟩

theorem refuseImmutable_of_fixed (h : Fixed r p) :
    refuseImmutable (fieldDelta r.spec (seen r p).spec) = .ok () := by
  rw [refuseImmutable, differentAt_name, differentAt_resourceType, decide_eq_true h.name,
    decide_eq_true h.resourceType]
  rfl

/-- Tags that do not differ are planned nothing for. -/
theorem syncTags_eq (arn : String) (r latest : Permission) :
    syncTags arn r latest (fieldDelta r.spec latest.spec)
      = (SyncPlan.tags (.resource arn) r.spec.tags latest.spec.tags).perform := by
  rw [syncTags, differentAt_tags]
  cases hsame : Delta.sameTags r.spec.tags latest.spec.tags with
  | false => rfl
  | true =>
    exact (SyncPlan.perform_of_requests
      (SyncPlan.requests_tags (Delta.change_of_sameTags hsame) _)).symm

/-- The first part of an update, after which the policy is left to do. -/
theorem course_syncTags (hshare : a.shares.find? arn = none)
    (h : a.permissions.find? arn = some p) (r : Permission) :
    Course serve (syncTags arn r (seen r p) (fieldDelta r.spec (seen r p).spec)) a (planned arn r p)
      (.ok ()) (a.putPermission (tagged r p)) := by
  rw [syncTags_eq]
  exact SyncPlan.course_permissionTags hshare h r.spec.tags

/-- Tags that need no change are left alone. -/
theorem course_syncTags_idle
    (h : (Tags.change r.spec.tags (Tags.visible p.detail.tags)).isEmpty = true) (a : Account)
    (arn : String) :
    Course serve (syncTags arn r (seen r p) (fieldDelta r.spec (seen r p).spec)) a [] (.ok ()) a := by
  have hsame : (Tags.change r.spec.tags (seen r p).spec.tags).isEmpty = true := h
  rw [syncTags_eq, SyncPlan.perform_of_requests (SyncPlan.requests_tags hsame _)]
  exact .done _

/-- A policy that says the same is left alone. -/
theorem course_rotatePolicy_kept (h : policyKept r p = true) (a : Account) (arn : String)
    (updated : Permission) :
    Course serve (rotatePolicy arn r (seen r p) (fieldDelta r.spec (seen r p).spec) updated) a []
      (.ok updated) a := by
  rw [rotatePolicy, differentAt_policy, if_neg (by simpa [policyKept] using h)]
  exact .done _

/-- A policy that says something else is rotated, unless a version is no number. -/
theorem course_rotatePolicy_cases (h : policyKept r p = false)
    (hfound : a.permissions.find? arn = some (tagged r p)) (updated : Permission) :
    (∃ m n, Rotation.parseVersion (toString (nextVersion p.detail.version)) = .ok n ∧
      (⟨.createPermissionVersion arn r.spec.policyTemplate,
          .ok ((tagged r p).newVersion r.spec.policyTemplate)⟩ : Exchange)
        ∈ transcript serve
          (rotatePolicy arn r (seen r p) (fieldDelta r.spec (seen r p).spec) updated) a ∧
      Course serve (rotatePolicy arn r (seen r p) (fieldDelta r.spec (seen r p).spec) updated) a
        [.createPermissionVersion arn r.spec.policyTemplate, .deletePermissionVersion arn m,
          .setDefaultPermissionVersion arn n]
        (.ok (observe updated (promoted r p))) (a.putPermission (rotated r p n))) ∨
    ∃ asked e a', Course serve
      (rotatePolicy arn r (seen r p) (fieldDelta r.spec (seen r p).spec) updated) a asked
      (.error e) a' := by
  have hrotates : rotatePolicy arn r (seen r p) (fieldDelta r.spec (seen r p).spec) updated
      = Rotation.run arn p.detail.version r.spec.policyTemplate >>= fun rotation =>
          Pass.lift rotation.result >>= fun created => pure (observe updated created) := by
    rw [rotatePolicy, differentAt_policy]
    exact if_pos (by simpa [policyKept] using h)
  rw [hrotates]
  rcases Rotation.run_cases hfound p.detail.version r.spec.policyTemplate with
    ⟨version, m, n, hversion, hold, hnew⟩ | ⟨asked, state, e, a', hrun⟩
  · have hheard := Rotation.mem_transcript_run hfound hold r.spec.policyTemplate
    have hrun := Rotation.course_run hfound hold hnew r.spec.policyTemplate
    rw [← hversion] at hheard hrun
    exact .inl ⟨m, n, hnew, mem_transcript_bind hheard _, hrun.bind_done rfl⟩
  · refine .inr ⟨_, e, a', hrun.bind (Course.lift_error rfl).bind_error⟩

end Update

/-- An empty delta reports none of the fields. -/
theorem kept_of_isEmpty {r : Permission} {p : PermissionRecord}
    (h : (fieldDelta r.spec (seen r p).spec).isEmpty = true) :
    Fixed r p ∧ policyKept r p = true ∧
      (Tags.change r.spec.tags (Tags.visible p.detail.tags)).isEmpty = true := by
  have hname := Delta.differentAt_of_isEmpty h "Spec.Name"
  have htype := Delta.differentAt_of_isEmpty h "Spec.ResourceType"
  have hpolicy := Delta.differentAt_of_isEmpty h "Spec.PolicyTemplate"
  have htags := Delta.differentAt_of_isEmpty h "Spec.Tags"
  rw [differentAt_name, Bool.not_eq_false', decide_eq_true_eq] at hname
  rw [differentAt_resourceType, Bool.not_eq_false', decide_eq_true_eq] at htype
  rw [differentAt_policy, Bool.not_eq_false'] at hpolicy
  rw [differentAt_tags, Bool.not_eq_false'] at htags
  exact ⟨⟨hname, htype⟩, hpolicy, Delta.change_of_sameTags htags⟩

/-! ## Whole passes -/

/-- What becomes of the permission of an object in a pass that gets through: the ARN that it is
found under, the permission, the status before it is concluded, and whether the effect shows only
later. -/
inductive Becomes (a : Account) (r : Permission) :
    String → PermissionRecord → Status PermissionFacts → Bool → Prop
  | kept {arn : String} {p : PermissionRecord} (h : Behind a r arn p) (hfixed : Fixed r p)
      (hpolicy : policyKept r p = true) :
      Becomes a r arn (tagged r p) (observeStatus r.statusD p.detail) false
  | rotated {arn : String} {p : PermissionRecord} (h : Behind a r arn p) (hfixed : Fixed r p)
      (hpolicy : policyKept r p = false) {n : Int}
      (hn : Rotation.parseVersion (toString (nextVersion p.detail.version)) = .ok n)
      (hanswer : (⟨.createPermissionVersion arn r.spec.policyTemplate,
          .ok ((tagged r p).newVersion r.spec.policyTemplate)⟩ : Exchange)
        ∈ transcript serve (applyDesired manager r) a) :
      Becomes a r arn (rotated r p n)
        (observeStatus (observeStatus r.statusD p.detail) (promoted r p)) true
  | created (h : ∀ arn p, ¬ Behind a r arn p) :
      Becomes a r (permissionArn r.spec.name) (newPermission r.input)
        (observeStatus r.statusD (announced r)) false

/-- A permission that is what a specification asks for, as far as it reports anything. -/
structure Accords (r : Permission) (p : PermissionRecord) : Prop extends Fixed r p where
  policy : policyKept r p = true
  tags : Tags.Agree r.spec.tags p.detail.tags

theorem samePolicy_self (policy : String) : samePolicy policy policy = true := by
  rw [samePolicy]
  cases Json.read policy with
  | ok x => exact x.same_refl
  | error e => exact decide_eq_true rfl

/-- **After a pass the permission accords with the specification.** -/
theorem Becomes.accords {a : Account} {r : Permission} {arn : String} {p : PermissionRecord}
    {t : Status PermissionFacts} {requeue : Bool} (h : Becomes a r arn p t requeue) :
    Accords r p := by
  cases h with
  | kept h hfixed hpolicy =>
    exact ⟨⟨hfixed.name, hfixed.resourceType⟩, hpolicy, Tags.agree_settle _ _⟩
  | rotated h hfixed =>
    exact ⟨⟨hfixed.name, hfixed.resourceType⟩, samePolicy_self _, Tags.agree_settle _ _⟩
  | created =>
    exact ⟨⟨rfl, rfl⟩, samePolicy_self _, Tags.agree_creationTags r r.spec.tags⟩

/-- The permission after a pass is put under its ARN, which the status names. -/
theorem Becomes.arn_eq {a : Account} {r : Permission} {arn : String} {p : PermissionRecord}
    {t : Status PermissionFacts} {requeue : Bool} (harns : a.ByArn)
    (h : Becomes a r arn p t requeue) :
    p.arn = arn ∧ t.identity.bind Identity.arn = some arn := by
  cases h with
  | @kept _ q h =>
    have hkey : q.arn = arn := Roster.key_of_find? h.found
    have hself := harns.permissions arn q h.found
    exact ⟨hkey, arn_observeStatus hself ((arn_eq_statusD r).symm.trans h.recorded)⟩
  | @rotated _ q h =>
    have hkey : q.arn = arn := Roster.key_of_find? h.found
    have hself := harns.permissions arn q h.found
    exact ⟨hkey, arn_observeStatus (d := promoted r q) hself
      (arn_observeStatus hself ((arn_eq_statusD r).symm.trans h.recorded))⟩
  | created => exact ⟨rfl, rfl⟩

section Whole

variable {a : Account} {r : Permission} {arn : String} {p : PermissionRecord}

/-- An update whose tags come first. -/
theorem course_update {out : Except Failure Permission} {l asked : List Request} {a₁ a' : Account}
    (harn : (seen r p).arn = some arn)
    (hfixed : refuseImmutable (fieldDelta r.spec (seen r p).spec) = .ok ())
    (htags : Course serve (syncTags arn r (seen r p) (fieldDelta r.spec (seen r p).spec)) a l
      (.ok ()) a₁)
    (hpolicy : Course serve (rotatePolicy arn r (seen r p) (fieldDelta r.spec (seen r p).spec)
      { r with status := (seen r p).status }) a₁ asked out a') :
    Course serve (update r (seen r p) (fieldDelta r.spec (seen r p).spec)) a (l ++ asked) out a' :=
  (Course.lift_ok hfixed).bind_quiet ((Course.lift_ok (requireArn_of_arn harn)).bind_quiet
    (htags.bind hpolicy))

theorem requeueAfterUpdate_eq (r : Permission) (p : PermissionRecord) :
    requeueAfterUpdate (fieldDelta r.spec (seen r p).spec) = !policyKept r p :=
  differentAt_policy r.spec (seen r p).spec

/-- A permission whose policy is kept is brought in line by its tags alone. -/
theorem course_bringInLine_kept {l : List Request} {a₁ : Account} (harn : (seen r p).arn = some arn)
    (hfixed : refuseImmutable (fieldDelta r.spec (seen r p).spec) = .ok ())
    (hpolicy : policyKept r p = true)
    (htags : Course serve (syncTags arn r (seen r p) (fieldDelta r.spec (seen r p).spec)) a l
      (.ok ()) a₁) :
    ∃ x, x.status = some (observeStatus r.statusD p.detail) ∧
      Course serve (bringInLine manager r (seen r p)) a l (.ok (x, false)) a₁ := by
  cases hempty : (fieldDelta r.spec (seen r p).spec).isEmpty with
  | true =>
    -- the update that would come of it does nothing, and is left out
    obtain ⟨-, -, hsame⟩ := kept_of_isEmpty hempty
    obtain ⟨rfl, -, rfl⟩ := htags.unique (course_syncTags_idle hsame a arn)
    exact ⟨seen r p, rfl, course_bringInLine_same (m := manager) hempty⟩
  | false =>
    refine ⟨{ r with status := (seen r p).status }, rfl, ?_⟩
    have hline := course_bringInLine_update (m := manager) hempty
      (course_update harn hfixed htags (course_rotatePolicy_kept hpolicy a₁ arn _))
    rw [List.append_nil] at hline
    have hrequeue : manager.requeueAfterUpdate (manager.delta (some r) (some (seen r p)))
        = false := by
      rw [← Bool.not_true, ← hpolicy]
      exact requeueAfterUpdate_eq r p
    rwa [hrequeue] at hline

/-- A delta with another policy in it is not empty, and neither is one that is refused. -/
theorem isEmpty_of_not_kept (hpolicy : policyKept r p = false) :
    (fieldDelta r.spec (seen r p).spec).isEmpty = false :=
  Bool.eq_false_iff.2 fun hempty => absurd (kept_of_isEmpty hempty).2.1 (by simp [hpolicy])

theorem isEmpty_of_refused {e : Failure}
    (hrefused : refuseImmutable (fieldDelta r.spec (seen r p).spec) = .error e) :
    (fieldDelta r.spec (seen r p).spec).isEmpty = false := by
  refine Bool.eq_false_iff.2 fun hempty => ?_
  rw [refuseImmutable_of_isEmpty hempty] at hrefused
  cases hrefused

/-- A permission whose policy is rotated is brought in line by its tags and then the rotation, and
the pass asks to be repeated. -/
theorem course_bringInLine_rotated {x : Permission} {l asked : List Request} {a₁ a' : Account}
    (harn : (seen r p).arn = some arn)
    (hallowed : refuseImmutable (fieldDelta r.spec (seen r p).spec) = .ok ())
    (hpolicy : policyKept r p = false)
    (htags : Course serve (syncTags arn r (seen r p) (fieldDelta r.spec (seen r p).spec)) a l
      (.ok ()) a₁)
    (hrotate : Course serve (rotatePolicy arn r (seen r p) (fieldDelta r.spec (seen r p).spec)
      { r with status := (seen r p).status }) a₁ asked (.ok x) a') :
    Course serve (bringInLine manager r (seen r p)) a (l ++ asked) (.ok (x, true)) a' := by
  have hline := course_bringInLine_update (m := manager) (isEmpty_of_not_kept hpolicy)
    (course_update harn hallowed htags hrotate)
  have hrequeue : manager.requeueAfterUpdate (manager.delta (some r) (some (seen r p))) = true := by
    rw [← Bool.not_false, ← hpolicy]
    exact requeueAfterUpdate_eq r p
  rwa [hrequeue] at hline

/-- What the rotation hears is heard in the pass. -/
theorem mem_transcript_rotated {l : List Request} {a₁ : Account} {x : Exchange} (h : Behind a r arn p)
    (harn : (seen r p).arn = some arn)
    (hallowed : refuseImmutable (fieldDelta r.spec (seen r p).spec) = .ok ())
    (hpolicy : policyKept r p = false)
    (htags : Course serve (syncTags arn r (seen r p) (fieldDelta r.spec (seen r p).spec)) a l
      (.ok ()) a₁)
    (hanswer : x ∈ transcript serve (rotatePolicy arn r (seen r p)
      (fieldDelta r.spec (seen r p).spec) { r with status := (seen r p).status }) a₁) :
    x ∈ transcript serve (applyDesired manager r) a := by
  have hupdate : x ∈ transcript serve
      (update r (seen r p) (fieldDelta r.spec (seen r p).spec)) a :=
    (Course.lift_ok hallowed).mem_transcript_bind
      ((Course.lift_ok (requireArn_of_arn harn)).mem_transcript_bind
        (htags.mem_transcript_bind hanswer))
  exact (course_readOne h).attempt.mem_transcript_bind
    (mem_transcript_bringInLine (m := manager) (isEmpty_of_not_kept hpolicy) hupdate)

/-- **A permission behind an object is brought in line,** if nothing stands in the way of it. -/
theorem becomes_of_behind (hshare : a.shares.find? arn = none) (h : Behind a r arn p)
    (hself : ∀ x ∈ p.detail.arn, x = arn) :
    (∃ asked e a', Course serve (applyDesired manager r) a asked (.error e) a') ∨
      ∃ p' t requeue x asked, Becomes a r arn p' t requeue ∧ x.status = some t ∧
        Course serve (applyDesired manager r) a asked (.ok (x, requeue)) (a.putPermission p') := by
  have hread := course_readOne h
  have harn := seen_arn hself h.recorded
  have htags := course_syncTags hshare h.found r
  -- what is fixed is looked at before anything is asked, the policy after the tags are in step
  rcases refuseImmutable_cases r p with ⟨hallowed, hfixed⟩ | ⟨e, hrefused⟩
  · cases hpolicy : policyKept r p with
    | true =>
      obtain ⟨x, hx, hline⟩ := course_bringInLine_kept harn hallowed hpolicy htags
      exact .inr ⟨_, _, _, x, _, .kept h hfixed hpolicy, hx,
        course_applyDesired_found (m := manager) hread hline⟩
    | false =>
      have hkey : p.arn = arn := Roster.key_of_find? h.found
      rcases course_rotatePolicy_cases hpolicy
          (putPermission_find? (a := a) (p := tagged r p) hkey)
          { r with status := (seen r p).status } with
        ⟨m, n, hn, hanswer, hrotate⟩ | ⟨asked, e, a', hrotate⟩
      · rw [putPermission_putPermission (by rfl)] at hrotate
        have hheard := mem_transcript_rotated h harn hallowed hpolicy htags hanswer
        have hline := course_bringInLine_rotated harn hallowed hpolicy htags hrotate
        exact .inr ⟨_, _, _, _, _, .rotated h hfixed hpolicy hn hheard, rfl,
          course_applyDesired_found (m := manager) hread hline⟩
      · -- the tags stay as they were put, the policy as far as the rotation got
        have hupdate := course_update harn hallowed htags hrotate
        exact .inl ⟨_, e, a', course_applyDesired_found (m := manager) hread
          (course_bringInLine_error (m := manager) (isEmpty_of_not_kept hpolicy) hupdate)⟩
  · have hupdate : Course serve (update r (seen r p) (fieldDelta r.spec (seen r p).spec)) a []
        (.error e) a :=
      (Course.lift_error hrefused).bind_error
    exact .inl ⟨_, e, a, course_applyDesired_found (m := manager) hread
      (course_bringInLine_error (m := manager) (isEmpty_of_refused hrefused) hupdate)⟩

/-- **What a pass that gets through makes of the permission.** -/
theorem becomes_of_ok (harns : a.ByArn) (hdisjoint : a.Disjoint) {region : Option String}
    {now : Instant} {out : Reconciled .permission} {a' : Account}
    (h : run serve (reconcile manager region now r) a = (.ok out, a')) :
    ∃ arn p t requeue x, Becomes a r arn p t requeue ∧ x.status = some t ∧
      out = conclude region now x requeue ∧ a' = a.putPermission p := by
  have hvalid := validate_of_ok h
  by_cases hbehind : ∃ arn p, Behind a r arn p
  · obtain ⟨arn, p, hp⟩ := hbehind
    have hshare := (hdisjoint arn).resolve_left (by simp [hp.found])
    rcases becomes_of_behind hshare hp (harns.permissions arn p hp.found) with
      ⟨asked, e, a'', happly⟩ | ⟨p', t, requeue, x, asked, hbecomes, hx, happly⟩
    · cases h.symm.trans (course_reconcile_error (m := manager) region now hvalid happly).run_eq
    · cases h.symm.trans (course_reconcile_ok (m := manager) region now hvalid happly).run_eq
      exact ⟨arn, p', t, requeue, x, hbecomes, hx, rfl, rfl⟩
  · have habsent : ∀ arn p, ¬ Behind a r arn p := fun arn p hp => hbehind ⟨arn, p, hp⟩
    obtain ⟨e, asked, he, hread⟩ := course_readOne_absent habsent
    have happly := course_applyDesired_absent (m := manager) hread he (course_create a r)
    cases h.symm.trans (course_reconcile_ok (m := manager) region now hvalid happly).run_eq
    exact ⟨_, _, _, _, _, .created habsent, rfl, rfl, rfl⟩

end Whole

end Permission

end ShareKeeper
