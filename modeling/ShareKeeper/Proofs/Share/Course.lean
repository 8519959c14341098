import ShareKeeper.Proofs.Delta
import ShareKeeper.Proofs.Reconcile
import ShareKeeper.Proofs.SyncPlan

/-!
# Passes over a share

What a pass over a resource share does on an account that answers for itself. Either there is a share
behind the object (`Share.Behind`), and the pass turns it into `settled`, or there is none, and a new
one is created. Both succeed.

Of what is reported different only the paths decide which plans are carried out, but a plan for what
is not reported is empty. So the requests of a pass are told by the plans alone (`planned`).
-/

namespace ShareKeeper.Share

open Account Pass

/-! ## The status that is observed -/

/-- What an observation makes of a status. -/
def observeStatus (s : Status ShareFacts) (d : ShareDetail) : Status ShareFacts where
  identity :=
    match d.arn with
    | some arn =>
      let i := s.identity.getD .empty
      some { i with arn := some arn, ownerAccountId := i.ownerAccountId.or d.owningAccountId }
    | none => s.identity
  conditions := s.conditions
  creationTime := d.creationTime
  lastUpdatedTime := d.lastUpdatedTime
  featureSet := d.featureSet
  state := d.status
  facts :=
    { owningAccountId := d.owningAccountId
      statusMessage := d.statusMessage
      associatedSources := s.facts.associatedSources }

theorem observe_status (r : Share) (d : ShareDetail) :
    (observe r d).status = some (observeStatus r.statusD d) := rfl

/-- **Observing twice is observing once.** Name, openness and tags of the share play no part in the
status. -/
theorem observeStatus_again (s : Status ShareFacts) (d : ShareDetail) (name : Option String)
    (allow : Option Bool) (tags : List Tag) :
    observeStatus (observeStatus s d)
        { d with name, allowExternalPrincipals := allow, tags } = observeStatus s d := by
  cases harn : d.arn with
  | none => simp [observeStatus, harn]
  | some arn =>
    have howner : ∀ o : Option String, (o.or d.owningAccountId).or d.owningAccountId
        = o.or d.owningAccountId := fun o => by cases o <;> cases d.owningAccountId <;> rfl
    simp [observeStatus, harn, howner]

/-- An observation of the entity under an ARN leaves the status with this ARN. -/
theorem arn_observeStatus {s : Status ShareFacts} {d : ShareDetail} {arn : String}
    (hself : ∀ x ∈ d.arn, x = arn) (harn : s.identity.bind Identity.arn = some arn) :
    (observeStatus s d).identity.bind Identity.arn = some arn := by
  cases hd : d.arn with
  | none => simpa [observeStatus, hd] using harn
  | some x =>
    cases hself x hd
    simp [observeStatus, hd]

/-- It makes no difference whether a status is concluded before or after it is observed. -/
theorem observeStatus_concluded (region : Option String) (now : Instant) (b : Bool)
    (s : Status ShareFacts) (d : ShareDetail) :
    observeStatus (s.concluded region now b) d = (observeStatus s d).concluded region now b := by
  cases harn : d.arn <;> simp [observeStatus, Status.concluded, harn]

theorem associatedSources_eq (r : Share) :
    associatedSources r = r.statusD.facts.associatedSources := by
  rw [associatedSources, Resource.statusD]
  cases r.status <;> rfl

/-! ## Looking at the share -/

/-- The share behind an object is listed under the recorded ARN, and not as a deleted one. -/
structure Behind (a : Account) (r : Share) (arn : String) (s : ShareRecord) : Prop where
  recorded : r.arn = some arn
  found : a.shares.find? arn = some s
  live : s.detail.status ≠ some deletedState

/-- The object with its share in view. -/
def seen (r : Share) (s : ShareRecord) : Share :=
  let latest := observe r s.detail
  { latest with
    spec := { latest.spec with
      tags := Tags.visible s.detail.tags
      principals := s.principals.toList
      resourceArns := s.resources.toList
      permissionArns :=
        if r.spec.permissionArns.isEmpty then r.spec.permissionArns else s.permissions.toList
      sources := associatedSources r } }

/-- The requests that look at a share. -/
def lookups (r : Share) (arn : String) : List Request :=
  [.getShare arn, .listAssociations arn .principal, .listAssociations arn .resource]
    ++ SyncPlan.when (!r.spec.permissionArns.isEmpty) (.listPermissions arn)

section Look

variable {a : Account} {r : Share} {arn : String} {s : ShareRecord}

theorem course_readPermissions (h : a.shares.find? arn = some s) (r : Share) :
    Course serve (readPermissions arn r) a
      (SyncPlan.when (!r.spec.permissionArns.isEmpty) (.listPermissions arn))
      (.ok (if r.spec.permissionArns.isEmpty then r.spec.permissionArns else s.permissions.toList))
      a := by
  rw [readPermissions]
  cases r.spec.permissionArns.isEmpty with
  | true => exact .done _
  | false => exact .recorded_ok (serve_listPermissions h)

/-- **A look at the share behind an object.** -/
theorem course_readOne (h : Behind a r arn s) :
    Course serve (readOne r) a (lookups r arn) (.ok (seen r s)) a := by
  have hsources : associatedSources (observe r s.detail) = associatedSources r :=
    (associatedSources_eq r).symm
  refine (Course.lift_ok (requireArn_of_arn h.recorded)).bind_quiet ?_
  refine (Course.recorded_ok (serve_getShare h.found)).bind ?_
  rw [if_neg h.live]
  refine (Course.recorded_ok (serve_listAssociations h.found .principal)).bind ?_
  refine (Course.recorded_ok (serve_listAssociations h.found .resource)).bind ?_
  refine (course_readPermissions h.found r).bind_done ?_
  rw [hsources]
  rfl

/-- A look in vain. -/
theorem course_readOne_absent (h : ∀ arn s, ¬ Behind a r arn s) :
    ∃ e asked, e.isNotFound = true ∧ Course serve (readOne r) a asked (.error e) a := by
  cases harn : r.arn with
  | none =>
    exact ⟨.notFound, _, rfl, (Course.lift_error (requireArn_of_none harn)).bind_error⟩
  | some arn =>
    have hlook : Course serve (Pass.lift r.requireArn) a [] (.ok arn) a :=
      Course.lift_ok (requireArn_of_arn harn)
    cases hs : a.shares.find? arn with
    | none =>
      exact ⟨_, _, rfl, hlook.bind_quiet (Course.recorded_error (serve_getShare_absent hs)).bind_error⟩
    | some s =>
      -- a deleted share is listed, but counts as absent
      have hdeleted : s.detail.status = some deletedState :=
        Decidable.byContradiction fun hlive => h arn s ⟨harn, hs, hlive⟩
      refine ⟨.notFound, [.getShare arn] ++ [], rfl,
        hlook.bind_quiet ((Course.recorded_ok (serve_getShare hs)).bind ?_)⟩
      rw [if_pos hdeleted]
      exact .fail _

/-- The share that is seen is the one under the recorded ARN. -/
theorem seen_arn (hself : ∀ x ∈ s.detail.arn, x = arn) (harn : r.arn = some arn) :
    (seen r s).arn = some arn :=
  arn_observeStatus hself ((arn_eq_statusD r).symm.trans harn)

end Look

/-! ## Creating the share -/

/-- The object after its share was created. -/
def created (r : Share) : Share :=
  withSources (observe r (newShare r.input).detail) r.spec.sources

theorem course_create (a : Account) (r : Share) :
    Course serve (create r) a [.createShare r.input] (.ok (created r))
      (a.putShare (newShare r.input)) :=
  (Course.recorded_ok (v := (newShare r.input).detail) rfl).bind_done rfl

/-! ## Updating the share -/

/-- Whether name or openness are to be changed. -/
def settingsDiffer (r : Share) (s : ShareRecord) : Bool :=
  !(decide (r.spec.name = (seen r s).spec.name)
    && decide (r.spec.allowExternalPrincipals = (seen r s).spec.allowExternalPrincipals))

/-- Whether principals, resources or sources are to be changed. -/
def associationsDiffer (r : Share) (s : ShareRecord) : Bool :=
  !(NameSet.sameElements r.spec.principals s.principals.toList
    && NameSet.sameElements r.spec.resourceArns s.resources.toList
    && NameSet.sameElements r.spec.sources (associatedSources r))

theorem associationsDiffer_eq_false {r : Share} {s : ShareRecord} :
    associationsDiffer r s = false ↔
      NameSet.ofNames r.spec.principals = s.principals ∧
        NameSet.ofNames r.spec.resourceArns = s.resources ∧
        NameSet.ofNames r.spec.sources = NameSet.ofNames (associatedSources r) := by
  simp only [associationsDiffer, Bool.not_eq_false', Bool.and_eq_true, NameSet.sameElements_iff,
    NameSet.ofNames_toList, and_assoc]

/-- The name and the openness that the object asks for. -/
def withSettings (r : Share) (s : ShareRecord) : ShareRecord :=
  if settingsDiffer r s then updateDetail (some r.spec.name) r.spec.allowExternalPrincipals s else s

/-- What becomes of the share behind an object. -/
def settled (r : Share) (s : ShareRecord) : ShareRecord where
  arn := s.arn
  detail := { (withSettings r s).detail with tags := Tags.settle r.spec.tags s.detail.tags }
  principals := NameSet.ofNames r.spec.principals
  resources := NameSet.ofNames r.spec.resourceArns
  sources := track r.spec.sources (associatedSources r) s.sources
  permissions :=
    if r.spec.permissionArns.isEmpty then s.permissions else NameSet.ofNames r.spec.permissionArns

/-- What the object remembers of the sources after an update. -/
def rememberedSources (r : Share) (s : ShareRecord) : List String :=
  if associationsDiffer r s then r.spec.sources else associatedSources r

/-- The status after an update. -/
def updatedStatus (r : Share) (s : ShareRecord) : Status ShareFacts :=
  let t := observeStatus r.statusD s.detail
  { t with facts := { t.facts with associatedSources := rememberedSources r s } }

/-- The requests of an update. -/
def planned (arn : String) (r : Share) (s : ShareRecord) : List Request :=
  SyncPlan.when (settingsDiffer r s)
      (.updateShare arn (some r.spec.name) r.spec.allowExternalPrincipals)
    ++ ((SyncPlan.tags (.share arn) r.spec.tags (Tags.visible s.detail.tags)).requests
    ++ ((SyncPlan.associations arn r.spec (seen r s).spec).requests
    ++ (SyncPlan.permissions arn r.spec.permissionArns (seen r s).spec.permissionArns).requests))

section Update

variable {a : Account} {r : Share} {arn : String} {s t : ShareRecord}

theorem course_updateSettings (h : a.shares.find? arn = some s) (updated : Share)
    (hupdated : updated.status = (seen r s).status) :
    ∃ x, x.status = (seen r s).status ∧
      Course serve (updateSettings arn r (fieldDelta r.spec (seen r s).spec) updated) a
        (SyncPlan.when (settingsDiffer r s)
          (.updateShare arn (some r.spec.name) r.spec.allowExternalPrincipals))
        (.ok x) (a.putShare (withSettings r s)) := by
  have hreported : ((fieldDelta r.spec (seen r s).spec).differentAt "Spec.Name"
      || (fieldDelta r.spec (seen r s).spec).differentAt "Spec.AllowExternalPrincipals")
      = settingsDiffer r s := by
    rw [differentAt_name, differentAt_openness, settingsDiffer, Bool.not_and]
  rw [updateSettings, hreported, withSettings]
  cases settingsDiffer r s with
  | false =>
    rw [if_neg Bool.false_ne_true, if_neg Bool.false_ne_true, putShare_self h]
    exact ⟨updated, hupdated, .done _⟩
  | true =>
    refine ⟨observe updated
      (updateDetail (some r.spec.name) r.spec.allowExternalPrincipals s).detail, ?_,
      (Course.recorded_ok (serve_updateShare h _ _)).bind_done rfl⟩
    rw [observe_status, statusD_congr hupdated]
    exact congrArg some (observeStatus_again r.statusD s.detail _ _ s.detail.tags)

/-- Tags that do not differ are planned nothing for. -/
theorem syncTags_eq (arn : String) (r latest : Share) :
    syncTags arn r latest (fieldDelta r.spec latest.spec)
      = (SyncPlan.tags (.share arn) r.spec.tags latest.spec.tags).perform := by
  rw [syncTags, differentAt_tags]
  cases hsame : Delta.sameTags r.spec.tags latest.spec.tags with
  | false => rfl
  | true =>
    exact (SyncPlan.perform_of_requests
      (SyncPlan.requests_tags (Delta.change_of_sameTags hsame) _)).symm

theorem syncPermissions_eq (arn : String) (r latest : Share) :
    syncPermissions arn r latest (fieldDelta r.spec latest.spec)
      = (SyncPlan.permissions arn r.spec.permissionArns latest.spec.permissionArns).perform := by
  rw [syncPermissions, differentAt_permissions]
  cases hsame : NameSet.sameElements r.spec.permissionArns latest.spec.permissionArns with
  | false => rfl
  | true =>
    exact (SyncPlan.perform_of_requests
      (SyncPlan.requests_permissions (NameSet.sameElements_iff.1 hsame) _)).symm

theorem syncAssociations_eq (arn : String) (r : Share) (s : ShareRecord) (updated : Share) :
    syncAssociations arn r (seen r s) (fieldDelta r.spec (seen r s).spec) updated
      = (SyncPlan.associations arn r.spec (seen r s).spec).perform >>= fun _ =>
          pure (if associationsDiffer r s then withSources updated r.spec.sources else updated) := by
  have hreported : ((fieldDelta r.spec (seen r s).spec).differentAt "Spec.Principals"
      || (fieldDelta r.spec (seen r s).spec).differentAt "Spec.ResourceARNs"
      || (fieldDelta r.spec (seen r s).spec).differentAt "Spec.Sources")
      = associationsDiffer r s := by
    rw [differentAt_principals, differentAt_resources, differentAt_sources, associationsDiffer,
      Bool.not_and, Bool.not_and]
    rfl
  rw [syncAssociations, hreported]
  cases hdiffer : associationsDiffer r s with
  | true => rfl
  | false =>
    simp only [associationsDiffer, Bool.not_eq_false', Bool.and_eq_true,
      NameSet.sameElements_iff] at hdiffer
    rw [SyncPlan.perform_of_requests
      (SyncPlan.requests_associations hdiffer.1.1 hdiffer.1.2 hdiffer.2 arn)]
    rfl

theorem withSettings_arn (r : Share) (s : ShareRecord) : (withSettings r s).arn = s.arn := by
  rw [withSettings]
  split <;> rfl

theorem withSettings_tags (r : Share) (s : ShareRecord) :
    (withSettings r s).detail.tags = s.detail.tags := by
  rw [withSettings]
  split <;> rfl

/-- What the plans make of the share one after another. -/
theorem settled_eq (r : Share) (s : ShareRecord) :
    SyncPlan.trackPermissions r.spec.permissionArns (seen r s).spec.permissionArns
      (SyncPlan.trackAssociations r.spec (seen r s).spec
        ((withSettings r s).withTags (Tags.settle r.spec.tags s.detail.tags))) = settled r s := by
  have hrest : (withSettings r s).arn = s.arn ∧ (withSettings r s).principals = s.principals ∧
      (withSettings r s).resources = s.resources ∧ (withSettings r s).sources = s.sources ∧
      (withSettings r s).permissions = s.permissions := by
    rw [withSettings]
    split <;> exact ⟨rfl, rfl, rfl, rfl, rfl⟩
  obtain ⟨harn, hprincipals, hresources, hsources, hpermissions⟩ := hrest
  simp only [SyncPlan.trackPermissions, SyncPlan.trackAssociations, ShareRecord.withTags, settled,
    seen, harn, hprincipals, hresources, hsources, hpermissions, track_toList]
  congr 1
  split
  · -- no permissions are desired, and then none are looked up
    exact track_of_same _ rfl
  · exact track_toList _ _

/-- **An update of the share behind an object.** -/
theorem course_update (h : a.shares.find? arn = some s) (harn : (seen r s).arn = some arn) :
    ∃ x, x.status = some (updatedStatus r s) ∧
      Course serve (update r (seen r s) (fieldDelta r.spec (seen r s).spec)) a (planned arn r s)
        (.ok x) (a.putShare (settled r s)) := by
  have hkey : (withSettings r s).arn = arn := (withSettings_arn r s).trans (Roster.key_of_find? h)
  obtain ⟨x, hx, hsettings⟩ := course_updateSettings h { r with status := (seen r s).status } rfl
  -- each of the plans starts from the share that the one before it left behind
  have htags := SyncPlan.course_shareTags (putShare_find? (a := a) hkey) r.spec.tags
  rw [withSettings_tags, putShare_putShare (by rfl)] at htags
  have hassociations := SyncPlan.course_associations
    (putShare_find? (a := a)
      (s := (withSettings r s).withTags (Tags.settle r.spec.tags s.detail.tags)) hkey)
    r.spec (seen r s).spec
  rw [putShare_putShare (by rfl)] at hassociations
  have hpermissions := SyncPlan.course_permissions
    (putShare_find? (a := a)
      (s := SyncPlan.trackAssociations r.spec (seen r s).spec
        ((withSettings r s).withTags (Tags.settle r.spec.tags s.detail.tags))) hkey)
    r.spec.permissionArns (seen r s).spec.permissionArns
  rw [putShare_putShare (by rfl), settled_eq] at hpermissions
  refine ⟨if associationsDiffer r s then withSources x r.spec.sources else x, ?_,
    (Course.lift_ok (requireArn_of_arn harn)).bind_quiet (hsettings.bind ?_)⟩
  · rw [updatedStatus, rememberedSources]
    cases associationsDiffer r s with
    | true =>
      show some _ = some _
      rw [statusD_congr hx]
      rfl
    | false =>
      show x.status = _
      rw [hx, associatedSources_eq]
      rfl
  · rw [syncTags_eq, syncAssociations_eq, syncPermissions_eq]
    refine htags.bind (Course.bind (hassociations.bind_done ?_) (hpermissions.bind_done rfl))
    rfl

end Update

/-! ## Shares that are in step -/

/-- The share is as the object asks for, as far as that can be seen. -/
structure InStep (r : Share) (s : ShareRecord) : Prop where
  settings : settingsDiffer r s = false
  tags : (Tags.change r.spec.tags (Tags.visible s.detail.tags)).isEmpty = true
  associations : associationsDiffer r s = false
  permissions :
    NameSet.ofNames r.spec.permissionArns = NameSet.ofNames (seen r s).spec.permissionArns

section InStep

variable {r : Share} {s : ShareRecord}

/-- An empty delta reports none of the fields. -/
theorem inStep_of_isEmpty (h : (fieldDelta r.spec (seen r s).spec).isEmpty = true) : InStep r s where
  settings := by
    have hname := Delta.differentAt_of_isEmpty h "Spec.Name"
    have hopenness := Delta.differentAt_of_isEmpty h "Spec.AllowExternalPrincipals"
    rw [differentAt_name] at hname
    rw [differentAt_openness] at hopenness
    rw [settingsDiffer, Bool.not_and, hname, hopenness]
    rfl
  tags := by
    have htags := Delta.differentAt_of_isEmpty h "Spec.Tags"
    rw [differentAt_tags, Bool.not_eq_false'] at htags
    exact Delta.change_of_sameTags htags
  associations := by
    have hprincipals := Delta.differentAt_of_isEmpty h "Spec.Principals"
    have hresources := Delta.differentAt_of_isEmpty h "Spec.ResourceARNs"
    have hsources := Delta.differentAt_of_isEmpty h "Spec.Sources"
    rw [differentAt_principals] at hprincipals
    rw [differentAt_resources] at hresources
    rw [differentAt_sources] at hsources
    rw [associationsDiffer, Bool.not_and, Bool.not_and]
    exact Bool.or_eq_false_iff.2 ⟨Bool.or_eq_false_iff.2 ⟨hprincipals, hresources⟩, hsources⟩
  permissions := by
    have hpermissions := Delta.differentAt_of_isEmpty h "Spec.PermissionARNs"
    rw [differentAt_permissions, Bool.not_eq_false'] at hpermissions
    exact NameSet.sameElements_iff.1 hpermissions

namespace InStep

/-- **Of a share in step nothing is asked.** -/
theorem planned_eq (h : InStep r s) (arn : String) : planned arn r s = [] := by
  obtain ⟨hprincipals, hresources, hsources⟩ := associationsDiffer_eq_false.1 h.associations
  rw [planned, h.settings, SyncPlan.requests_tags h.tags, SyncPlan.requests_associations _ _ hsources,
    SyncPlan.requests_permissions h.permissions]
  · rfl
  · rw [hprincipals]
    exact (NameSet.ofNames_toList _).symm
  · rw [hresources]
    exact (NameSet.ofNames_toList _).symm

/-- A share in step stays as it is. -/
theorem settled_eq (h : InStep r s) : settled r s = s := by
  obtain ⟨hprincipals, hresources, hsources⟩ := associationsDiffer_eq_false.1 h.associations
  have hpermissions : (if r.spec.permissionArns.isEmpty then s.permissions
      else NameSet.ofNames r.spec.permissionArns) = s.permissions := by
    cases hempty : r.spec.permissionArns.isEmpty with
    | true => rfl
    | false =>
      have hseen := h.permissions
      simp only [seen, hempty, Bool.false_eq_true, if_false, NameSet.ofNames_toList] at hseen
      exact hseen
  rw [settled, withSettings, h.settings, Tags.settle_of_isEmpty h.tags, hprincipals, hresources,
    track_of_same _ hsources, hpermissions]
  rfl

/-- Of a share in step no other sources are remembered. -/
theorem updatedStatus_eq (h : InStep r s) : updatedStatus r s = observeStatus r.statusD s.detail := by
  rw [updatedStatus, rememberedSources, h.associations, associatedSources_eq]
  rfl

end InStep

end InStep

/-! ## The status that is stored -/

section Stored

variable {r x : Share} {s : ShareRecord}

/-- After an update the desired sources are remembered, if perhaps in another order. -/
theorem rememberedSources_eq (r : Share) (s : ShareRecord) :
    NameSet.ofNames (rememberedSources r s) = NameSet.ofNames r.spec.sources := by
  rw [rememberedSources]
  cases hdiffer : associationsDiffer r s with
  | true => rfl
  | false => exact (associationsDiffer_eq_false.1 hdiffer).2.2.symm

/-- An update leaves the object with the share that was seen. -/
theorem arn_of_updated (h : x.status = some (updatedStatus r s)) : x.arn = (seen r s).arn := by
  rw [Resource.arn, h]
  rfl

/-- The sources that are remembered in the object that is stored. -/
theorem associatedSources_store (region : Option String) (now : Instant) (requeue : Bool) :
    associatedSources (r.store now (.ok (conclude region now x requeue)))
      = x.statusD.facts.associatedSources := by
  rw [associatedSources_eq]
  rfl

end Stored

/-! ## Whole passes -/

section Whole

variable {a : Account} {r : Share} {arn : String} {s : ShareRecord}

/-- The share behind an object is brought in line, whether or not anything is reported. -/
theorem course_bringInLine (h : a.shares.find? arn = some s) (harn : (seen r s).arn = some arn) :
    ∃ x, x.status = some (updatedStatus r s) ∧
      Course serve (bringInLine manager r (seen r s)) a (planned arn r s) (.ok (x, false))
        (a.putShare (settled r s)) := by
  cases hempty : (fieldDelta r.spec (seen r s).spec).isEmpty with
  | true =>
    have hstep := inStep_of_isEmpty hempty
    rw [hstep.planned_eq, hstep.settled_eq, hstep.updatedStatus_eq, putShare_self h]
    exact ⟨seen r s, rfl, course_bringInLine_same (m := manager) hempty⟩
  | false =>
    obtain ⟨x, hx, hupdate⟩ := course_update h harn
    exact ⟨x, hx, course_bringInLine_update (m := manager) hempty hupdate⟩

/-- **A pass over an object with a share behind it.** -/
theorem course_reconcile_behind (h : Behind a r arn s) (hself : ∀ x ∈ s.detail.arn, x = arn)
    (hvalid : validate r = .ok ()) (region : Option String) (now : Instant) :
    ∃ x, x.status = some (updatedStatus r s) ∧
      Course serve (reconcile manager region now r) a (lookups r arn ++ planned arn r s)
        (.ok (conclude region now x false)) (a.putShare (settled r s)) := by
  obtain ⟨x, hx, hline⟩ := course_bringInLine h.found (seen_arn hself h.recorded)
  exact ⟨x, hx, course_reconcile_ok (m := manager) region now hvalid
    (course_applyDesired_found (m := manager) (course_readOne h) hline)⟩

/-- **A pass over an object with no share behind it.** -/
theorem course_reconcile_absent (h : ∀ arn s, ¬ Behind a r arn s) (hvalid : validate r = .ok ())
    (region : Option String) (now : Instant) :
    ∃ asked, Course serve (reconcile manager region now r) a (asked ++ [.createShare r.input])
      (.ok (conclude region now (created r) false)) (a.putShare (newShare r.input)) := by
  obtain ⟨e, asked, he, hread⟩ := course_readOne_absent h
  exact ⟨asked, course_reconcile_ok (m := manager) region now hvalid
    (course_applyDesired_absent (m := manager) hread he (course_create a r))⟩

/-- The share that an object has after a pass, and the ARN that it is found under. -/
inductive Becomes (a : Account) (r : Share) : String → ShareRecord → Prop
  | updated {arn : String} {s : ShareRecord} (h : Behind a r arn s) : Becomes a r arn (settled r s)
  | created (h : ∀ arn s, ¬ Behind a r arn s) : Becomes a r (shareArn r.spec.name) (newShare r.input)

theorem status_settled (r : Share) (s : ShareRecord) :
    (settled r s).detail.status = s.detail.status := by
  show (withSettings r s).detail.status = _
  rw [withSettings]
  split <;> rfl

/-- After a pass the share is in use. -/
theorem Becomes.live (h : Becomes a r arn s) : s.detail.status ≠ some deletedState := by
  cases h with
  | @updated _ s h => exact status_settled r s ▸ h.live
  | created =>
    show some "ACTIVE" ≠ some deletedState
    decide

/-- A share that is what a specification asks for, apart from the sources, and from a name that it
may not report. -/
structure Accords (spec : ShareSpec) (s : ShareRecord) : Prop where
  name : s.detail.name.getD spec.name = spec.name
  /-- If the specification says nothing, the service decides. -/
  openness : ∀ b, spec.allowExternalPrincipals = some b → s.detail.allowExternalPrincipals = some b
  principals : s.principals = NameSet.ofNames spec.principals
  resources : s.resources = NameSet.ofNames spec.resourceArns
  /-- If none are desired, the service attaches a default permission. -/
  permissions : spec.permissionArns ≠ [] → s.permissions = NameSet.ofNames spec.permissionArns
  tags : Tags.Agree spec.tags s.detail.tags

/-- Name and openness after an update are the desired ones, as far as they are reported. -/
theorem settings_settled (r : Share) (s : ShareRecord) :
    (settled r s).detail.name.getD r.spec.name = r.spec.name ∧
      ∀ b, r.spec.allowExternalPrincipals = some b →
        (settled r s).detail.allowExternalPrincipals = some b := by
  show (withSettings r s).detail.name.getD r.spec.name = r.spec.name ∧
    ∀ b, r.spec.allowExternalPrincipals = some b →
      (withSettings r s).detail.allowExternalPrincipals = some b
  rw [withSettings]
  cases hdiffer : settingsDiffer r s with
  | true =>
    refine ⟨rfl, fun b hb => ?_⟩
    show r.spec.allowExternalPrincipals.or _ = _
    rw [hb]
    rfl
  | false =>
    simp only [settingsDiffer, Bool.not_eq_false', Bool.and_eq_true, decide_eq_true_eq] at hdiffer
    refine ⟨hdiffer.1.symm, fun b hb => ?_⟩
    have hseen := hdiffer.2
    simp only [seen, observe, hb, Option.isSome_some, if_true] at hseen
    exact hseen.symm

/-- **After a pass the share accords with the specification.** -/
theorem Becomes.accords (h : Becomes a r arn s) : Accords r.spec s := by
  cases h with
  | @updated _ s =>
    obtain ⟨hname, hopenness⟩ := settings_settled r s
    refine ⟨hname, hopenness, rfl, rfl, fun hdesired => ?_, Tags.agree_settle _ _⟩
    show (if r.spec.permissionArns.isEmpty then _ else _) = _
    rw [if_neg (by simpa using hdesired)]
  | created =>
    refine ⟨rfl, fun b hb => ?_, rfl, rfl, fun _ => rfl, Tags.agree_creationTags r r.spec.tags⟩
    show some (r.spec.allowExternalPrincipals.getD true) = some b
    rw [hb]
    rfl

/-- A share that accords with the specification is in step, if its sources are remembered. -/
theorem Accords.inStep (h : Accords r.spec s)
    (hsources : NameSet.ofNames r.spec.sources = NameSet.ofNames (associatedSources r))
    (huser : ∀ t ∈ r.spec.tags, Tag.isSystem t.key = false) : InStep r s where
  settings := by
    have hopenness : r.spec.allowExternalPrincipals = (seen r s).spec.allowExternalPrincipals := by
      show _ = if r.spec.allowExternalPrincipals.isSome then _ else _
      cases hb : r.spec.allowExternalPrincipals with
      | none => rfl
      | some b => exact (h.openness b hb).symm
    rw [settingsDiffer, ← hopenness, show (seen r s).spec.name = r.spec.name from h.name]
    simp
  tags := Tags.change_of_agree h.tags huser
  associations := associationsDiffer_eq_false.2 ⟨h.principals.symm, h.resources.symm, hsources⟩
  permissions := by
    show _ = NameSet.ofNames (if r.spec.permissionArns.isEmpty then _ else _)
    cases hempty : r.spec.permissionArns.isEmpty with
    | true => rfl
    | false =>
      rw [if_neg Bool.false_ne_true, NameSet.ofNames_toList]
      exact (h.permissions (by simpa using hempty)).symm

/-- **Every pass over an object that is valid succeeds.** The object that is stored names the share
and remembers the sources that are desired. -/
theorem reconcile_becomes (harns : a.ByArn) (hvalid : validate r = .ok ()) (region : Option String)
    (now : Instant) :
    ∃ out a' arn s, run serve (reconcile manager region now r) a = (.ok out, a') ∧
      (r.store now (.ok out)).arn = some arn ∧ a'.shares.find? arn = some s ∧ Becomes a r arn s ∧
      NameSet.ofNames (associatedSources (r.store now (.ok out)))
        = NameSet.ofNames r.spec.sources := by
  by_cases hbehind : ∃ arn s, Behind a r arn s
  · obtain ⟨arn, s, h⟩ := hbehind
    have hself := harns.shares arn s h.found
    obtain ⟨x, hx, hcourse⟩ := course_reconcile_behind h hself hvalid region now
    have hkey : s.arn = arn := Roster.key_of_find? h.found
    refine ⟨_, _, arn, settled r s, hcourse.run_eq, ?_, putShare_find? hkey, .updated h, ?_⟩
    · rw [arn_store, arn_of_updated hx, seen_arn hself h.recorded]
    · rw [associatedSources_store, Resource.statusD, hx]
      exact rememberedSources_eq r s
  · have habsent : ∀ arn s, ¬ Behind a r arn s := fun arn s h => hbehind ⟨arn, s, h⟩
    obtain ⟨asked, hcourse⟩ := course_reconcile_absent habsent hvalid region now
    refine ⟨_, _, shareArn r.spec.name, newShare r.input, hcourse.run_eq, ?_, putShare_find? rfl,
      .created habsent, ?_⟩
    · rw [arn_store]
      rfl
    · rw [associatedSources_store]
      rfl

end Whole

end ShareKeeper.Share
