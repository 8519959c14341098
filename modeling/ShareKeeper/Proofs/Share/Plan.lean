import ShareKeeper.Proofs.Walk
import ShareKeeper.Proofs.Share.Course

/-!
# What is asked of the share behind an object

A pass looks at a share by three or four requests, and what they are answered decides everything it
asks for later. `plan` says what that is, field by field and without a delta; `makes_update` says that
the update makes exactly these requests. The delta that is built in between groups fields and leaves
out groups, but never one in which there is something to do, and if it is empty, so is the plan.
-/

namespace ShareKeeper

/-- What the looks at a share were answered. -/
structure ShareView where
  detail : ShareDetail
  principals : List String
  resourceArns : List String
  /-- Only asked for if any permissions are desired. -/
  permissionArns : List String

namespace Share

open Pass SyncPlan

variable (r : Share) (arn : String) (v : ShareView)

/-! ## Looks -/

/-- The looks at a share with their answers. -/
def looks : List Exchange :=
  [⟨.getShare arn, .ok v.detail⟩, ⟨.listAssociations arn .principal, .ok v.principals⟩,
   ⟨.listAssociations arn .resource, .ok v.resourceArns⟩]
    ++ if r.spec.permissionArns.isEmpty then [] else [⟨.listPermissions arn, .ok v.permissionArns⟩]

/-- The object with the share as the looks tell of it. -/
def told : Share :=
  let latest := observe r v.detail
  { latest with
    spec := { latest.spec with
      tags := Tags.visible v.detail.tags
      principals := v.principals
      resourceArns := v.resourceArns
      permissionArns :=
        if r.spec.permissionArns.isEmpty then r.spec.permissionArns else v.permissionArns
      sources := associatedSources r } }

/-- The share that is changed is the one that was told of. -/
theorem arn_told {r : Share} {arn : String} (harn : r.arn = some arn) (v : ShareView) :
    (told r v).arn = some (v.detail.arn.getD arn) := by
  have htold : (told r v).arn = v.detail.arn.or r.arn := arn_observe r v.detail
  rw [htold, harn]
  cases v.detail.arn <;> rfl

/-- **A look that succeeds** tells all there is to know. -/
theorem readOne_inv {σ : Type} {service : Service σ} {s s' : σ} {heard : List Exchange}
    {r latest : Share} (h : Dialogue service (readOne r) s heard (.ok latest) s') :
    ∃ arn v, r.arn = some arn ∧ heard = looks r arn v ∧ latest = told r v := by
  rw [readOne_eq] at h
  obtain ⟨e, -, hout⟩ | ⟨arn, s₁, l, l', hlift, hlook, rfl⟩ := h.bind_cases
  · cases hout
  obtain ⟨rfl, harn, rfl⟩ := hlift.lift_inv
  -- each look is refused, and then there is no result, or it is one more exchange in front
  obtain ⟨e, -, -, hout⟩ | ⟨detail, s₂, rest, -, hlists, rfl⟩ := hlook.recorded_bind_cases
  · cases hout
  split at hlists
  · obtain ⟨-, hout, -⟩ := hlists.fail_inv
    cases hout
  have hsources : associatedSources (observe r detail) = associatedSources r :=
    (associatedSources_eq r).symm
  rw [readLists, hsources] at hlists
  obtain ⟨e, -, -, hout⟩ | ⟨principals, s₃, rest, -, hresources, rfl⟩ := hlists.recorded_bind_cases
  · cases hout
  obtain ⟨e, -, -, hout⟩ | ⟨resourceArns, s₄, rest, -, hpermissions, rfl⟩ :=
    hresources.recorded_bind_cases
  · cases hout
  rw [readPermissions] at hpermissions
  -- the permissions are looked at only if the object asks for some
  cases hempty : r.spec.permissionArns.isEmpty with
  | true =>
    rw [if_pos hempty] at hpermissions
    obtain ⟨rfl, hout, -⟩ := hpermissions.done_inv
    cases hout
    exact ⟨arn, ⟨detail, principals, resourceArns, []⟩, arn_of_requireArn harn.symm,
      by simp [looks, hempty], by simp [told, hempty]⟩
  | false =>
    rw [if_neg (by simp [hempty])] at hpermissions
    obtain ⟨e, -, -, hout⟩ | ⟨permissionArns, s₅, rest, -, hdone, rfl⟩ :=
      hpermissions.recorded_bind_cases
    · cases hout
    obtain ⟨rfl, hout, -⟩ := hdone.done_inv
    cases hout
    exact ⟨arn, ⟨detail, principals, resourceArns, permissionArns⟩, arn_of_requireArn harn.symm,
      by simp [looks, hempty], by simp [told, hempty]⟩

/-! ## The plan -/

/-- Whether the share is told of under another name, or is to be open or closed and is not. -/
def settingsStale (d : ShareDetail) : Bool :=
  d.name.any (· ≠ r.spec.name)
    || r.spec.allowExternalPrincipals.any fun b => d.allowExternalPrincipals ≠ some b

/-- What is not associated and should be. -/
def unassociated : AssociationBatch where
  principals := lacking r.spec.principals v.principals
  resourceArns := lacking r.spec.resourceArns v.resourceArns
  sources := lacking r.spec.sources (associatedSources r)

/-- What is associated and should not be. -/
def strayAssociations : AssociationBatch where
  principals := lacking v.principals r.spec.principals
  resourceArns := lacking v.resourceArns r.spec.resourceArns
  sources := lacking (associatedSources r) r.spec.sources

/-- **What is asked of a share** to make of it what is desired. -/
def plan : List Request :=
  when (settingsStale r v.detail) (.updateShare arn (some r.spec.name) r.spec.allowExternalPrincipals)
    ++ (tagRequests (.share arn) r.spec.tags v.detail.tags
    ++ ((when (!(strayAssociations r v).isEmpty) (.disassociate arn (strayAssociations r v))
      ++ when (!(unassociated r v).isEmpty) (.associate arn (unassociated r v)))
    ++ if r.spec.permissionArns.isEmpty then []
      else (lacking v.permissionArns r.spec.permissionArns).map (.detachPermission arn)
        ++ (lacking r.spec.permissionArns v.permissionArns).map (.attachPermission arn)))

/-! ## The parts of the plan -/

/-- Name or openness are reported exactly if one of them is stale. -/
theorem settingsStale_eq :
    ((fieldDelta r.spec (told r v).spec).differentAt "Spec.Name"
      || (fieldDelta r.spec (told r v).spec).differentAt "Spec.AllowExternalPrincipals")
      = settingsStale r v.detail := by
  have hname : (!decide (r.spec.name = v.detail.name.getD r.spec.name))
      = v.detail.name.any (· ≠ r.spec.name) := by
    cases v.detail.name with
    | none => simp
    | some n => simp [eq_comm]
  have hopenness : (!decide (r.spec.allowExternalPrincipals
        = if r.spec.allowExternalPrincipals.isSome then v.detail.allowExternalPrincipals else none))
      = r.spec.allowExternalPrincipals.any fun b => v.detail.allowExternalPrincipals ≠ some b := by
    cases r.spec.allowExternalPrincipals with
    | none => rfl
    | some b => simp [eq_comm]
  rw [differentAt_name, differentAt_openness, settingsStale, ← hname, ← hopenness]
  rfl

theorem requests_associations_told :
    (SyncPlan.associations arn r.spec (told r v).spec).requests
      = when (!(strayAssociations r v).isEmpty) (.disassociate arn (strayAssociations r v))
        ++ when (!(unassociated r v).isEmpty) (.associate arn (unassociated r v)) := by
  have hremove : associationsToRemove r.spec (told r v).spec = strayAssociations r v := by
    simp only [associationsToRemove, toRemove_eq_lacking]
    rfl
  have hadd : associationsToAdd r.spec (told r v).spec = unassociated r v := by
    simp only [associationsToAdd, toAdd_eq_lacking]
    rfl
  rw [SyncPlan.requests, SyncPlan.associations, hremove, hadd]

theorem requests_permissions_told :
    (SyncPlan.permissions arn r.spec.permissionArns (told r v).spec.permissionArns).requests
      = if r.spec.permissionArns.isEmpty then []
        else (lacking v.permissionArns r.spec.permissionArns).map (.detachPermission arn)
          ++ (lacking r.spec.permissionArns v.permissionArns).map (.attachPermission arn) := by
  cases hempty : r.spec.permissionArns.isEmpty with
  | true =>
    -- none are looked up, and what is compared is the same list
    rw [if_pos rfl]
    exact requests_permissions (by simp [told, hempty]) arn
  | false =>
    rw [if_neg Bool.false_ne_true, SyncPlan.requests, SyncPlan.permissions, toRemove_eq_lacking,
      toAdd_eq_lacking]
    simp [told, hempty]

/-- The plan, put together from the plans of its parts. -/
theorem plan_eq :
    plan r arn v = when (settingsStale r v.detail)
        (.updateShare arn (some r.spec.name) r.spec.allowExternalPrincipals)
      ++ ((SyncPlan.tags (.share arn) r.spec.tags (told r v).spec.tags).requests
      ++ ((SyncPlan.associations arn r.spec (told r v).spec).requests
      ++ (SyncPlan.permissions arn r.spec.permissionArns
        (told r v).spec.permissionArns).requests)) := by
  rw [plan, requests_associations_told, requests_permissions_told, ← requests_tags_eq]
  rfl

/-! ## The update -/

/-- **Nothing is planned where nothing is reported.** -/
theorem plan_of_isEmpty (h : (fieldDelta r.spec (told r v).spec).isEmpty = true) :
    plan r arn v = [] := by
  have hsame := Delta.differentAt_of_isEmpty h
  have htags := hsame "Spec.Tags"
  have hprincipals := hsame "Spec.Principals"
  have hresources := hsame "Spec.ResourceARNs"
  have hsources := hsame "Spec.Sources"
  have hpermissions := hsame "Spec.PermissionARNs"
  rw [differentAt_tags, Bool.not_eq_false'] at htags
  rw [differentAt_principals, Bool.not_eq_false', NameSet.sameElements_iff] at hprincipals
  rw [differentAt_resources, Bool.not_eq_false', NameSet.sameElements_iff] at hresources
  rw [differentAt_sources, Bool.not_eq_false', NameSet.sameElements_iff] at hsources
  rw [differentAt_permissions, Bool.not_eq_false', NameSet.sameElements_iff] at hpermissions
  rw [plan_eq, ← settingsStale_eq, hsame "Spec.Name", hsame "Spec.AllowExternalPrincipals",
    requests_tags (Delta.change_of_sameTags htags),
    requests_associations hprincipals hresources hsources, requests_permissions hpermissions]
  rfl

theorem makes_updateSettings (updated : Share) :
    (updateSettings arn r (fieldDelta r.spec (told r v).spec) updated).Makes (fun _ => True)
      (when (settingsStale r v.detail)
        (.updateShare arn (some r.spec.name) r.spec.allowExternalPrincipals)) := by
  rw [updateSettings, settingsStale_eq]
  cases settingsStale r v.detail with
  | true => exact (makes_recorded _).bind_done fun _ => ⟨_, rfl⟩
  | false => exact rfl

/-- Associations that are not reported are planned nothing for. -/
theorem makes_syncAssociations (latest updated : Share) :
    (syncAssociations arn r latest (fieldDelta r.spec latest.spec) updated).Makes (fun _ => True)
      (SyncPlan.associations arn r.spec latest.spec).requests := by
  rw [syncAssociations, differentAt_principals, differentAt_resources, differentAt_sources]
  split
  · exact SyncPlan.makes_perform.bind_done fun _ => ⟨_, rfl⟩
  · next hsame =>
    simp only [Bool.or_eq_true, Bool.not_eq_true', not_or, Bool.not_eq_false,
      NameSet.sameElements_iff] at hsame
    rw [requests_associations hsame.1.1 hsame.1.2 hsame.2]
    exact rfl

/-- **An update makes the requests of the plan.** -/
theorem makes_update {target : String} (htarget : (told r v).arn = some target) :
    (update r (told r v) (fieldDelta r.spec (told r v).spec)).Makes (fun _ => True)
      (plan r target v) := by
  rw [plan_eq]
  refine Makes.lift_bind (requireArn_of_arn htarget) ((makes_updateSettings r target v _).bind
    fun updated => Makes.bind ?_ fun _ => (makes_syncAssociations r target _ updated).bind
      fun updated => ?_)
  · rw [syncTags_eq]
    exact SyncPlan.makes_perform
  · rw [syncPermissions_eq]
    exact SyncPlan.makes_perform.bind_done fun _ => ⟨_, rfl⟩

/-- Whatever is refused, nothing is asked for that is not planned. -/
theorem asks_plan {r : Share} {v : ShareView} {target : String}
    (htarget : (told r v).arn = some target) :
    (bringInLine manager r (told r v)).Asks (· ∈ plan r target v) := by
  rw [bringInLine]
  split
  · trivial
  · exact ((makes_update r v htarget).asks (stopsOn_update r _ _)).bind fun _ => trivial

/-- **What is asked of the share in a pass,** if everything is granted. -/
theorem requests_of_granted {r : Share} {arn : String} {v : ShareView} {σ : Type} {service : Service σ}
    {s s' : σ} {said : List Exchange} {out : Except Failure (Share × Bool)}
    (harn : r.arn = some arn)
    (h : Dialogue service (bringInLine manager r (told r v)) s said out s')
    (hgranted : ∀ x ∈ said, x.refusal? = none) :
    said.map Sigma.fst = plan r (v.detail.arn.getD arn) v := by
  rw [bringInLine] at h
  split at h
  · next hempty =>
    obtain ⟨rfl, -, -⟩ := h.done_inv
    exact (plan_of_isEmpty r _ v hempty).symm
  · obtain ⟨x, hupdate, -⟩ := h.map_inv
    exact (makes_update r v (arn_told harn v)).requests_eq hupdate hgranted fun _ _ => trivial

end Share

end ShareKeeper
