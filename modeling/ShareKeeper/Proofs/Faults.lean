import ShareKeeper.Proofs.Permission.Course
import ShareKeeper.Proofs.Walk

/-!
# Validation faults and what was changed before them

An object that asks for what can never be reached should be turned down before anything is changed.
A share always is. With a permission there are faults that come too late: that the version which a
rotation has to replace is no number turns up after the tags were brought in step, and that the new
version is no number turns up after the old one was deleted. `changes_of_fault` lists what a pass has
changed by the time it fails with a validation fault, and `changed_before_fault` is such a pass.
-/

namespace ShareKeeper

open Pass

/-- Whether a fault is about a version that the service told of. -/
def ValidationFault.isVersion : ValidationFault → Bool
  | .version _ | .versionMissing _ => true
  | _ => false

/-- What fails only for want of an entity, or when it is refused, meets no fault. -/
theorem not_fault {α σ : Type} {service : Service σ} {s s' : σ} {heard : List Exchange} {p : Pass α}
    (hp : p.Raises fun e => e = .notFound) {f : ValidationFault} :
    ¬ Dialogue service p s heard (.error (.validation f)) s' := by
  intro h
  rcases hp.dialogue_cases h with hsort | ⟨-, -, a, -, ha⟩
  · cases hsort
  · cases ha

/-! ## Rotations -/

namespace Rotation

variable {σ : Type} {service : Service σ} {s s' : σ} {heard : List Exchange} {arn policy : String}

/-- The steps of a rotation that come before the new version is looked at. -/
def begun (arn : String) (previous : Option String) (policy : String) : List Request :=
  match previous.map parseVersion with
  | some (.ok n) => [.createPermissionVersion arn policy, .deletePermissionVersion arn n]
  | _ => []

theorem isVersion_of_parseVersion {version : String} {f : ValidationFault}
    (h : parseVersion version = .error (.validation f)) : f.isVersion = true := by
  rw [parseVersion] at h
  split at h
  · cases h
  · cases h
    rfl

/-- A rotation does not fail; it returns its failure. -/
theorem raises_run {sort : Failure → Prop} (arn : String) (previous : Option String)
    (policy : String) : (run arn previous policy).Raises sort := by
  cases previous with
  | none => trivial
  | some version =>
    rw [run]
    split
    · trivial
    · refine fun created => .inr ?_
      cases created with
      | error e => trivial
      | ok d =>
        refine fun deleted => .inr ?_
        cases deleted with
        | error e => trivial
        | ok u =>
          show (promote arn (d.version.getD "") d).Raises _
          rw [promote]
          split
          · trivial
          · refine fun set => .inr ?_
            cases set <;> trivial

/-- **A rotation that meets a fault** has not begun, or it is past the deletion. -/
theorem requests_of_fault {previous : Option String} {rotation : Rotation} {f : ValidationFault}
    (h : Dialogue service (run arn previous policy) s heard (.ok rotation) s')
    (hfault : rotation.result = .error (.validation f)) :
    f.isVersion = true ∧ heard.map Sigma.fst = begun arn previous policy := by
  cases previous with
  | none =>
    obtain ⟨rfl, hout, -⟩ := h.done_inv
    cases hout
    cases hfault
    exact ⟨rfl, rfl⟩
  | some version =>
    rw [run] at h
    cases hold : parseVersion version with
    | error e =>
      simp only [hold] at h
      obtain ⟨rfl, hout, -⟩ := h.done_inv
      cases hout
      cases hfault
      exact ⟨isVersion_of_parseVersion hold, by simp [begun, hold]⟩
    | ok n =>
      simp only [hold] at h
      -- a refused step is the failure, and so is no fault
      obtain ⟨e, s₁, rest, -, hcreated⟩ | ⟨d, s₁, rest, rfl, hcreated⟩ := h.attempt_recorded_cases
      · obtain ⟨-, hout, -⟩ := hcreated.done_inv
        cases hout
        cases hfault
      obtain ⟨e, s₂, rest, -, hdeleted⟩ | ⟨u, s₂, rest, rfl, hdeleted⟩ := hcreated.attempt_recorded_cases
      · obtain ⟨-, hout, -⟩ := hdeleted.done_inv
        cases hout
        cases hfault
      dsimp only at hdeleted
      rw [promote] at hdeleted
      cases hnew : parseVersion (d.version.getD "") with
      | error e =>
        simp only [hnew] at hdeleted
        obtain ⟨rfl, hout, -⟩ := hdeleted.done_inv
        cases hout
        cases hfault
        exact ⟨isVersion_of_parseVersion hnew, by simp [begun, hold]⟩
      | ok m =>
        simp only [hnew] at hdeleted
        obtain ⟨e, s₃, rest, -, hset⟩ | ⟨u, s₃, rest, -, hset⟩ := hdeleted.attempt_recorded_cases
        all_goals
          obtain ⟨-, hout, -⟩ := hset.done_inv
          cases hout
          cases hfault

end Rotation

/-! ## Permissions -/

namespace Permission

variable {σ : Type} {service : Service σ} {s s' : σ} {heard : List Exchange} {r latest : Permission}

/-- What is changed of a permission before a fault about a version turns up: the tags and, if the
version that is told is a number, the first steps of a rotation. -/
def changesUpToVersion (r : Permission) (arn : String) (d : PermissionDetail) : List Request :=
  let target := d.arn.getD arn
  (SyncPlan.tags (.resource target) r.spec.tags (Tags.visible d.tags)).requests
    ++ Rotation.begun target d.version r.spec.policyTemplate

/-- A look that succeeds is one request, and the object is seen with what is told. -/
theorem readOne_inv (h : Dialogue service (readOne r) s heard (.ok latest) s') :
    ∃ arn d, r.arn = some arn ∧ heard = [⟨.getPermission arn none, .ok d⟩] ∧
      latest = seen r ⟨arn, d⟩ := by
  obtain ⟨e, -, hout⟩ | ⟨arn, s₁, l, look, hlift, hlook, rfl⟩ := h.bind_cases
  · cases hout
  · obtain ⟨rfl, harn, rfl⟩ := hlift.lift_inv
    obtain ⟨e, -, -, hout⟩ | ⟨d, s₂, rest, -, hrest, rfl⟩ := hlook.recorded_bind_cases
    · cases hout
    · obtain ⟨rfl, hout, -⟩ := hrest.done_inv
      cases hout
      exact ⟨arn, d, arn_of_requireArn harn.symm, rfl, rfl⟩

theorem refuseImmutable_fault {d : Delta} {f : ValidationFault}
    (h : refuseImmutable d = .error (.validation f)) : f.isVersion = false := by
  rw [refuseImmutable] at h
  split at h
  · cases h
    rfl
  · split at h
    · cases h
      rfl
    · cases h

/-- A policy that is rotated in vain. -/
theorem rotatePolicy_requests_of_fault {target : String} {δ : Delta} {p : PermissionRecord}
    {updated : Permission} {f : ValidationFault}
    (h : Dialogue service (rotatePolicy target r (seen r p) δ updated) s heard
      (.error (.validation f)) s') :
    f.isVersion = true ∧
      heard.map Sigma.fst = Rotation.begun target p.detail.version r.spec.policyTemplate := by
  rw [rotatePolicy] at h
  split at h
  · obtain ⟨e, hrun, hout⟩ | ⟨rotation, s₁, steps, rest, hrun, hresult, rfl⟩ := h.bind_cases
    · cases hout
      exact absurd hrun (not_fault (Rotation.raises_run _ _ _))
    · obtain ⟨e, hlift, hout⟩ | ⟨created, s₂, l, l', -, hdone, -⟩ := hresult.bind_cases
      · cases hout
        obtain ⟨rfl, hfault, -⟩ := hlift.lift_inv
        rw [List.append_nil]
        exact Rotation.requests_of_fault hrun hfault.symm
      · obtain ⟨-, hout, -⟩ := hdone.done_inv
        cases hout
  · obtain ⟨-, hout, -⟩ := h.done_inv
    cases hout

/-- **An update that meets a fault** has changed nothing if the fault is about what is fixed. -/
theorem update_requests_of_fault {arn : String} {d : PermissionDetail} {f : ValidationFault}
    (harn : r.arn = some arn)
    (h : Dialogue service
      (update r (seen r ⟨arn, d⟩) (fieldDelta r.spec (seen r ⟨arn, d⟩).spec)) s heard
      (.error (.validation f)) s') :
    heard.map Sigma.fst = if f.isVersion then changesUpToVersion r arn d else [] := by
  obtain ⟨e, hfixed, hout⟩ | ⟨u, s₁, l, rest, hfixed, hupdate, rfl⟩ := h.bind_cases
  · cases hout
    obtain ⟨rfl, hfault, -⟩ := hfixed.lift_inv
    rw [refuseImmutable_fault hfault.symm]
    rfl
  obtain ⟨rfl, -, rfl⟩ := hfixed.lift_inv
  obtain ⟨e, hlift, hout⟩ | ⟨target, s₂, l, rest, hlift, hsync, rfl⟩ := hupdate.bind_cases
  · cases hout
    obtain ⟨-, hfault, -⟩ := hlift.lift_inv
    cases (of_requireArn_error hfault.symm).1
  obtain ⟨rfl, htarget, rfl⟩ := hlift.lift_inv
  have hseen : (seen r ⟨arn, d⟩).arn = d.arn.or r.arn := arn_observe r d
  rw [arn_of_requireArn htarget.symm, harn] at hseen
  have htarget : target = d.arn.getD arn := by
    cases hd : d.arn with
    | none => simpa [hd] using hseen
    | some x => simpa [hd] using hseen
  rw [syncTags_eq] at hsync
  obtain ⟨e, htags, hout⟩ | ⟨u, s₃, tagged, rotated, htags, hrotate, rfl⟩ := hsync.bind_cases
  · cases hout
    exact absurd htags (not_fault SyncPlan.raises_perform)
  obtain ⟨hversion, hrotated⟩ := rotatePolicy_requests_of_fault hrotate
  rw [hversion, if_pos rfl, changesUpToVersion, ← htarget]
  simp only [List.nil_append, List.map_append, hrotated, SyncPlan.requests_of_perform htags]
  rfl

end Permission

/-! ## Passes -/

/-- What a pass has changed by the time it meets a fault: nothing, unless the fault is about the
version of a permission that it looked at before. -/
def Resource.changesBefore :
    {k : Kind} → Resource k → ValidationFault → List Exchange → List Request
  | .permission, r, f, ⟨.getPermission arn none, .ok d⟩ :: _ =>
    if f.isVersion then Permission.changesUpToVersion r arn d else []
  | _, _, _, _ => []

section Passes

variable {k : Kind} {σ : Type} {service : Service σ} {region : Option String} {now : Instant}
  {r latest : Resource k} {s s₁ s' : σ} {looks said : List Exchange} {f : ValidationFault}

/-- A fault that turns up while the entity is brought in line. -/
theorem bringInLine_requests_of_fault
    (hlook : Dialogue service (k.manager.readOne r) s looks (.ok latest) s₁)
    (hline : Dialogue service (bringInLine k.manager r latest) s₁ said (.error (.validation f)) s') :
    said.map Sigma.fst = r.changesBefore f (looks ++ said) := by
  rw [bringInLine] at hline
  split at hline
  · obtain ⟨-, hout, -⟩ := hline.done_inv
    cases hout
  · obtain ⟨x, hupdate, hout⟩ := hline.map_inv
    cases x with
    | ok x => cases hout
    | error e =>
      cases hout
      cases k with
      | share => exact absurd hupdate (not_fault (Share.raises_update r latest _))
      | permission =>
        obtain ⟨arn, d, harn, rfl, rfl⟩ := Permission.readOne_inv hlook
        exact Permission.update_requests_of_fault harn hupdate

/-- **What a pass has changed by the time it fails with a fault.** Everything that it asked for was
granted, and what was no look is listed. -/
theorem changes_of_fault
    (h : run service (reconcile k.manager region now r) s = (.error (.validation f), s')) :
    (requests service (reconcile k.manager region now r) s).filter (fun q => !q.operation.isRead)
        = r.changesBefore f (transcript service (reconcile k.manager region now r) s) ∧
      ∀ x ∈ transcript service (reconcile k.manager region now r) s, x.refusal? = none := by
  have hwalk := walk_of_dialogue (Dialogue.of_run h)
  rw [requests]
  generalize transcript service (reconcile k.manager region now r) s = heard at hwalk ⊢
  generalize hout : (.error (.validation f) : Except Failure (Reconciled k)) = out at hwalk
  cases hwalk with
  | rejected hvalid => exact ⟨by cases k <;> rfl, fun x hx => absurd hx List.not_mem_nil⟩
  | lost hvalid hlook he =>
    cases hout
    exact absurd hlook (not_fault (raises_readOne r))
  | @created looks said e s₁ s' x hvalid hlook he hcreate =>
    cases x with
    | ok x => cases hout
    | error e =>
      cases hout
      exact absurd hcreate (not_fault (raises_create r))
  | @found looks said latest s₁ s' x hvalid hlook hline =>
    cases x with
    | ok x => cases hout
    | error e =>
      cases hout
      refine ⟨?_, fun x hx => ?_⟩
      · have hlooks : (looks.map Sigma.fst).filter (fun q => !q.operation.isRead) = [] := by
          refine List.filter_eq_nil_iff.2 fun q hq => ?_
          obtain ⟨x, hx, rfl⟩ := List.mem_map.1 hq
          simp [hlook.asked (asks_readOne r) x hx]
        have hchanges : (said.map Sigma.fst).filter (fun q => !q.operation.isRead)
            = said.map Sigma.fst := by
          refine List.filter_eq_self.2 fun q hq => ?_
          obtain ⟨x, hx, rfl⟩ := List.mem_map.1 hq
          have hchange := hline.asked (asks_bringInLine r latest) x hx
          simpa [Exchange.isLook] using Exchange.not_isLook_of_isChange hchange
        rw [List.map_append, List.filter_append, hlooks, hchanges, List.nil_append,
          bringInLine_requests_of_fault hlook hline]
      · rcases List.mem_append.1 hx with hx | hx
        · exact (stopsOn_readOne r).granted hlook x hx
        · cases hrefused : x.refusal? with
          | none => rfl
          | some a => cases (stopsOn_bringInLine r latest).eq_of_refused hline hx hrefused

end Passes

/-! ## A permission without a version -/

namespace Permission

/-- A permission with a tag, and with a policy that the service does not have yet. -/
def labelled : Permission where
  metadata := .empty
  spec := ⟨"reader", "ec2:Subnet", "[]", [⟨"stage", "prod"⟩]⟩
  status := some { Kind.permission.emptyStatus with
    identity := some ⟨some (Account.permissionArn "reader"), none, none⟩ }

/-- An account that tells no version of the permission. -/
def unversioned : Account :=
  let p := Account.newPermission ⟨"reader", "ec2:Subnet", "\x7b\x7d", []⟩
  Account.empty.putPermission { p with detail := { p.detail with version := none } }

/-- How a pass over the permission fails. -/
theorem run_labelled :
    ∃ a', run Account.serve (reconcile (Kind.manager .permission) none .epoch labelled) unversioned
      = (.error (.validation (.versionMissing (Account.permissionArn "reader"))), a') :=
  exists_of_failure? (by decide +kernel)

/-- What was changed by then is the tag. -/
theorem changes_of_labelled :
    ∃ f a', run Account.serve (reconcile (Kind.manager .permission) none .epoch labelled) unversioned
        = (.error (.validation f), a') ∧
      (requests Account.serve (reconcile (Kind.manager .permission) none .epoch labelled)
          unversioned).filter (fun q => !q.operation.isRead)
        = labelled.changesBefore f (transcript Account.serve
            (reconcile (Kind.manager .permission) none .epoch labelled) unversioned) ∧
      ∀ x ∈ transcript Account.serve (reconcile (Kind.manager .permission) none .epoch labelled)
        unversioned, x.refusal? = none := by
  obtain ⟨a', hrun⟩ := run_labelled
  exact ⟨_, a', hrun, changes_of_fault hrun⟩

/-- **A permission that is changed before a fault turns up.** Its tag is put on it, and then its
policy cannot be rotated, because no version is known. -/
theorem changed_before_fault :
    ∃ f a', run Account.serve (reconcile (Kind.manager .permission) none .epoch labelled) unversioned
        = (.error (.validation f), a') ∧
      requests Account.serve (reconcile (Kind.manager .permission) none .epoch labelled) unversioned
        = [.getPermission (Account.permissionArn "reader") none,
          .tag (.resource (Account.permissionArn "reader")) [⟨"stage", "prod"⟩]] ∧
      a' ≠ unversioned := by
  obtain ⟨a', hrun⟩ := run_labelled
  have hchanged : (run Account.serve
      (reconcile (Kind.manager .permission) none .epoch labelled) unversioned).2 ≠ unversioned := by
    decide +kernel
  rw [hrun] at hchanged
  exact ⟨_, a', hrun, by decide +kernel, hchanged⟩

end Permission

end ShareKeeper
