import ShareKeeper.Proofs.Faults

/-!
# What is asked of the permission behind an object

A pass looks at a permission by one request, and what it is answered decides what it asks for later:
nothing if what is fixed differs, and else the tags first and then a rotation if the policy is another
one. Which versions a rotation names depends on the answers, and on these versions being numbers.
-/

namespace ShareKeeper

open Pass SyncPlan

/-- What is told of a version that was created. -/
def Exchange.newVersion? : Exchange → Option PermissionDetail
  | ⟨.createPermissionVersion _ _, .ok d⟩ => some d
  | _ => none

/-- Every version that was created has this number. -/
def Exchange.Numbers (n : Int) (x : Exchange) : Prop :=
  ∀ d ∈ x.newVersion?, d.version.map Rotation.parseVersion = some (.ok n)

/-- **The requests of a rotation** whose versions are numbers. -/
theorem Rotation.makes_run {β : Type} {f : PermissionDetail → Pass β}
    (hf : ∀ d, ∃ b, f d = .done b) {fair : Exchange → Prop} {version : String} {m n : Int}
    (hold : parseVersion version = .ok m) (hnew : ∀ x, fair x → x.Numbers n) (arn policy : String) :
    (run arn (some version) policy >>= fun rotation => Pass.lift rotation.result >>= f).Makes fair
      [.createPermissionVersion arn policy, .deletePermissionVersion arn m,
        .setDefaultPermissionVersion arn n] := by
  rw [run]
  simp only [hold]
  refine ⟨_, rfl, fun created hcreated => ⟨_, rfl, fun _ _ => ?_⟩⟩
  -- the version to promote is the one that the first answer tells of
  obtain ⟨text, htext, hparsed⟩ := Option.map_eq_some_iff.1 (hnew _ hcreated created rfl)
  show (promote arn (created.version.getD "") created >>= fun rotation =>
    Pass.lift rotation.result >>= f).Makes _ _
  rw [htext, Option.getD_some, promote]
  simp only [hparsed]
  refine ⟨_, rfl, fun _ _ => ?_⟩
  obtain ⟨b, hb⟩ := hf { created with defaultVersion := some true }
  show (f { created with defaultVersion := some true }).Makes _ _
  rw [hb]
  exact rfl

namespace Permission

variable (r : Permission) (arn : String) (d : PermissionDetail)

/-! ## The plan -/

/-- Whether the permission is told of under another name or for another type of resource. -/
def fixedDiffers : Bool :=
  d.name.any (· ≠ r.spec.name) || d.resourceType.any (· ≠ r.spec.resourceType)

/-- Whether the permission is told of with another policy. -/
def policyDiffers : Bool := d.policyTemplate.any fun p => !samePolicy r.spec.policyTemplate p

/-- **What is asked of a permission** to make of it what is desired, `m` and `n` being the version that
it has and the one that is created. -/
def plan (m n : Int) : List Request :=
  if fixedDiffers r d then []
  else tagRequests (.resource arn) r.spec.tags d.tags
    ++ if policyDiffers r d then
        [.createPermissionVersion arn r.spec.policyTemplate, .deletePermissionVersion arn m,
          .setDefaultPermissionVersion arn n]
      else []

/-! ## The update -/

/-- The permission that is changed is the one that was told of. -/
theorem arn_seen {r : Permission} {arn : String} (harn : r.arn = some arn) (d : PermissionDetail) :
    (seen r ⟨arn, d⟩).arn = some (d.arn.getD arn) := by
  have hseen : (seen r ⟨arn, d⟩).arn = d.arn.or r.arn := arn_observe r d
  rw [hseen, harn]
  cases d.arn <;> rfl

/-- What is fixed is reported exactly if it is told of otherwise. -/
theorem fixedDiffers_eq :
    ((fieldDelta r.spec (seen r ⟨arn, d⟩).spec).differentAt "Spec.Name"
      || (fieldDelta r.spec (seen r ⟨arn, d⟩).spec).differentAt "Spec.ResourceType")
      = fixedDiffers r d := by
  have hother : ∀ (told : Option String) (desired : String),
      (!decide (desired = told.getD desired)) = told.any (· ≠ desired) := by
    intro told desired
    cases told with
    | none => simp
    | some x => simp [eq_comm]
  rw [differentAt_name, differentAt_resourceType, fixedDiffers, ← hother, ← hother]
  rfl

theorem policyDiffers_eq :
    (fieldDelta r.spec (seen r ⟨arn, d⟩).spec).differentAt "Spec.PolicyTemplate"
      = policyDiffers r d := by
  rw [differentAt_policy, policyDiffers]
  show (!samePolicy r.spec.policyTemplate (d.policyTemplate.getD r.spec.policyTemplate)) = _
  cases d.policyTemplate with
  | none => rw [Option.getD_none, samePolicy_self]; rfl
  | some p => rfl

/-- Nothing is planned where nothing is reported. -/
theorem plan_of_isEmpty (h : (fieldDelta r.spec (seen r ⟨arn, d⟩).spec).isEmpty = true)
    (target : String) (m n : Int) : plan r target d m n = [] := by
  have hsame := Delta.differentAt_of_isEmpty h
  have htags := hsame "Spec.Tags"
  rw [differentAt_tags, Bool.not_eq_false'] at htags
  have hnone := requests_tags (Delta.change_of_sameTags htags) (.resource target)
  rw [plan, ← fixedDiffers_eq r arn, ← policyDiffers_eq r arn, hsame, hsame, hsame,
    ← requests_tags_eq]
  exact congrArg (· ++ []) hnone

/-- What is fixed stops an update before it asks for anything. -/
theorem refuseImmutable_of_fixedDiffers (h : fixedDiffers r d = true) :
    ∃ e, refuseImmutable (fieldDelta r.spec (seen r ⟨arn, d⟩).spec) = .error e := by
  rw [← fixedDiffers_eq r arn, Bool.or_eq_true] at h
  rw [refuseImmutable]
  split
  · exact ⟨_, rfl⟩
  · next hname => exact ⟨_, if_pos (h.resolve_left hname)⟩

theorem refuseImmutable_of_not_fixedDiffers (h : fixedDiffers r d = false) :
    refuseImmutable (fieldDelta r.spec (seen r ⟨arn, d⟩).spec) = .ok () := by
  rw [← fixedDiffers_eq r arn, Bool.or_eq_false_iff] at h
  simp [refuseImmutable, h.1, h.2]

/-- **An update makes the requests of the plan,** if what is fixed is as desired. -/
theorem makes_update {r : Permission} {arn target : String} {d : PermissionDetail} {m n : Int}
    (htarget : (seen r ⟨arn, d⟩).arn = some target) (hfixed : fixedDiffers r d = false)
    (hold : policyDiffers r d = true → d.version.map Rotation.parseVersion = some (.ok m)) :
    (update r (seen r ⟨arn, d⟩) (fieldDelta r.spec (seen r ⟨arn, d⟩).spec)).Makes
      (fun x => policyDiffers r d = true → x.Numbers n) (plan r target d m n) := by
  rw [plan, hfixed, if_neg Bool.false_ne_true]
  refine Makes.lift_bind (refuseImmutable_of_not_fixedDiffers r arn d hfixed)
    (Makes.lift_bind (requireArn_of_arn htarget) (Makes.bind ?_ fun _ => ?_))
  · rw [syncTags_eq, ← requests_tags_eq]
    exact SyncPlan.makes_perform
  · rw [rotatePolicy, policyDiffers_eq]
    cases hpolicy : policyDiffers r d with
    | true =>
      obtain ⟨version, hversion, hparsed⟩ := Option.map_eq_some_iff.1 (hold hpolicy)
      have hseen : ((seen r ⟨arn, d⟩).status.bind fun s => s.facts.version) = some version :=
        hversion
      rw [if_pos rfl, if_pos rfl, hseen]
      exact Rotation.makes_run (fun _ => ⟨_, rfl⟩) hparsed (fun _ h => h rfl) target _
    | false => exact rfl

/-- **What is asked of the permission in a pass,** if everything is granted and the versions of a
rotation are numbers. -/
theorem requests_of_granted {r : Permission} {arn : String} {d : PermissionDetail} {m n : Int} {σ : Type}
    {service : Service σ} {s s' : σ} {said : List Exchange} {out : Except Failure (Permission × Bool)}
    (harn : r.arn = some arn)
    (h : Dialogue service (bringInLine manager r (seen r ⟨arn, d⟩)) s said out s')
    (hgranted : ∀ x ∈ said, x.refusal? = none)
    (hold : policyDiffers r d = true → d.version.map Rotation.parseVersion = some (.ok m))
    (hnew : ∀ x ∈ said, policyDiffers r d = true → x.Numbers n) :
    said.map Sigma.fst = plan r (d.arn.getD arn) d m n := by
  rw [bringInLine] at h
  split at h
  · next hempty =>
    obtain ⟨rfl, -, -⟩ := h.done_inv
    exact (plan_of_isEmpty r arn d hempty _ m n).symm
  · obtain ⟨x, hupdate, -⟩ := h.map_inv
    cases hfixed : fixedDiffers r d with
    | true =>
      -- the update is turned down before anything is asked for, and the plan is empty
      obtain ⟨e, he⟩ := refuseImmutable_of_fixedDiffers r arn d hfixed
      obtain ⟨e', hrefused, -⟩ | ⟨u, s₁, l, rest, hallowed, -, -⟩ := hupdate.bind_cases
      · obtain ⟨rfl, -, -⟩ := hrefused.lift_inv
        rw [plan, if_pos hfixed]
        rfl
      · obtain ⟨-, hout, -⟩ := hallowed.lift_inv
        cases hout.trans he
    | false => exact (makes_update (arn_seen harn d) hfixed hold).requests_eq hupdate hgranted hnew

end Permission

end ShareKeeper
