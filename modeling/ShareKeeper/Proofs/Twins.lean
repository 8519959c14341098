import ShareKeeper.Proofs.Continuity
import ShareKeeper.Proofs.Faults
import ShareKeeper.Proofs.Parallel

/-!
# What a pass takes from the status

Of the status of an object a pass takes the ARN, and of a share the sources that were associated last.
Two objects that agree on these, and on metadata and specification, are *twins*, whatever else their
statuses say. Passes over twins run in parallel (`Pass.Parallel`): they ask for the same, and whatever
the answers are they fail alike, or get through with statuses that differ in nothing but the conditions,
the owner and the region (`samePass_of_twin`).

The status does say which version of a policy is the present one, but a rotation does not go by it: the
version that it deletes is the one that the look of the same pass was told of.
-/

namespace ShareKeeper

open Pass

/-! ## Twins -/

/-- Two statuses that differ in nothing but the conditions, the owner and the region. -/
structure Status.Agrees {F : Type} (s t : Status F) : Prop where
  arn : t.identity.bind Identity.arn = s.identity.bind Identity.arn
  creationTime : t.creationTime = s.creationTime
  lastUpdatedTime : t.lastUpdatedTime = s.lastUpdatedTime
  featureSet : t.featureSet = s.featureSet
  state : t.state = s.state
  facts : t.facts = s.facts

namespace Resource

variable {k : Kind}

/-- What an object remembers of its entity because the service does not tell it: of a share, the
sources. -/
def remembered : {k : Kind} → Resource k → List String
  | .permission, _ => []
  | .share, r => Share.associatedSources r

/-- Objects of which a pass cannot tell one from the other. -/
structure Twin (r r' : Resource k) : Prop where
  metadata : r'.metadata = r.metadata
  spec : r'.spec = r.spec
  arn : r'.arn = r.arn
  remembered : r'.remembered = r.remembered

/-- Objects that differ in nothing but what their statuses say of the conditions, the owner and the
region. -/
structure Agrees (x y : Resource k) : Prop where
  metadata : y.metadata = x.metadata
  spec : y.spec = x.spec
  status : x.statusD.Agrees y.statusD

theorem remembered_eq (r : Share) : r.remembered = r.statusD.facts.associatedSources :=
  Share.associatedSources_eq r

theorem isSettled_eq (r : Resource k) :
    r.isSettled = r.statusD.state.any fun s => s = k.settledState := by
  rw [isSettled, statusD]
  cases r.status with
  | none => cases k <;> rfl
  | some s => rfl

section Twin

variable {r r' x y : Resource k}

theorem Agrees.twin (h : x.Agrees y) : x.Twin y where
  metadata := h.metadata
  spec := h.spec
  arn := by rw [arn_eq_statusD x, arn_eq_statusD y, h.status.arn]
  remembered := by
    cases k with
    | permission => rfl
    | share => rw [remembered_eq, remembered_eq, h.status.facts]

theorem Twin.requireArn_eq (h : r.Twin r') : r'.requireArn = r.requireArn := by
  rw [requireArn, requireArn, h.arn]

/-- Twins that take over the statuses of objects that agree. -/
theorem Twin.withStatus (h : r.Twin r') (hxy : x.Agrees y) :
    ({ r with status := x.status } : Resource k).Twin { r' with status := y.status } where
  metadata := h.metadata
  spec := h.spec
  arn := hxy.twin.arn
  remembered := by
    cases k with
    | permission => rfl
    | share => exact hxy.twin.remembered

theorem Twin.withStatus_agrees (h : r.Twin r') (hxy : x.Agrees y) :
    ({ r with status := x.status } : Resource k).Agrees { r' with status := y.status } :=
  ⟨h.metadata, h.spec, hxy.status⟩

theorem Agrees.isSettled_eq (h : x.Agrees y) : y.isSettled = x.isSettled := by
  rw [Resource.isSettled_eq, Resource.isSettled_eq, h.status.state]

theorem Twin.creationTags_eq (h : r.Twin r') (tags : List Tag) :
    r'.creationTags tags = r.creationTags tags := by
  rw [creationTags, creationTags, namespaceName, namespaceName, h.metadata]

end Twin

end Resource

/-! ## Permissions -/

namespace Permission

variable {r r' latest latest' : Permission}

/-- **What is observed of twins agrees.** -/
theorem agrees_observe (h : r.Twin r') (d : PermissionDetail) :
    (observe r d).Agrees (observe r' d) where
  metadata := h.metadata
  spec := by simp only [observe, h.spec]
  status := by
    refine ⟨?_, rfl, rfl, rfl, rfl, rfl⟩
    rw [← arn_eq_statusD, ← arn_eq_statusD, arn_observe, arn_observe, h.arn]

theorem parallel_readOne (h : r.Twin r') :
    Parallel Resource.Agrees (readOne r) (readOne r') := by
  rw [readOne, readOne, h.requireArn_eq]
  refine .bind_same _ fun arn => .bind_same _ fun d => .done ?_
  have hseen := agrees_observe h d
  exact ⟨hseen.metadata, by rw [hseen.spec], hseen.status⟩

theorem parallel_create (h : r.Twin r') : Parallel Resource.Agrees (create r) (create r') := by
  have hinput : input r' = input r := by rw [input, input, h.creationTags_eq, h.spec]
  rw [create, create, hinput]
  exact .bind_same _ fun d => .done (agrees_observe h d)

theorem parallel_update (h : r.Twin r') (hlatest : latest.Agrees latest') (d : Delta) :
    Parallel Resource.Agrees (update r latest d) (update r' latest' d) := by
  have htags : ∀ arn, syncTags arn r' latest' d = syncTags arn r latest d := by
    intro arn
    rw [syncTags, syncTags, h.spec, hlatest.spec]
  have hversion : latest'.status.bind (fun s => s.facts.version)
      = latest.status.bind fun s => s.facts.version := by
    have hfacts : ∀ x : Permission, x.status.bind (fun s => s.facts.version)
        = x.statusD.facts.version := by
      intro x
      rw [Resource.statusD]
      cases x.status <;> rfl
    rw [hfacts, hfacts, hlatest.status.facts]
  have hpolicy : r'.spec.policyTemplate = r.spec.policyTemplate := by rw [h.spec]
  rw [update, update, hlatest.twin.requireArn_eq]
  refine .bind_same _ fun _ => .bind_same _ fun arn => ?_
  rw [htags]
  refine .bind_same _ fun _ => ?_
  rw [rotatePolicy, rotatePolicy, hversion, hpolicy]
  split
  · exact .bind_same _ fun _ => .bind_same _ fun created =>
      .done (agrees_observe (h.withStatus hlatest) created)
  · exact .done (h.withStatus_agrees hlatest)

end Permission

/-! ## Shares -/

namespace Share

variable {r r' latest latest' : Share}

/-- **What is observed of twins agrees.** -/
theorem agrees_observe (h : r.Twin r') (d : ShareDetail) :
    (observe r d).Agrees (observe r' d) where
  metadata := h.metadata
  spec := by simp only [observe, h.spec]
  status := by
    have hsources := h.remembered
    rw [Resource.remembered_eq, Resource.remembered_eq] at hsources
    refine ⟨?_, rfl, rfl, rfl, rfl, ?_⟩
    · rw [← arn_eq_statusD, ← arn_eq_statusD, arn_observe, arn_observe, h.arn]
    · show (⟨_, _, r'.statusD.facts.associatedSources⟩ : ShareFacts) = ⟨_, _, _⟩
      rw [hsources]

theorem agrees_withSources (h : r.Agrees r') (sources : List String) :
    (withSources r sources).Agrees (withSources r' sources) where
  metadata := h.metadata
  spec := h.spec
  status := by
    obtain ⟨harn, hcreation, hupdated, hfeatures, hstate, hfacts⟩ := h.status
    refine ⟨harn, hcreation, hupdated, hfeatures, hstate, ?_⟩
    show ({ r'.statusD.facts with associatedSources := sources } : ShareFacts) = _
    rw [hfacts]
    rfl

theorem parallel_readLists (h : r.Twin r') (arn : String) (detail : ShareDetail) :
    Parallel Resource.Agrees (readLists r arn detail) (readLists r' arn detail) := by
  have hseen := agrees_observe h detail
  have hpermissions : readPermissions arn r' = readPermissions arn r := by
    rw [readPermissions, readPermissions, h.spec]
  rw [readLists, readLists, hpermissions]
  refine .bind_same _ fun principals => .bind_same _ fun resourceArns =>
    .bind_same _ fun permissionArns => .done ⟨hseen.metadata, ?_, hseen.status⟩
  have hsources : associatedSources (observe r' detail) = associatedSources (observe r detail) :=
    hseen.twin.remembered
  rw [hsources, hseen.spec]

theorem parallel_readOne (h : r.Twin r') :
    Parallel Resource.Agrees (readOne r) (readOne r') := by
  rw [readOne_eq, readOne_eq, h.requireArn_eq]
  refine .bind_same _ fun arn => .bind_same _ fun detail => ?_
  split
  · exact .fail _
  · exact parallel_readLists h arn detail

theorem parallel_create (h : r.Twin r') : Parallel Resource.Agrees (create r) (create r') := by
  have hinput : input r' = input r := by rw [input, input, h.creationTags_eq, h.spec]
  rw [create, create, hinput, h.spec]
  exact .bind_same _ fun d => .done (agrees_withSources (agrees_observe h d) _)

theorem parallel_update (h : r.Twin r') (hlatest : latest.Agrees latest') (d : Delta) :
    Parallel Resource.Agrees (update r latest d) (update r' latest' d) := by
  have htags : ∀ arn, syncTags arn r' latest' d = syncTags arn r latest d := by
    intro arn
    rw [syncTags, syncTags, h.spec, hlatest.spec]
  have hpermissions : ∀ arn, syncPermissions arn r' latest' d = syncPermissions arn r latest d := by
    intro arn
    rw [syncPermissions, syncPermissions, h.spec, hlatest.spec]
  have hsettings : r'.spec.name = r.spec.name ∧
      r'.spec.allowExternalPrincipals = r.spec.allowExternalPrincipals := by
    rw [h.spec]
    exact ⟨rfl, rfl⟩
  rw [update, update, hlatest.twin.requireArn_eq]
  refine .bind_same _ fun arn => Parallel.bind (R := Resource.Agrees) ?_ fun x y hxy => ?_
  · rw [updateSettings, updateSettings, hsettings.1, hsettings.2]
    split
    · exact .bind_same _ fun detail => .done (agrees_observe (h.withStatus hlatest) detail)
    · exact .done (h.withStatus_agrees hlatest)
  · rw [htags]
    refine .bind_same _ fun _ => Parallel.bind (R := Resource.Agrees) ?_ fun x y hxy => ?_
    · rw [syncAssociations, syncAssociations, h.spec, hlatest.spec]
      split
      · exact .bind_same _ fun _ => .done (agrees_withSources hxy _)
      · exact .done hxy
    · rw [hpermissions]
      exact .bind_same _ fun _ => .done hxy

end Share

/-! ## Either kind -/

/-- Two outcomes that are synced alike, and whose statuses differ in nothing but the conditions, the
owner and the region. -/
structure Reconciled.Agrees {k : Kind} (o o' : Reconciled k) : Prop where
  synced : o'.synced = o.synced
  status : ∃ s conditions ownerAccountId region, o.resource.status = some s ∧
    o'.resource.status = some { s with
      conditions
      identity := s.identity.map fun i => { i with ownerAccountId, region } }

/-- To conclude adds to what the statuses differ in nothing else. -/
theorem Status.Agrees.concluded {F : Type} {s t : Status F} (h : s.Agrees t) (region : Option String)
    (now now' : Instant) (b : Bool) :
    ∃ conditions ownerAccountId place, t.concluded region now' b = { s.concluded region now b with
      conditions
      identity := (s.concluded region now b).identity.map fun i =>
        { i with ownerAccountId, region := place } } := by
  have harn : (t.identity.getD .empty).arn = (s.identity.getD .empty).arn := by
    have hbind : ∀ i : Option Identity, (i.getD .empty).arn = i.bind Identity.arn := by
      intro i
      cases i <;> rfl
    rw [hbind, hbind, h.arn]
  refine ⟨(t.concluded region now' b).conditions, (t.identity.getD .empty).ownerAccountId,
    (t.identity.getD .empty).region.or region, ?_⟩
  simp only [Status.concluded, Option.map_some, ← harn, ← h.creationTime, ← h.lastUpdatedTime,
    ← h.featureSet, ← h.state, ← h.facts]

section Passes

variable {k : Kind} {r r' latest latest' : Resource k}

theorem validate_of_twin (h : r.Twin r') : k.manager.validate r' = k.manager.validate r := by
  cases k with
  | permission =>
    show Permission.validate r' = Permission.validate r
    rw [Permission.validate, Permission.validate, h.spec]
  | share =>
    show Share.validate r' = Share.validate r
    rw [Share.validate, Share.validate, h.spec]

theorem parallel_readOne (h : r.Twin r') :
    Parallel Resource.Agrees (k.manager.readOne r) (k.manager.readOne r') := by
  cases k with
  | permission => exact Permission.parallel_readOne h
  | share => exact Share.parallel_readOne h

theorem parallel_create (h : r.Twin r') :
    Parallel Resource.Agrees (k.manager.create r) (k.manager.create r') := by
  cases k with
  | permission => exact Permission.parallel_create h
  | share => exact Share.parallel_create h

theorem parallel_update (h : r.Twin r') (hlatest : latest.Agrees latest') (d : Delta) :
    Parallel Resource.Agrees (k.manager.update r latest d) (k.manager.update r' latest' d) := by
  cases k with
  | permission => exact Permission.parallel_update h hlatest d
  | share => exact Share.parallel_update h hlatest d

/-- A delta is about the specifications. -/
theorem delta_of_twin (h : r.Twin r') (hlatest : latest.Agrees latest') :
    k.manager.delta (some r') (some latest') = k.manager.delta (some r) (some latest) := by
  cases k with
  | permission =>
    show Permission.fieldDelta r'.spec latest'.spec = Permission.fieldDelta r.spec latest.spec
    rw [h.spec, hlatest.spec]
  | share =>
    show Share.fieldDelta r'.spec latest'.spec = Share.fieldDelta r.spec latest.spec
    rw [h.spec, hlatest.spec]

/-- What a pass ends with before it is concluded. -/
def SameWork (x y : Resource k × Bool) : Prop := x.1.Agrees y.1 ∧ y.2 = x.2

theorem parallel_bringInLine (h : r.Twin r') (hlatest : latest.Agrees latest') :
    Parallel SameWork (bringInLine k.manager r latest) (bringInLine k.manager r' latest') := by
  rw [bringInLine, bringInLine, delta_of_twin h hlatest]
  split
  · exact .done ⟨hlatest, rfl⟩
  · exact (parallel_update h hlatest _).bind fun x y hxy => .done ⟨hxy, rfl⟩

theorem parallel_applyDesired (h : r.Twin r') :
    Parallel SameWork (applyDesired k.manager r) (applyDesired k.manager r') := by
  refine (parallel_readOne h).attempt.bind fun x y hxy => ?_
  cases hxy with
  | ok hlatest => exact parallel_bringInLine h hlatest
  | error e =>
    dsimp only
    split
    · exact (parallel_create h).bind fun x y hxy => .done ⟨hxy, rfl⟩
    · exact .fail e

theorem agrees_conclude {x y : Resource k} (h : x.Agrees y) (region : Option String)
    (now now' : Instant) (requeue : Bool) :
    (conclude region now x requeue).Agrees (conclude region now' y requeue) where
  synced := by rw [conclude_synced, conclude_synced, h.isSettled_eq]
  status := by
    obtain ⟨conditions, owner, place, hstatus⟩ :=
      h.status.concluded region now now' (!requeue && x.isSettled)
    refine ⟨_, conditions, owner, place, conclude_status region now x requeue, ?_⟩
    rw [conclude_status, h.isSettled_eq, hstatus]

/-- **Passes over twins run in parallel,** whenever they are made. -/
theorem parallel_reconcile (h : r.Twin r') (region : Option String) (now now' : Instant) :
    Parallel Reconciled.Agrees (reconcile k.manager region now r)
      (reconcile k.manager region now' r') := by
  rw [reconcile, reconcile, validate_of_twin h]
  refine .bind_same _ fun _ => (parallel_applyDesired h).bind fun x y hxy => ?_
  obtain ⟨latest, requeue⟩ := x
  obtain ⟨latest', requeue'⟩ := y
  obtain ⟨hagrees, rfl⟩ := hxy
  exact .done (agrees_conclude hagrees region now now' requeue')

end Passes

/-! ## The version that is deleted -/

/-- The version with a number is deleted from the permission that the look told of first, and it is the
version that this look told. -/
def DeletesTold {k : Kind} (r : Resource k) (heard : List Exchange) (arn : String) (n : Int) : Prop :=
  ∃ recorded d, r.arn = some recorded ∧ heard.head? = some ⟨.getPermission recorded none, .ok d⟩ ∧
    arn = d.arn.getD recorded ∧ d.version.map Rotation.parseVersion = some (.ok n)

/-- An update deletes the version that is in view. -/
theorem Permission.asks_previous {r latest : Permission} {arn : String} (harn : latest.arn = some arn)
    (d : Delta) : (Permission.update r latest d).Asks fun q => ∀ x n,
      q = .deletePermissionVersion x n →
        x = arn ∧ (latest.status.bind fun s => s.facts.version).map Rotation.parseVersion
          = some (.ok n) := by
  refine Permission.asks_update_of r latest d ?_ ?_
  · rintro recorded - q hq x n rfl
    have hupdate := SyncPlan.isUpdate_of_mem_tags hq
    cases hupdate
  · rintro recorded hrecorded q hstep x n rfl
    cases harn.symm.trans hrecorded
    cases hstep with
    | delete hversion => exact ⟨rfl, hversion⟩

section Deletion

variable {k : Kind} {r : Resource k} {σ : Type} {service : Service σ} {s s' : σ}
  {heard : List Exchange} {region : Option String} {now : Instant}

theorem Permission.deletesTold {r : Permission} {out : Except Failure (Reconciled .permission)}
    (h : Dialogue service (reconcile (Kind.manager .permission) region now r) s heard out s')
    {y : Exchange} (hy : y ∈ heard) {arn : String} {n : Int}
    (hdelete : y.1 = .deletePermissionVersion arn n) : DeletesTold r heard arn n := by
  have hchange : y.1.operation.isChange = true := by rw [hdelete]; rfl
  obtain ⟨looks, said, latest, s₁, updated, rfl, hsaid, hlook, hupdate, -⟩ :=
    updated_of_isChange (k := .permission) h hy hchange
  obtain ⟨recorded, d, harn, rfl, rfl⟩ := Permission.readOne_inv hlook
  have hseen : (Permission.seen r ⟨recorded, d⟩).arn = some (d.arn.getD recorded) := by
    show (Permission.observe r d).arn = _
    rw [Permission.arn_observe, harn]
    cases d.arn <;> rfl
  obtain ⟨htarget, hversion⟩ :=
    hupdate.asked (Permission.asks_previous hseen _) y hsaid arn n hdelete
  exact ⟨recorded, d, harn, rfl, htarget, hversion⟩

/-- **A version that is deleted was told of in the same pass,** whatever the status says. -/
theorem deletesTold {out : Except Failure (Reconciled k)}
    (h : Dialogue service (reconcile k.manager region now r) s heard out s') {y : Exchange}
    (hy : y ∈ heard) {arn : String} {n : Int} (hdelete : y.1 = .deletePermissionVersion arn n) :
    DeletesTold r heard arn n := by
  cases k with
  | permission => exact Permission.deletesTold h hy hdelete
  | share =>
    -- no version is deleted in a pass over a share
    rcases h.asked (Share.asks_reconcile r region now) y hy with hread | hcreate | hupdate
    · rw [hdelete] at hread
      cases hread
    · rw [hdelete] at hcreate
      cases hcreate
    · rw [hdelete] at hupdate
      cases hupdate

end Deletion

/-! ## Passes over twins -/

/-- Of two passes, made over one object and over another against the same service, nobody can tell one
from the other by what they do. -/
structure SamePass {k : Kind} {σ : Type} (service : Service σ) (s : σ) (region : Option String)
    (now now' : Instant) (r r' : Resource k) : Prop where
  /-- The same requests are made in the same order. -/
  transcript_eq : transcript service (reconcile k.manager region now' r') s
    = transcript service (reconcile k.manager region now r) s
  state_eq : (run service (reconcile k.manager region now' r') s).2
    = (run service (reconcile k.manager region now r) s).2
  /-- The passes fail alike, or their outcomes agree. -/
  sameEnd : SameEnd Reconciled.Agrees (run service (reconcile k.manager region now r) s).1
    (run service (reconcile k.manager region now' r') s).1
  /-- A rotation deletes the version that was told of in the pass, and not one that is stored. -/
  deletesTold : ∀ y ∈ transcript service (reconcile k.manager region now r) s, ∀ arn n,
    y.1 = .deletePermissionVersion arn n →
      DeletesTold r (transcript service (reconcile k.manager region now r) s) arn n

/-- **The status does not steer a pass.** Objects that agree on metadata, specification, ARN and, if they
are shares, on the remembered sources, get the same pass, whatever else their statuses say and whatever
the service answers. -/
theorem samePass_of_twin {k : Kind} {r r' : Resource k} (h : r.Twin r') {σ : Type}
    (service : Service σ) (s : σ) (region : Option String) (now now' : Instant) :
    SamePass service s region now now' r r' := by
  have hparallel := parallel_reconcile h region now now'
  constructor
  · exact hparallel.transcript_eq service s
  · exact hparallel.state_eq service s
  · exact hparallel.sameEnd service s
  · intro y hy arn n hdelete
    have hdialogue : Dialogue service (reconcile k.manager region now r) s
        (transcript service (reconcile k.manager region now r) s)
        (run service (reconcile k.manager region now r) s).1
        (run service (reconcile k.manager region now r) s).2 := ⟨rfl, rfl⟩
    exact ShareKeeper.deletesTold hdialogue hy hdelete

/-- The permission with tags still to be given, of which the status says that version 7 is the default
and that it was looked at before. -/
def Permission.stale : Permission :=
  let kept := labelled.statusD
  { labelled with
    status := some { kept with
      conditions := kept.conditions.setSynced .epoch true none
      identity := some ⟨some (Account.permissionArn "reader"), some "444455556666", some "eu-west-1"⟩
      state := some "UNATTACHABLE"
      facts := ⟨some true, none, none, some "7"⟩ } }

/-- A permission that is in its third version, with another policy than is asked for. -/
def Permission.thirdVersion : Account :=
  let p := Account.newPermission ⟨"reader", "ec2:Subnet", "\x7b\x7d", []⟩
  Account.empty.putPermission { p with detail := { p.detail with version := some "3" } }

/-- The stale version is not deleted, but the third one, as the service has it. -/
theorem Permission.samePass_stale :
    labelled.Twin stale ∧
      SamePass Account.serve thirdVersion none .epoch .epoch labelled stale ∧
      .deletePermissionVersion (Account.permissionArn "reader") 3 ∈
        requests Account.serve (reconcile (Kind.manager .permission) none .epoch stale)
          thirdVersion := by
  have htwin : labelled.Twin stale := ⟨rfl, rfl, rfl, rfl⟩
  exact ⟨htwin, samePass_of_twin htwin Account.serve thirdVersion none .epoch .epoch,
    by decide +kernel⟩

end ShareKeeper
