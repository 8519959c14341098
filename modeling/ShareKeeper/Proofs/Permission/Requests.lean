import ShareKeeper.Proofs.Dialogue
import ShareKeeper.Proofs.Reconcile
import ShareKeeper.Proofs.SyncPlan

/-!
# What the manager of permissions asks for

For all answers at once: it looks before it changes anything, it creates a permission by one request,
it changes one without creating or deleting any, and a refusal ends whatever it does. This is so in a
rotation, too, which returns its failure instead of failing.
-/

namespace ShareKeeper

open Pass

/-! ## Rotations -/

namespace Rotation

/-- What a rotation may ask for: a new version, the deletion of the one it was given as the previous one,
and another default. -/
inductive Step (arn : String) (previous : Option String) (policy : String) : Request → Prop
  | create : Step arn previous policy (.createPermissionVersion arn policy)
  | delete {n : Int} (h : previous.map parseVersion = some (.ok n)) :
      Step arn previous policy (.deletePermissionVersion arn n)
  | promote (n : Int) : Step arn previous policy (.setDefaultPermissionVersion arn n)

theorem asks_run (arn : String) (previous : Option String) (policy : String) :
    (run arn previous policy).Asks (Step arn previous policy) := by
  cases previous with
  | none => trivial
  | some version =>
    rw [run]
    split
    · trivial
    · next n hparsed =>
      refine ⟨.create, fun created => ?_⟩
      cases created with
      | error e => trivial
      | ok d =>
        refine ⟨.delete (congrArg some hparsed), fun deleted => ?_⟩
        cases deleted with
        | error e => trivial
        | ok u =>
          show (promote arn (d.version.getD "") d).Asks _
          rw [promote]
          split
          · trivial
          · refine ⟨.promote _, fun set => ?_⟩
            cases set <;> trivial

/-- A rotation changes a permission, and no tags of it. -/
theorem Step.isChange {arn : String} {previous : Option String} {policy : String} {q : Request}
    (h : Step arn previous policy q) :
    q.operation.isChange = true ∧ q.operation.isTagging = false := by
  cases h <;> exact ⟨rfl, rfl⟩

/-- A rotation that is gone on with by its result stops at a refusal. -/
theorem stopsOn_run {β : Type} {bad : ApiError → Prop} {f : PermissionDetail → Pass β}
    (hf : ∀ d, (f d).StopsOn bad) (arn : String) (previous : Option String) (policy : String) :
    (run arn previous policy >>= fun rotation => Pass.lift rotation.result >>= f).StopsOn bad := by
  have hresult : ∀ rotation : Rotation, (Pass.lift rotation.result >>= f).StopsOn bad :=
    fun rotation => (stopsOn_lift _).bind hf
  cases previous with
  | none => exact hresult _
  | some version =>
    rw [run]
    split
    · exact hresult _
    · refine ⟨fun e _ => rfl, fun created => ?_⟩
      cases created with
      | error e => exact hresult _
      | ok d =>
        refine ⟨fun e _ => rfl, fun deleted => ?_⟩
        cases deleted with
        | error e => exact hresult _
        | ok u =>
          show (promote arn (d.version.getD "") d >>= fun rotation =>
            Pass.lift rotation.result >>= f).StopsOn bad
          rw [promote]
          split
          · exact hresult _
          · refine ⟨fun e _ => rfl, fun set => ?_⟩
            cases set <;> exact hresult _

/-- What a rotation tells of is the version that was created. -/
theorem yields_run {fair : Exchange → Prop} {P : Option String → Prop} (arn : String)
    (previous : Option String) (policy : String)
    (h : ∀ d, fair ⟨.createPermissionVersion arn policy, .ok d⟩ → P d.arn) :
    (run arn previous policy).Yields fair fun rotation => ∀ d, rotation.result = .ok d → P d.arn := by
  cases previous with
  | none => exact fun d hd => by cases hd
  | some version =>
    rw [run]
    split
    · exact fun d hd => by cases hd
    · intro created hfair
      cases created with
      | error e => exact fun d hd => by cases hd
      | ok d =>
        intro deleted _
        cases deleted with
        | error e => exact fun d hd => by cases hd
        | ok u =>
          show (promote arn (d.version.getD "") d).Yields _ _
          rw [promote]
          split
          · exact fun d hd => by cases hd
          · intro set _
            cases set with
            | error e => exact fun d hd => by cases hd
            | ok u =>
              intro d' hd'
              cases hd'
              exact h d hfair

end Rotation

namespace Permission

section Requests

variable (r latest : Permission) (d : Delta)

/-- A look asks for nothing but the permission with the recorded ARN. -/
theorem asks_readOne_of {allowed : Request → Prop}
    (h : ∀ arn, r.arn = some arn → allowed (.getPermission arn none)) :
    (readOne r).Asks allowed :=
  Asks.lift_bind fun arn harn => Asks.bind (asks_recorded (h arn (arn_of_requireArn harn))) fun _ => trivial

/-- An update asks for nothing but the plan of its tags and its rotation do. -/
theorem asks_update_of {allowed : Request → Prop}
    (htags : ∀ arn, latest.arn = some arn →
      ∀ q ∈ (SyncPlan.tags (.resource arn) r.spec.tags latest.spec.tags).requests, allowed q)
    (hrotation : ∀ arn, latest.arn = some arn → ∀ q,
      Rotation.Step arn (latest.status.bind fun s => s.facts.version) r.spec.policyTemplate q →
        allowed q) :
    (update r latest d).Asks allowed := by
  refine (asks_lift _).bind fun _ => Asks.lift_bind fun arn hrequired => ?_
  have harn := arn_of_requireArn hrequired
  refine Asks.bind ?_ fun _ => ?_
  · rw [syncTags]
    split
    · exact SyncPlan.asks_perform (htags arn harn)
    · trivial
  · rw [rotatePolicy]
    split
    · exact ((Rotation.asks_run _ _ _).mono (hrotation arn harn)).bind
        fun _ => (asks_lift _).bind fun _ => trivial
    · trivial

theorem asks_readOne : (readOne r).Asks fun q => q.operation.isRead = true :=
  asks_readOne_of r fun _ _ => rfl

theorem asks_update : (update r latest d).Asks fun q => q.operation.isChange = true :=
  asks_update_of r latest d
    (fun _ _ _ hq => Operation.isChange_of_update (SyncPlan.isUpdate_of_mem_tags hq))
    fun _ _ _ h => h.isChange.1

end Requests

/-! ## Refusals -/

section Refusals

variable {bad : ApiError → Prop} (r latest : Permission) (d : Delta)

theorem stopsOn_readOne : (readOne r).StopsOn bad :=
  (stopsOn_lift _).bind fun _ => (stopsOn_recorded _).bind fun _ => trivial

theorem stopsOn_update : (update r latest d).StopsOn bad := by
  refine (stopsOn_lift _).bind fun _ => (stopsOn_lift _).bind fun arn => StopsOn.bind ?_ fun _ => ?_
  · rw [syncTags]
    split
    · exact SyncPlan.stopsOn_perform
    · trivial
  · rw [rotatePolicy]
    split
    · exact Rotation.stopsOn_run (f := fun created => pure (observe _ created)) (fun _ => trivial)
        _ _ _
    · trivial

end Refusals

/-! ## Failures -/

/-- Without an ARN there is nothing to look at; every other failure of a look is a refusal. -/
theorem raises_readOne (r : Permission) :
    (readOne r).Raises fun e => e = .notFound ∧ r.arn = none :=
  (raises_lift fun _ he => of_requireArn_error he).bind fun _ => (raises_recorded _).bind fun _ => trivial

/-! ## ARNs -/

/-- The ARN that is told wins over the recorded one. -/
theorem arn_observe (r : Permission) (d : PermissionDetail) :
    (observe r d).arn = d.arn.or r.arn := by
  rw [arn_eq_statusD r]
  cases hd : d.arn <;> simp [observe, Resource.arn, hd]

section Arns

variable {fair : Exchange → Prop} {P : Option String → Prop} (r latest : Permission) (d : Delta)

/-- The ARN after a look is the recorded one, unless the answer tells another. -/
theorem yields_readOne_of (h : ∀ arn d, r.arn = some arn →
    fair ⟨.getPermission arn none, .ok d⟩ → P (d.arn.or (some arn))) :
    (readOne r).Yields fair fun latest => P latest.arn :=
  Yields.bind (yields_lift (P := fun arn => r.arn = some arn) fun _ h => arn_of_requireArn h)
    fun arn harn => Yields.bind (yields_recorded fun d hd => h arn d harn hd) fun d hd => by
      show P (observe r d).arn
      rw [arn_observe, harn]
      exact hd

/-- The ARN after an update is the one that was looked at, unless the new version has another. -/
theorem yields_update_of (hkept : P latest.arn) (h : ∀ arn d, latest.arn = some arn →
    fair ⟨.createPermissionVersion arn r.spec.policyTemplate, .ok d⟩ → P (d.arn.or (some arn))) :
    (update r latest d).Yields fair fun x => P x.arn := by
  refine Yields.bind_any _ fun _ => Yields.bind
    (yields_lift (P := fun arn => latest.arn = some arn) fun arn h => arn_of_requireArn h)
    fun arn harn => Yields.bind_any _ fun _ => ?_
  rw [rotatePolicy]
  split
  · refine Yields.bind (Rotation.yields_run (P := fun told => P (told.or (some arn))) _ _ _
      fun d hd => h arn d harn hd) fun rotation hrotation =>
      Yields.bind (yields_lift hrotation) fun created hcreated => ?_
    have hsame : ({ r with status := latest.status } : Permission).arn = some arn := harn
    show P (observe _ created).arn
    rw [arn_observe, hsame]
    exact hcreated
  · exact hkept

/-- An honest answer leaves the ARN alone. -/
theorem yields_readOne : (readOne r).Yields Exchange.Honest fun latest => latest.arn = r.arn :=
  yields_readOne_of (P := fun x => x = r.arn) r fun _ _ harn hd => (Exchange.or_eq_of_honest hd).trans harn.symm

theorem yields_update :
    (update r latest d).Yields Exchange.Honest fun x => x.arn = latest.arn :=
  yields_update_of (P := fun x => x = latest.arn) r latest d rfl fun _ _ harn hd =>
    (Exchange.or_eq_of_honest hd).trans harn.symm

end Arns

end Permission

end ShareKeeper
