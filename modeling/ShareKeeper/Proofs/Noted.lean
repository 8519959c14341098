import ShareKeeper.Proofs.Metrics
import ShareKeeper.Proofs.SyncPlan
import ShareKeeper.Reconcile

/-!
# Every call is noted

Which calls a session counts is up to the passes, which note each call by hand. Here this is followed
through every piece of work that a manager can do: wherever something is asked for, it is noted at once,
under the names of the operation that was asked for, and nowhere else is anything noted (`Pass.Noted`).
That holds of calls that are refused as well, of the requests of a plan up to the one that ends it, and of
each step of a rotation.
-/

namespace ShareKeeper

open Pass

/-! ## Plans -/

namespace SyncPlan

theorem noted_perform {p : SyncPlan} (hremoved : ∀ q ∈ p.removals, p.removedAs = q.operation.callLabel)
    (hadded : ∀ q ∈ p.additions, p.addedAs = q.operation.callLabel) : p.perform.Noted :=
  (noted_askAll hremoved).bind fun _ => noted_askAll hadded

theorem noted_tags (target : TagTarget) (desired observed : List Tag) :
    (SyncPlan.tags target desired observed).perform.Noted :=
  noted_perform (fun _ hq => mem_when hq ▸ rfl) fun _ hq => mem_when hq ▸ rfl

theorem noted_associations (arn : String) (desired observed : ShareSpec) :
    (SyncPlan.associations arn desired observed).perform.Noted :=
  noted_perform (fun _ hq => mem_when hq ▸ rfl) fun _ hq => mem_when hq ▸ rfl

theorem noted_permissions (arn : String) (desired observed : List String) :
    (SyncPlan.permissions arn desired observed).perform.Noted := by
  refine noted_perform (fun q hq => ?_) fun q hq => ?_
  · obtain ⟨name, -, rfl⟩ := List.mem_map.1 hq
    rfl
  · obtain ⟨name, -, rfl⟩ := List.mem_map.1 hq
    rfl

end SyncPlan

/-! ## Rotations -/

namespace Rotation

theorem noted_promote (arn version : String) (created : PermissionDetail) :
    (promote arn version created).Noted := by
  rw [promote]
  split
  · exact .done _
  · refine (noted_recorded rfl).attempt.bind fun x => ?_
    cases x <;> exact .done _

theorem noted_run (arn : String) (previous : Option String) (policy : String) :
    (run arn previous policy).Noted := by
  cases previous with
  | none => exact .done _
  | some version =>
    rw [run]
    split
    · exact .done _
    · refine (noted_recorded rfl).attempt.bind fun created => ?_
      cases created with
      | error e => exact .done _
      | ok d =>
        refine (noted_recorded rfl).attempt.bind fun deleted => ?_
        cases deleted with
        | error e => exact .done _
        | ok u => exact noted_promote arn _ d

end Rotation

/-! ## Managers -/

/-- Everything that a manager does against the service is noted. -/
structure Manager.Noted {k : Kind} (m : Manager k) : Prop where
  readOne : ∀ r, (m.readOne r).Noted
  create : ∀ r, (m.create r).Noted
  update : ∀ r latest d, (m.update r latest d).Noted
  delete : ∀ r, (m.delete r).Noted

namespace Permission

theorem noted_update (r latest : Permission) (d : Delta) : (update r latest d).Noted := by
  refine (noted_lift _).bind fun _ => (noted_lift _).bind fun arn => Noted.bind ?_ fun _ => ?_
  · rw [syncTags]
    split
    · exact SyncPlan.noted_tags _ _ _
    · exact .done _
  · rw [rotatePolicy]
    split
    · exact (Rotation.noted_run _ _ _).bind fun _ => (noted_lift _).bind fun _ => .done _
    · exact .done _

theorem noted_manager : manager.Noted where
  readOne _ := (noted_lift _).bind fun _ => (noted_recorded rfl).bind fun _ => .done _
  create _ := (noted_recorded rfl).bind fun _ => .done _
  update := noted_update
  delete _ := (noted_lift _).bind fun _ => noted_recorded rfl

end Permission

namespace Share

theorem noted_associated (arn : String) (type : AssociationType) : (associated arn type).Noted :=
  noted_recorded rfl

theorem noted_readPermissions (arn : String) (r : Share) : (readPermissions arn r).Noted := by
  rw [readPermissions]
  split
  · exact .done _
  · exact noted_recorded rfl

theorem noted_readOne (r : Share) : (readOne r).Noted := by
  refine (noted_lift _).bind fun arn => (noted_recorded rfl).bind fun detail => ?_
  split
  · exact .fail _
  · exact (noted_associated arn _).bind fun _ => (noted_associated arn _).bind fun _ =>
      (noted_readPermissions arn r).bind fun _ => .done _

theorem noted_update (r latest : Share) (d : Delta) : (update r latest d).Noted := by
  refine (noted_lift _).bind fun arn => Noted.bind ?_ fun updated => Noted.bind ?_ fun _ =>
    Noted.bind ?_ fun updated => Noted.bind ?_ fun _ => .done _
  · rw [updateSettings]
    split
    · exact (noted_recorded rfl).bind fun _ => .done _
    · exact .done _
  · rw [syncTags]
    split
    · exact SyncPlan.noted_tags _ _ _
    · exact .done _
  · rw [syncAssociations]
    split
    · exact (SyncPlan.noted_associations _ _ _).bind fun _ => .done _
    · exact .done _
  · rw [syncPermissions]
    split
    · exact SyncPlan.noted_permissions _ _ _
    · exact .done _

theorem noted_manager : manager.Noted where
  readOne := noted_readOne
  create _ := (noted_recorded rfl).bind fun _ => .done _
  update := noted_update
  delete _ := (noted_lift _).bind fun _ => noted_recorded rfl

end Share

theorem Kind.noted_manager : (k : Kind) → k.manager.Noted
  | .permission => Permission.noted_manager
  | .share => Share.noted_manager

/-! ## Passes over an object -/

section Passes

variable {k : Kind} {m : Manager k} (hm : m.Noted)
include hm

theorem noted_bringInLine (r latest : Resource k) : (bringInLine m r latest).Noted := by
  rw [bringInLine]
  split
  · exact .done _
  · exact (hm.update _ _ _).bind fun _ => .done _

theorem noted_reconcile (region : Option String) (now : Instant) (r : Resource k) :
    (reconcile m region now r).Noted := by
  refine (noted_lift _).bind fun _ =>
    Noted.bind ((hm.readOne r).attempt.bind fun x => ?_) fun _ => .done _
  cases x with
  | ok latest => exact noted_bringInLine hm r latest
  | error e =>
    dsimp only
    split
    · exact (hm.create r).bind fun _ => .done _
    · exact .fail e

theorem noted_deleteEntity (r : Resource k) : (deleteEntity m r).Noted := by
  -- what is made of a failure asks for nothing
  have hforgiven : ∀ result, (forgiveAbsence result).Noted := by
    intro result
    cases result with
    | ok u => exact .done _
    | error e =>
      rw [forgiveAbsence]
      split
      · exact .done _
      · exact .fail e
  rw [deleteEntity]
  split
  · exact .done _
  · refine (hm.readOne r).attempt.bind fun x => ?_
    cases x with
    | error e => exact hforgiven _
    | ok latest => exact (hm.delete latest).attempt.bind hforgiven

end Passes

end ShareKeeper
