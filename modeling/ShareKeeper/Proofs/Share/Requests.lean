import ShareKeeper.Proofs.Dialogue
import ShareKeeper.Proofs.Reconcile
import ShareKeeper.Proofs.SyncPlan

/-!
# What the manager of shares asks for

For all answers at once: it looks before it changes anything, it creates a share by the one request
that ends the pass, it changes one by updates alone, and a refusal ends whatever it does.
-/

namespace ShareKeeper

namespace Exchange

/-- A share is told of that is only still listed. -/
def ListsDeleted : Exchange → Prop
  | ⟨.getShare _, .ok d⟩ => d.status = some Share.deletedState
  | _ => False

/-- Only an answer to the one request tells of a deleted share. -/
theorem not_listsDeleted {x : Exchange} (h : ∀ arn, x.1 ≠ .getShare arn) : ¬ x.ListsDeleted := by
  obtain ⟨q, answer⟩ := x
  cases q <;> first | exact fun hx => hx | exact absurd rfl (h _)

end Exchange

namespace Share

open Pass

/-- What a look goes on with once the share is there: everything that is listed about it. -/
def readLists (r : Share) (arn : String) (detail : ShareDetail) : Pass Share := do
  let latest := observe r detail
  let principals ← associated arn .principal
  let resourceArns ← associated arn .resource
  let permissionArns ← readPermissions arn r
  return { latest with
    spec := { latest.spec with
      tags := Tags.visible detail.tags
      principals
      resourceArns
      permissionArns
      sources := associatedSources latest } }

theorem readOne_eq (r : Share) :
    readOne r = Pass.lift r.requireArn >>= fun arn =>
      ask (.getShare arn) >>= record ⟨Purpose.readMany.label, "GetResourceShares"⟩ >>= fun detail =>
        if detail.status = some deletedState then Pass.fail .notFound else readLists r arn detail := rfl

section Requests

variable (r latest : Share) (d : Delta)

theorem asks_readPermissions (arn : String) :
    (readPermissions arn r).Asks fun q => q = .listPermissions arn := by
  rw [readPermissions]
  split
  · trivial
  · exact asks_recorded rfl

theorem asks_readLists (arn : String) (detail : ShareDetail) :
    (readLists r arn detail).Asks fun q =>
      q = .listPermissions arn ∨ ∃ type, q = .listAssociations arn type :=
  Asks.bind (asks_recorded (.inr ⟨_, rfl⟩)) fun _ => Asks.bind (asks_recorded (.inr ⟨_, rfl⟩)) fun _ =>
    ((asks_readPermissions r arn).mono fun _ => .inl).bind fun _ => trivial

/-- A look asks for the share with the recorded ARN and for what is listed about it. -/
theorem asks_readOne_of {allowed : Request → Prop}
    (h : ∀ arn, r.arn = some arn → allowed (.getShare arn) ∧ allowed (.listPermissions arn) ∧
      ∀ type, allowed (.listAssociations arn type)) : (readOne r).Asks allowed := by
  rw [readOne_eq]
  refine Asks.lift_bind fun arn hrequired => ?_
  obtain ⟨hshare, hpermissions, hassociations⟩ := h arn (arn_of_requireArn hrequired)
  refine Asks.bind (asks_recorded hshare) fun detail => ?_
  split
  · trivial
  · refine (asks_readLists r arn detail).mono ?_
    rintro q (rfl | ⟨type, rfl⟩)
    · exact hpermissions
    · exact hassociations type

/-- An update asks for other settings, and for nothing else but its plans do. -/
theorem asks_update_of {allowed : Request → Prop}
    (hsettings : ∀ arn, latest.arn = some arn →
      allowed (.updateShare arn (some r.spec.name) r.spec.allowExternalPrincipals))
    (htags : ∀ arn, latest.arn = some arn →
      ∀ q ∈ (SyncPlan.tags (.share arn) r.spec.tags latest.spec.tags).requests, allowed q)
    (hassociations : ∀ arn, latest.arn = some arn →
      ∀ q ∈ (SyncPlan.associations arn r.spec latest.spec).requests, allowed q)
    (hpermissions : ∀ arn, latest.arn = some arn →
      ∀ q ∈ (SyncPlan.permissions arn r.spec.permissionArns latest.spec.permissionArns).requests,
        allowed q) :
    (update r latest d).Asks allowed := by
  refine Asks.lift_bind fun arn hrequired => ?_
  have harn := arn_of_requireArn hrequired
  refine Asks.bind ?_ fun updated => Asks.bind ?_ fun _ => Asks.bind ?_ fun updated =>
    Asks.bind ?_ fun _ => trivial
  · rw [updateSettings]
    split
    · exact Asks.bind (asks_recorded (hsettings arn harn)) fun _ => trivial
    · trivial
  · rw [syncTags]
    split
    · exact SyncPlan.asks_perform (htags arn harn)
    · trivial
  · rw [syncAssociations]
    split
    · exact Asks.bind (SyncPlan.asks_perform (hassociations arn harn)) fun _ => trivial
    · trivial
  · rw [syncPermissions]
    split
    · exact SyncPlan.asks_perform (hpermissions arn harn)
    · trivial

theorem asks_readOne : (readOne r).Asks fun q => q.operation.isRead = true :=
  asks_readOne_of r fun _ _ => ⟨rfl, rfl, fun _ => rfl⟩

theorem asks_create : (create r).Asks fun q => q = .createShare r.input :=
  Asks.bind (asks_recorded (by rfl)) fun _ => trivial

theorem asks_update : (update r latest d).Asks fun q => q.operation.purpose = .update :=
  asks_update_of r latest d (fun _ _ => rfl) (fun _ _ _ => SyncPlan.isUpdate_of_mem_tags)
    (fun _ _ _ => SyncPlan.isUpdate_of_mem_associations)
    fun _ _ _ => SyncPlan.isUpdate_of_mem_permissions

end Requests

/-! ## Refusals -/

section Refusals

variable {bad : ApiError → Prop} (r latest : Share) (d : Delta)

theorem stopsOn_readPermissions (arn : String) : (readPermissions arn r).StopsOn bad := by
  rw [readPermissions]
  split
  · trivial
  · exact stopsOn_recorded _

theorem stopsOn_readOne : (readOne r).StopsOn bad := by
  rw [readOne_eq]
  refine (stopsOn_lift _).bind fun arn => (stopsOn_recorded _).bind fun detail => ?_
  split
  · trivial
  · exact (stopsOn_recorded _).bind fun _ => (stopsOn_recorded _).bind fun _ =>
      (stopsOn_readPermissions r arn).bind fun _ => trivial

theorem stopsOn_create : (create r).StopsOn bad := (stopsOn_recorded _).bind fun _ => trivial

theorem stopsOn_update : (update r latest d).StopsOn bad := by
  refine (stopsOn_lift _).bind fun arn => StopsOn.bind ?_ fun updated => StopsOn.bind ?_ fun _ =>
    StopsOn.bind ?_ fun updated => StopsOn.bind ?_ fun _ => trivial
  · rw [updateSettings]
    split
    · exact (stopsOn_recorded _).bind fun _ => trivial
    · trivial
  · rw [syncTags]
    split
    · exact SyncPlan.stopsOn_perform
    · trivial
  · rw [syncAssociations]
    split
    · exact SyncPlan.stopsOn_perform.bind fun _ => trivial
    · trivial
  · rw [syncPermissions]
    split
    · exact SyncPlan.stopsOn_perform
    · trivial

end Refusals

/-! ## Failures -/

section Failures

variable (r latest : Share) (d : Delta)

/-- Nothing but a refusal can go wrong with the lists. -/
theorem raises_readLists (arn : String) (detail : ShareDetail) :
    (readLists r arn detail).Raises fun _ => False := by
  refine (raises_recorded _).bind fun _ => (raises_recorded _).bind fun _ => Raises.bind ?_ fun _ => trivial
  rw [readPermissions]
  split
  · trivial
  · exact raises_recorded _

/-- A failure of a look without a refusal says that there is nothing to look at. -/
theorem raises_readOne : (readOne r).Raises fun e => e = .notFound := by
  rw [readOne_eq]
  refine (raises_lift fun e he => (of_requireArn_error he).1).bind fun arn =>
    (raises_recorded _).bind fun detail => ?_
  split
  · exact rfl
  · exact (raises_readLists r arn detail).mono fun e he => he.elim

theorem raises_update : (update r latest d).Raises fun e => e = .notFound := by
  refine (raises_lift fun e he => (of_requireArn_error he).1).bind fun arn =>
    Raises.bind ?_ fun updated => Raises.bind ?_ fun _ => Raises.bind ?_ fun updated =>
    Raises.bind ?_ fun _ => trivial
  · rw [updateSettings]
    split
    · exact (raises_recorded _).bind fun _ => trivial
    · trivial
  · rw [syncTags]
    split
    · exact SyncPlan.raises_perform
    · trivial
  · rw [syncAssociations]
    split
    · exact SyncPlan.raises_perform.bind fun _ => trivial
    · trivial
  · rw [syncPermissions]
    split
    · exact SyncPlan.raises_perform
    · trivial

/-- **When a share counts as absent without a refusal:** no ARN is recorded, or the share is only
still listed. -/
theorem readOne_eq_notFound_iff {σ : Type} {service : Service σ} {s s' : σ} {heard : List Exchange}
    {out : Except Failure Share} (h : Dialogue service (readOne r) s heard out s') :
    out = .error .notFound ↔ r.arn = none ∨ ∃ x ∈ heard, x.ListsDeleted := by
  rw [readOne_eq] at h
  obtain ⟨e, hlift, rfl⟩ | ⟨arn, s₁, l, look, hlift, hlook, rfl⟩ := h.bind_cases
  · obtain ⟨rfl, he, -⟩ := hlift.lift_inv
    obtain ⟨rfl, harn⟩ := of_requireArn_error he.symm
    exact iff_of_true rfl (.inl harn)
  · obtain ⟨rfl, harn, rfl⟩ := hlift.lift_inv
    have hsome : r.arn ≠ none := by simp [arn_of_requireArn harn.symm]
    obtain ⟨e, -, rfl, rfl⟩ | ⟨detail, s₁, rest, -, hrest, rfl⟩ := hlook.recorded_bind_cases
    · exact iff_of_false (fun h => by cases h) (by simp [hsome, Exchange.ListsDeleted])
    · split at hrest
      · next hdeleted =>
        obtain ⟨rfl, rfl, -⟩ := hrest.fail_inv
        exact iff_of_true rfl (.inr ⟨_, List.mem_cons_self, hdeleted⟩)
      · next hlive =>
        refine iff_of_false (fun hout => ?_) ?_
        · subst hout
          rcases (raises_readLists r arn detail).dialogue_cases hrest with hnone | ⟨x, -, a, -, ha⟩
          · exact hnone
          · cases ha
        · rintro (harn | ⟨x, hx, hdeleted⟩)
          · exact hsome harn
          · rcases List.mem_cons.1 hx with rfl | hx
            · exact hlive hdeleted
            · refine Exchange.not_listsDeleted (fun arn' hx' => ?_) hdeleted
              rcases hrest.asked (asks_readLists r arn detail) x hx with hq | ⟨type, hq⟩ <;>
                cases hx'.symm.trans hq

end Failures

/-! ## ARNs -/

section Arns

/-- The ARN that is told wins over the recorded one. -/
theorem arn_observe (r : Share) (d : ShareDetail) : (observe r d).arn = d.arn.or r.arn := by
  rw [arn_eq_statusD r]
  cases hd : d.arn <;> simp [observe, Resource.arn, hd]

theorem arn_withSources (r : Share) (sources : List String) :
    (withSources r sources).arn = r.arn := by
  rw [arn_eq_statusD r]
  rfl

variable {fair : Exchange → Prop} {P : Option String → Prop} (r latest : Share) (d : Delta)

/-- The ARN after a look is the recorded one, unless the answer tells another. -/
theorem yields_readOne_of (h : ∀ arn d, r.arn = some arn →
    fair ⟨.getShare arn, .ok d⟩ → P (d.arn.or (some arn))) :
    (readOne r).Yields fair fun latest => P latest.arn := by
  rw [readOne_eq]
  refine Yields.bind (yields_lift (P := fun arn => r.arn = some arn) fun arn h =>
    arn_of_requireArn h) fun arn harn => Yields.bind (yields_recorded fun d hd => h arn d harn hd)
      fun d hd => ?_
  split
  · trivial
  · refine Yields.bind_any _ fun _ => Yields.bind_any _ fun _ => Yields.bind_any _ fun _ => ?_
    show P (observe r d).arn
    rw [arn_observe, harn]
    exact hd

/-- The ARN after an update is the one that was looked at, unless the answer to the update of the
settings tells another. -/
theorem yields_update_of (hkept : P latest.arn) (h : ∀ arn d, latest.arn = some arn →
    fair ⟨.updateShare arn (some r.spec.name) r.spec.allowExternalPrincipals, .ok d⟩ →
      P (d.arn.or (some arn))) :
    (update r latest d).Yields fair fun x => P x.arn := by
  refine Yields.bind (yields_lift (P := fun arn => latest.arn = some arn) fun arn h =>
    arn_of_requireArn h) fun arn harn => ?_
  have hsame : ({ r with status := latest.status } : Share).arn = some arn := harn
  refine Yields.bind (P := fun x : Share => P x.arn) ?_ fun x hx =>
    Yields.bind_any _ fun _ => Yields.bind (P := fun x : Share => P x.arn) ?_
      fun y hy => Yields.bind_any _ fun _ => ?_
  · rw [updateSettings]
    split
    · refine Yields.bind (yields_recorded fun d hd => h arn d harn hd) fun d hd => ?_
      show P (observe _ d).arn
      rw [arn_observe, hsame]
      exact hd
    · exact hkept
  · rw [syncAssociations]
    split
    · refine Yields.bind_any _ fun _ => ?_
      show P (withSources x _).arn
      rw [arn_withSources]
      exact hx
    · exact hx
  · exact hy

/-- An honest answer leaves the ARN alone. -/
theorem yields_readOne : (readOne r).Yields Exchange.Honest fun latest => latest.arn = r.arn :=
  yields_readOne_of (P := fun x => x = r.arn) r fun _ _ harn hd => (Exchange.or_eq_of_honest hd).trans harn.symm

theorem yields_update :
    (update r latest d).Yields Exchange.Honest fun x => x.arn = latest.arn :=
  yields_update_of (P := fun x => x = latest.arn) r latest d rfl fun _ _ harn hd =>
    (Exchange.or_eq_of_honest hd).trans harn.symm

end Arns

/-! ## Passes -/

section Whole

variable (r : Share) (region : Option String) (now : Instant)

/-- A pass looks, creates a share or updates one. In particular it deletes none. -/
theorem asks_reconcile : (reconcile manager region now r).Asks fun q =>
    q.operation.isRead = true ∨ q = .createShare r.input ∨ q.operation.purpose = .update :=
  ShareKeeper.asks_reconcile (m := manager) region now ((asks_readOne r).mono fun _ => .inl)
    ((asks_create r).mono fun _ h => .inr (.inl h))
    fun latest d => (asks_update r latest d).mono fun _ h => .inr (.inr h)

/-- **A refusal for another reason than absence fails the pass.** -/
theorem stopsOn_reconcile : (reconcile manager region now r).StopsOn ApiError.IsTrouble :=
  ShareKeeper.stopsOn_reconcile (m := manager) region now (stopsOn_readOne r) (stopsOn_create r)
    (stopsOn_update r)

/-- **The creation of a share is the last that is asked for.** -/
theorem completedBy_reconcile :
    (reconcile manager region now r).CompletedBy fun q => q = .createShare r.input :=
  ShareKeeper.completedBy_reconcile (m := manager) region now
    ((asks_readOne r).mono fun q h hq => by cases hq; cases h)
    ((completedBy_recorded _).bind_done fun _ => ⟨_, rfl⟩)
    fun latest d => (asks_update r latest d).mono fun q h hq => by cases hq; cases h

end Whole

end Share

end ShareKeeper
