import ShareKeeper.Proofs.Permission.Course
import ShareKeeper.Proofs.Share.Course
import ShareKeeper.Proofs.Walk

/-!
# What a pass hands on of a status

A pass builds a new status out of what the service tells, and not all of the old one is told again:
the conditions, and what is known of the entity. These go on through every look, creation and update
(`Status.Continues`), whatever the answers are, so that they are still there when the pass is
concluded (`continues_of_ok`).
-/

namespace ShareKeeper

open Pass

/-! ## Statuses that go on -/

/-- A status that goes on from another one: the conditions are the same, and what was known of the
entity is known still. Its ARN alone may have become another one. -/
structure Status.Continues {F : Type} (s t : Status F) : Prop where
  conditions : t.conditions = s.conditions
  arn : (s.identity.bind Identity.arn).isSome = true → (t.identity.bind Identity.arn).isSome = true
  owner : ∀ x, s.identity.bind Identity.ownerAccountId = some x →
    t.identity.bind Identity.ownerAccountId = some x
  region : ∀ x, s.identity.bind Identity.region = some x → t.identity.bind Identity.region = some x

namespace Status.Continues

variable {F : Type} {s t u : Status F}

theorem refl (s : Status F) : s.Continues s := ⟨rfl, id, fun _ h => h, fun _ h => h⟩

theorem trans (h : s.Continues t) (h' : t.Continues u) : s.Continues u where
  conditions := h'.conditions.trans h.conditions
  arn := fun harn => h'.arn (h.arn harn)
  owner := fun x hx => h'.owner x (h.owner x hx)
  region := fun x hx => h'.region x (h.region x hx)

/-- Nothing else of the status plays a part. -/
theorem of_eq (hconditions : t.conditions = s.conditions) (hidentity : t.identity = s.identity) :
    s.Continues t := by
  refine ⟨hconditions, fun h => ?_, fun x hx => ?_, fun x hx => ?_⟩
  · rwa [hidentity]
  · rwa [hidentity]
  · rwa [hidentity]

/-- What is told of the entity is put over what was known of it. -/
theorem of_identity {i j : Identity} (hconditions : t.conditions = s.conditions)
    (hs : s.identity.getD .empty = i) (ht : t.identity = some j) (harn : j.arn.isSome = true)
    (howner : ∀ x, i.ownerAccountId = some x → j.ownerAccountId = some x)
    (hregion : j.region = i.region) : s.Continues t := by
  have hknown : ∀ {f : Identity → Option String} {x : String}, s.identity.bind f = some x →
      f i = some x := by
    intro f x hx
    obtain ⟨i', hi', hx⟩ := Option.bind_eq_some_iff.1 hx
    rw [hi', Option.getD_some] at hs
    rwa [← hs]
  refine ⟨hconditions, fun _ => ?_, fun x hx => ?_, fun x hx => ?_⟩
  · rw [ht]
    exact harn
  · rw [ht]
    exact howner x (hknown hx)
  · rw [ht]
    exact hregion.trans (hknown hx)

end Status.Continues

/-! ## Observations -/

namespace Permission

/-- An observation goes on from the status of the object. -/
theorem continues_observe (r : Permission) (d : PermissionDetail) :
    r.statusD.Continues (observe r d).statusD := by
  cases harn : d.arn with
  | none => exact .of_eq rfl (by simp [observe, Resource.statusD, harn])
  | some arn =>
    refine .of_identity (j := { r.statusD.identity.getD .empty with arn := some arn }) rfl rfl ?_ rfl
      (fun _ h => h) rfl
    simp [observe, Resource.statusD, harn]

variable {fair : Exchange → Prop}

theorem continues_readOne (r : Permission) :
    (readOne r).Yields fair fun latest => r.statusD.Continues latest.statusD :=
  Yields.bind_any _ fun _ => Yields.bind_any _ fun d => continues_observe r d

theorem continues_create (r : Permission) :
    (create r).Yields fair fun x => r.statusD.Continues x.statusD :=
  Yields.bind_any _ fun d => continues_observe r d

theorem continues_update (r latest : Permission) (d : Delta) :
    (update r latest d).Yields fair fun x => latest.statusD.Continues x.statusD := by
  refine Yields.bind_any _ fun _ => Yields.bind_any _ fun arn => Yields.bind_any _ fun _ => ?_
  rw [rotatePolicy]
  split
  · -- the new version is observed over the status that was seen
    exact Yields.bind_any _ fun _ => Yields.bind_any _ fun created =>
      continues_observe { r with status := latest.status } created
  · exact .refl latest.statusD

end Permission

namespace Share

/-- An observation goes on from the status of the object. -/
theorem continues_observe (r : Share) (d : ShareDetail) :
    r.statusD.Continues (observe r d).statusD := by
  cases harn : d.arn with
  | none => exact .of_eq rfl (by simp [observe, Resource.statusD, harn])
  | some arn =>
    refine .of_identity (j := { r.statusD.identity.getD .empty with
      arn := some arn
      ownerAccountId := (r.statusD.identity.getD .empty).ownerAccountId.or d.owningAccountId })
      rfl rfl ?_ rfl (fun x hx => ?_) rfl
    · simp [observe, Resource.statusD, harn]
    · rw [hx, Option.some_or]

theorem continues_withSources (r : Share) (sources : List String) :
    r.statusD.Continues (withSources r sources).statusD := .of_eq rfl rfl

variable {fair : Exchange → Prop}

theorem continues_readOne (r : Share) :
    (readOne r).Yields fair fun latest => r.statusD.Continues latest.statusD := by
  rw [readOne_eq]
  refine Yields.bind_any _ fun _ => Yields.bind_any _ fun d => ?_
  split
  · trivial
  · exact Yields.bind_any _ fun _ => Yields.bind_any _ fun _ => Yields.bind_any _ fun _ =>
      continues_observe r d

theorem continues_create (r : Share) :
    (create r).Yields fair fun x => r.statusD.Continues x.statusD :=
  Yields.bind_any _ fun d => (continues_observe r d).trans (continues_withSources _ _)

theorem continues_update (r latest : Share) (d : Delta) :
    (update r latest d).Yields fair fun x => latest.statusD.Continues x.statusD := by
  refine Yields.bind_any _ fun arn => Yields.bind
    (P := fun x : Share => latest.statusD.Continues x.statusD) ?_ fun x hx =>
    Yields.bind_any _ fun _ => Yields.bind
      (P := fun y : Share => latest.statusD.Continues y.statusD) ?_ fun y hy =>
      Yields.bind_any _ fun _ => hy
  · rw [updateSettings]
    split
    · exact Yields.bind_any _ fun d => continues_observe { r with status := latest.status } d
    · exact .refl latest.statusD
  · rw [syncAssociations]
    split
    · exact Yields.bind_any _ fun _ => hx.trans (continues_withSources x _)
    · exact hx

end Share

/-! ## Passes -/

section Passes

variable {k : Kind} {r latest x : Resource k} {σ : Type} {service : Service σ} {s s' : σ}
  {heard : List Exchange} {region : Option String} {now : Instant}

theorem continues_of_look (h : Dialogue service (k.manager.readOne r) s heard (.ok latest) s') :
    r.statusD.Continues latest.statusD := by
  cases k with
  | permission => exact (Permission.continues_readOne r).of_ok h
  | share => exact (Share.continues_readOne r).of_ok h

theorem continues_of_creation (h : Dialogue service (k.manager.create r) s heard (.ok x) s') :
    r.statusD.Continues x.statusD := by
  cases k with
  | permission => exact (Permission.continues_create r).of_ok h
  | share => exact (Share.continues_create r).of_ok h

theorem continues_bringInLine (r latest : Resource k) {fair : Exchange → Prop} :
    (bringInLine k.manager r latest).Yields fair
      fun x => latest.statusD.Continues x.1.statusD := by
  rw [bringInLine]
  split
  · exact .refl latest.statusD
  · refine Yields.bind (P := fun x : Resource k => latest.statusD.Continues x.statusD) ?_
      fun _ h => h
    cases k with
    | permission => exact Permission.continues_update r latest _
    | share => exact Share.continues_update r latest _

/-- **A pass that gets through concludes with a status that goes on from the one before.** -/
theorem continues_of_ok {out : Reconciled k}
    (h : Dialogue service (reconcile k.manager region now r) s heard (.ok out) s') :
    ∃ x requeue, out = conclude region now x requeue ∧ r.statusD.Continues x.statusD := by
  have hwalk := walk_of_dialogue h
  generalize hended : Except.ok out = ended at hwalk
  cases hwalk with
  | rejected => cases hended
  | lost => cases hended
  | @created looks said e s₁ s' created hvalid hlook he hcreate =>
    cases created with
    | error e => cases hended
    | ok x =>
      cases hended
      exact ⟨x, false, rfl, continues_of_creation hcreate⟩
  | @found looks said latest s₁ s' found hvalid hlook hline =>
    cases found with
    | error e => cases hended
    | ok x =>
      cases hended
      exact ⟨x.1, x.2, rfl,
        (continues_of_look hlook).trans ((continues_bringInLine r latest).of_ok hline)⟩

end Passes

end ShareKeeper
