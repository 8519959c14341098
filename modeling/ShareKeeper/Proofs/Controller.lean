import ShareKeeper.Controller
import ShareKeeper.Proofs.Pass

/-!
# What a pass of the controller does

A pass of the controller is read here as a whole: which work it does against the service, how that
ends, and which patch it sends to the cluster then (`Effect`). There is one such reading for every
object and every state of the world (`effect_pass`), so nothing else needs to look into the finalizer.
-/

namespace ShareKeeper

open Pass

variable {k : Kind} {σ α : Type} {service : Service σ} {w w' : World σ}

/-! ## The parts of a pass -/

namespace World

/-- Work against the service leaves the cluster and the clock alone. -/
theorem run_eq {p : Pass α} {out : Except Failure α} (h : w.run service p = (out, w')) :
    Pass.run service p w.session.backend = (out, w'.session.backend) ∧ w'.cluster = w.cluster ∧
      w'.passes = w.passes := by
  obtain ⟨hout, hbackend, -⟩ := run_session service p w.session
  cases h
  exact ⟨Prod.ext hout.symm hbackend.symm, rfl, rfl⟩

theorem patchStatus_session (w : World σ) (r : Resource k) :
    (w.patchStatus r).2.session = w.session := rfl

theorem patchStatus_cluster (w : World σ) (r : Resource k) :
    (w.patchStatus r).2.cluster = (w.cluster.patchStatus r.statusPatch).2 := rfl

theorem patchFinalizers_session (w : World σ) (r : Resource k) (name : String) (p : FinalizerPatch) :
    (w.patchFinalizers r name p).2.session = w.session := rfl

theorem patchFinalizers_cluster (w : World σ) (r : Resource k) (name : String) (p : FinalizerPatch) :
    (w.patchFinalizers r name p).2.cluster = (w.cluster.patchFinalizers p).2 := rfl

end World

namespace Controller

/-- Whether the finalizer is on an object. -/
def IsHeld (r : Resource k) : Prop := finalizerName ∈ r.metadata.finalizers.getD []

theorem index_eq_none_iff {r : Resource k} :
    (r.metadata.finalizers.getD []).idxOf? finalizerName = none ↔ ¬ IsHeld r :=
  List.idxOf?_eq_none_iff

theorem IsHeld.exists_index {r : Resource k} (h : IsHeld r) :
    ∃ index, (r.metadata.finalizers.getD []).idxOf? finalizerName = some index :=
  Option.ne_none_iff_exists'.1 fun hnone => index_eq_none_iff.1 hnone h

/-- What a pass over an object does to the service and to the cluster, and how it ends. -/
inductive Effect (c : Controller k) (service : Service σ) (r : Resource k) (s : σ) (b : Cluster) :
    Except Failure Action → σ → Cluster → Prop
  /-- An object that cannot be worked on, or that is going away without the finalizer. -/
  | idle {out : Except Failure Action} (h : ¬ IsHeld r ∨ ∃ e, out = .error e) :
      Effect c service r s b out s b
  /-- A live object gets the finalizer. -/
  | held {out : Except Failure Action} (p : FinalizerPatch) (hheld : ¬ IsHeld r) :
      Effect c service r s b out s (b.patchFinalizers p).2
  /-- A live object is reconciled, and the outcome goes to the status. -/
  | reconciled {out : Except Failure Action} {o : Reconciled k} {s' : σ} (now : Instant)
      (hlive : r.metadata.deletionTimestamp = none)
      (hrun : Pass.run service (reconcile c.manager c.region now r) s = (.ok o, s')) :
      Effect c service r s b out s' (b.patchStatus o.resource.statusPatch).2
  /-- A live object cannot be reconciled, and the failure goes to the status. -/
  | failed {out : Except Failure Action} {e : Failure} {s' : σ} (now : Instant)
      (hlive : r.metadata.deletionTimestamp = none)
      (hrun : Pass.run service (reconcile c.manager c.region now r) s = (.error e, s')) :
      Effect c service r s b out s' (b.patchStatus (recordFailure now r e).statusPatch).2
  /-- The entity cannot be deleted, and the finalizer stays. -/
  | kept {e e' : Failure} {s' : σ}
      (hrun : Pass.run service (deleteEntity c.manager r) s = (.error e, s')) :
      Effect c service r s b (.error e') s' b
  /-- The entity was deleted, and the finalizer is taken off. -/
  | released {out : Except Failure Action} {s' : σ} (p : FinalizerPatch)
      (hrun : Pass.run service (deleteEntity c.manager r) s = (.ok (), s')) :
      Effect c service r s b out s' (b.patchFinalizers p).2

variable {c : Controller k} {r : Resource k} {out : Except Failure Action}

/-- Whether the outcome is stored or not, there is one patch. -/
theorem report_snd (c : Controller k) (o : Reconciled k) (w : World σ) :
    (c.report o w).2 = (w.patchStatus o.resource).2 := by
  rw [report]
  split <;> next h => rw [h]

theorem addFinalizer_snd (r : Resource k) (name : String) (w : World σ) :
    ∃ p, (addFinalizer r name w).2 = (w.patchFinalizers r name p).2 := by
  rw [addFinalizer]
  split <;> next h => exact ⟨_, by rw [h]⟩

theorem removeFinalizer_snd (r : Resource k) (name : String) (index : Nat) (w : World σ) :
    (removeFinalizer r name index w).2
      = (w.patchFinalizers r name (.remove index finalizerName)).2 := by
  rw [removeFinalizer]
  split <;> next h => rw [h]

theorem effect_apply (hlive : r.metadata.deletionTimestamp = none) :
    Effect c service r w.session.backend w.cluster out (c.apply service r w).2.session.backend
      (c.apply service r w).2.cluster := by
  rw [apply]
  split
  · next o w₁ h =>
    obtain ⟨hrun, hcluster, -⟩ := World.run_eq h
    rw [report_snd, World.patchStatus_session, World.patchStatus_cluster, hcluster]
    exact .reconciled _ hlive hrun
  · next e w₁ h =>
    obtain ⟨hrun, hcluster, hpasses⟩ := World.run_eq h
    rw [reportFailure, World.patchStatus_session, World.patchStatus_cluster, hcluster, hpasses]
    exact .failed _ hlive hrun

theorem effect_release {name : String} {index : Nat}
    (h : c.release service r name index w = (out, w')) :
    Effect c service r w.session.backend w.cluster out w'.session.backend w'.cluster := by
  rw [release, cleanup] at h
  cases hwork : w.run service (deleteEntity c.manager r) with
  | mk result w₁ =>
    obtain ⟨hrun, hcluster, -⟩ := World.run_eq hwork
    rw [hwork] at h
    cases result with
    | error e =>
      cases h
      rw [hcluster]
      exact .kept hrun
    | ok u =>
      have hw : w' = (removeFinalizer r name index w₁).2 := (congrArg Prod.snd h).symm
      rw [hw, removeFinalizer_snd, World.patchFinalizers_session, World.patchFinalizers_cluster,
        hcluster]
      exact .released _ hrun

theorem effect_finalize (h : c.finalize service r w = (out, w')) :
    Effect c service r w.session.backend w.cluster out w'.session.backend w'.cluster := by
  rw [finalize] at h
  dsimp only at h
  split at h
  · next hlive =>
    -- held and live
    cases h
    exact effect_apply hlive
  · -- held and going away
    split at h
    · exact effect_release h
    · cases h
      exact .idle (.inr ⟨_, rfl⟩)
  · next hnone hlive =>
    -- not held yet
    split at h
    · next name _ =>
      obtain ⟨p, hp⟩ := addFinalizer_snd r name w
      rw [h] at hp
      cases hp
      exact .held p (index_eq_none_iff.1 hnone)
    · cases h
      exact .idle (.inr ⟨_, rfl⟩)
  · next hnone hgoing =>
    cases h
    exact .idle (.inl (index_eq_none_iff.1 hnone))

/-- **What a pass does.** -/
theorem effect_pass (h : c.pass service r w = (out, w')) :
    Effect c service r w.session.backend w.cluster out w'.session.backend w'.cluster := by
  cases hwork : c.finalize service r { w with
      session := { w.session with metrics := w.session.metrics.countReconciliation k.name } } with
  | mk result w₁ =>
    rw [pass, hwork] at h
    cases h
    have heffect := effect_finalize hwork
    exact heffect

end Controller

end ShareKeeper
