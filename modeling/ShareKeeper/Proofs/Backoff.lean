import ShareKeeper.Controller.Run
import ShareKeeper.Proofs.Orphans

/-!
# When a failed pass is repeated

A pass fails in one of six ways, and which one is settled by the object, by the work against the
service and by whether the cluster refuses the patch that the pass needs (`error_iff_fails`). In three
of them a call to the cluster was refused.

How long the controller waits is chosen by the failure that comes out of the finalizer, and there the
cause is wrapped up. The shorter wait is meant for failures of the cluster, but it looks for one that
is not wrapped, and no pass hands back such a failure. So after every failed pass the controller waits
the longer time, and that is right exactly if the cluster refused nothing (`delay_of_failed`). After a
refused call nothing else leads to an earlier pass (`Run.step_of_refused`).
-/

namespace ShareKeeper

open Pass

/-! ## Refused patches -/

/-- A patch is refused if a refusal is prepared for it. -/
theorem Cluster.patched_error_iff {b : Cluster} {f : Cluster → Cluster} {e : Refusal} :
    (b.patched f).1 = .error e ↔ b.nextRefusal.1 = some e := by
  obtain ⟨e', rest, hnext, hpatch⟩ | ⟨rest, hnext, hpatch⟩ := b.patched_cases f
  · simp [hpatch, hnext]
  · simp [hpatch, hnext]

theorem Cluster.event_patched_of_refused {b : Cluster} (f : Cluster → Cluster) {e : Refusal}
    (h : b.nextRefusal.1 = some e) : (b.patched f).2.event = b.event := by
  obtain ⟨e', rest, -, hpatch⟩ | ⟨rest, hnext, -⟩ := b.patched_cases f
  · rw [hpatch]
  · rw [hnext] at h
    cases h

theorem World.patchStatus_error_iff {k : Kind} {σ : Type} {w : World σ} {r : Resource k} {e : Refusal} :
    (w.patchStatus r).1 = .error e ↔ w.cluster.nextRefusal.1 = some e :=
  Cluster.patched_error_iff

theorem World.patchFinalizers_error_iff {k : Kind} {σ : Type} {w : World σ} {r : Resource k}
    {name : String} {p : FinalizerPatch} {e : Refusal} :
    (w.patchFinalizers r name p).1 = .error e ↔ w.cluster.nextRefusal.1 = some e :=
  Cluster.patched_error_iff

namespace Controller

variable {k : Kind} {σ : Type} {c : Controller k} {service : Service σ} {r : Resource k}
  {w : World σ} {e : Failure}

/-! ## The ways to fail -/

/-- What a failed pass failed of. -/
inductive Cause where
  /-- A call to the cluster that the pass could not do without. -/
  | cluster
  | other
  deriving DecidableEq, Repr

/-- After how many seconds a pass is to be repeated that failed of a cause. -/
def Cause.due : Cause → Nat
  | .cluster => 30
  | .other => 60

/-- How a pass over an object fails, at a time, against the service and the cluster as they are. -/
inductive Fails (c : Controller k) (service : Service σ) (r : Resource k) (now : Instant) (s : σ)
    (b : Cluster) : Cause → Failure → Prop
  /-- A live object was reconciled, and the outcome could not be stored. -/
  | unstored {o : Reconciled k} {e : Refusal} (hheld : IsHeld r)
      (hlive : r.metadata.deletionTimestamp = none)
      (hrun : (Pass.run service (reconcile c.manager c.region now r) s).1 = .ok o)
      (hrefused : b.nextRefusal.1 = some e) :
      Fails c service r now s b .cluster (.applyFailed (.cluster (.statusNotWritten e)))
  /-- A live object could not be reconciled, though a retry may help. -/
  | unreconciled {e : Failure} (hheld : IsHeld r) (hlive : r.metadata.deletionTimestamp = none)
      (hrun : (Pass.run service (reconcile c.manager c.region now r) s).1 = .error e)
      (he : e.isTerminal = false) :
      Fails c service r now s b .other (.applyFailed e)
  /-- The finalizer could not be put on a live object. -/
  | unheld {e : Refusal} (hfree : ¬ IsHeld r) (hlive : r.metadata.deletionTimestamp = none)
      (hname : r.metadata.name ≠ none) (hrefused : b.nextRefusal.1 = some e) :
      Fails c service r now s b .cluster (.finalizerNotAdded e)
  /-- The entity of an object that is going away could not be deleted. -/
  | undeleted {e : Failure} (hheld : IsHeld r) (hgoing : r.metadata.deletionTimestamp ≠ none)
      (hname : r.metadata.name ≠ none)
      (hrun : (Pass.run service (deleteEntity c.manager r) s).1 = .error e) :
      Fails c service r now s b .other (.cleanupFailed e)
  /-- The entity was deleted, and the finalizer could not be taken off. -/
  | unreleased {e : Refusal} (hheld : IsHeld r) (hgoing : r.metadata.deletionTimestamp ≠ none)
      (hname : r.metadata.name ≠ none)
      (hrun : (Pass.run service (deleteEntity c.manager r) s).1 = .ok ())
      (hrefused : b.nextRefusal.1 = some e) :
      Fails c service r now s b .cluster (.finalizerNotRemoved e)
  /-- The finalizer is to be changed on an object that has no name. -/
  | unnamed (hname : r.metadata.name = none)
      (hchange : IsHeld r ↔ r.metadata.deletionTimestamp ≠ none) :
      Fails c service r now s b .other .unnamedObject

/-! ## How the parts of a pass end -/

/-- A part of a pass that ends with a patch fails exactly if the patch is refused. -/
theorem answered_error_iff {x : Except Refusal Unit × World σ} {action : Action}
    {f : Refusal → Failure} :
    (match x with
      | (.ok (), w) => ((.ok action, w) : Except Failure Action × World σ)
      | (.error r, w) => (.error (f r), w)).1 = .error e ↔ ∃ e', x.1 = .error e' ∧ f e' = e := by
  rcases x with ⟨_ | _, _⟩ <;> simp

theorem report_error_iff {o : Reconciled k} :
    (c.report o w).1 = .error e ↔
      ∃ e', w.cluster.nextRefusal.1 = some e' ∧ .cluster (.statusNotWritten e') = e :=
  answered_error_iff.trans (by simp only [World.patchStatus_error_iff])

theorem addFinalizer_error_iff {name : String} :
    (addFinalizer r name w).1 = .error e ↔
      ∃ e', w.cluster.nextRefusal.1 = some e' ∧ .finalizerNotAdded e' = e :=
  answered_error_iff.trans (by simp only [World.patchFinalizers_error_iff])

theorem removeFinalizer_error_iff {name : String} {index : Nat} :
    (removeFinalizer r name index w).1 = .error e ↔
      ∃ e', w.cluster.nextRefusal.1 = some e' ∧ .finalizerNotRemoved e' = e :=
  answered_error_iff.trans (by simp only [World.patchFinalizers_error_iff])

/-- A live object fails of its outcome that cannot be stored, or of the work itself. -/
theorem apply_error_iff :
    (c.apply service r w).1 = .error e ↔
      (∃ o e', (Pass.run service (reconcile c.manager c.region (c.clock.now w.passes) r)
          w.session.backend).1 = .ok o ∧ w.cluster.nextRefusal.1 = some e' ∧
        .cluster (.statusNotWritten e') = e) ∨
      ((Pass.run service (reconcile c.manager c.region (c.clock.now w.passes) r) w.session.backend).1
        = .error e ∧ e.isTerminal = false) := by
  rw [apply]
  cases hwork : w.run service (reconcile c.manager c.region (c.clock.now w.passes) r) with
  | mk out w₁ =>
    obtain ⟨hrun, hcluster, -⟩ := World.run_eq hwork
    rw [hrun, ← hcluster]
    cases out with
    | ok o => simp [report_error_iff]
    | error e' =>
      dsimp only [reportFailure]
      cases he : e'.isTerminal <;> simpa using fun h : e' = e => h ▸ he

theorem release_error_iff {name : String} {index : Nat} :
    (c.release service r name index w).1 = .error e ↔
      ((Pass.run service (deleteEntity c.manager r) w.session.backend).1 = .ok () ∧
        ∃ e', w.cluster.nextRefusal.1 = some e' ∧ .finalizerNotRemoved e' = e) ∨
      ∃ e', (Pass.run service (deleteEntity c.manager r) w.session.backend).1 = .error e' ∧
        .cleanupFailed e' = e := by
  rw [release, cleanup]
  cases hwork : w.run service (deleteEntity c.manager r) with
  | mk out w₁ =>
    obtain ⟨hrun, hcluster, -⟩ := World.run_eq hwork
    rw [hrun, ← hcluster]
    cases out with
    | ok u => simp [removeFinalizer_error_iff]
    | error e' => simp

section Finalize

variable (c service w)

theorem finalize_live (hheld : IsHeld r) (hlive : r.metadata.deletionTimestamp = none) :
    (c.finalize service r w).1 = (c.apply service r w).1.mapError .applyFailed := by
  obtain ⟨index, hindex⟩ := hheld.exists_index
  simp only [finalize, hindex, hlive]

theorem finalize_going (hheld : IsHeld r) (hgoing : r.metadata.deletionTimestamp ≠ none) {name : String}
    (hname : r.metadata.name = some name) :
    ∃ index, (c.finalize service r w).1 = (c.release service r name index w).1 := by
  obtain ⟨index, hindex⟩ := hheld.exists_index
  obtain ⟨t, ht⟩ := Option.ne_none_iff_exists'.1 hgoing
  exact ⟨index, by simp only [finalize, hindex, ht, hname]⟩

theorem finalize_free (hfree : ¬ IsHeld r) (hlive : r.metadata.deletionTimestamp = none) {name : String}
    (hname : r.metadata.name = some name) :
    (c.finalize service r w).1 = (addFinalizer r name w).1 := by
  simp only [finalize, index_eq_none_iff.2 hfree, hlive, hname]

theorem finalize_unnamed (hname : r.metadata.name = none)
    (hchange : IsHeld r ↔ r.metadata.deletionTimestamp ≠ none) :
    (c.finalize service r w).1 = .error .unnamedObject := by
  by_cases hheld : IsHeld r
  · obtain ⟨index, hindex⟩ := hheld.exists_index
    obtain ⟨t, ht⟩ := Option.ne_none_iff_exists'.1 (hchange.1 hheld)
    simp only [finalize, hindex, ht, hname]
  · have hlive : r.metadata.deletionTimestamp = none := not_not.1 (mt hchange.2 hheld)
    simp only [finalize, index_eq_none_iff.2 hheld, hlive, hname]

theorem finalize_left (hfree : ¬ IsHeld r) (hgoing : r.metadata.deletionTimestamp ≠ none) :
    (c.finalize service r w).1 = .ok .awaitChange := by
  obtain ⟨t, ht⟩ := Option.ne_none_iff_exists'.1 hgoing
  simp only [finalize, index_eq_none_iff.2 hfree, ht]

end Finalize

theorem mapError_eq_error_iff {α : Type} {f : Failure → Failure} {x : Except Failure α} :
    x.mapError f = .error e ↔ ∃ e', x = .error e' ∧ f e' = e := by
  cases x <;> simp [Except.mapError]

/-- **The ways to fail are all there are.** -/
theorem exists_fails (h : (c.finalize service r w).1 = .error e) :
    ∃ cause, Fails c service r (c.clock.now w.passes) w.session.backend w.cluster cause e := by
  by_cases hheld : IsHeld r <;> by_cases hlive : r.metadata.deletionTimestamp = none
  · -- held and live
    rw [finalize_live c service w hheld hlive, mapError_eq_error_iff] at h
    obtain ⟨e', h, rfl⟩ := h
    rcases apply_error_iff.1 h with ⟨o, e', hrun, hrefused, rfl⟩ | ⟨hrun, he⟩
    · exact ⟨_, .unstored hheld hlive hrun hrefused⟩
    · exact ⟨_, .unreconciled hheld hlive hrun he⟩
  · -- held and going away
    cases hname : r.metadata.name with
    | none =>
      have hchange := iff_of_true hheld hlive
      rw [finalize_unnamed c service w hname hchange] at h
      cases h
      exact ⟨_, .unnamed hname hchange⟩
    | some name =>
      have hnamed : r.metadata.name ≠ none := by simp [hname]
      obtain ⟨index, hout⟩ := finalize_going c service w hheld hlive hname
      rw [hout, release_error_iff] at h
      rcases h with ⟨hrun, e', hrefused, rfl⟩ | ⟨e', hrun, rfl⟩
      · exact ⟨_, .unreleased hheld hlive hnamed hrun hrefused⟩
      · exact ⟨_, .undeleted hheld hlive hnamed hrun⟩
  · -- live, and not held yet
    cases hname : r.metadata.name with
    | none =>
      have hchange := iff_of_false hheld (not_not.2 hlive)
      rw [finalize_unnamed c service w hname hchange] at h
      cases h
      exact ⟨_, .unnamed hname hchange⟩
    | some name =>
      rw [finalize_free c service w hheld hlive hname, addFinalizer_error_iff] at h
      obtain ⟨e', hrefused, rfl⟩ := h
      exact ⟨_, .unheld hheld hlive (by simp [hname]) hrefused⟩
  · rw [finalize_left c service w hheld hlive] at h
    cases h

/-- Each of them is one. -/
theorem Fails.finalize_error {cause : Cause}
    (h : Fails c service r (c.clock.now w.passes) w.session.backend w.cluster cause e) :
    (c.finalize service r w).1 = .error e := by
  cases h with
  | unstored hheld hlive hrun hrefused =>
    rw [finalize_live c service w hheld hlive,
      apply_error_iff.2 (.inl ⟨_, _, hrun, hrefused, rfl⟩)]
    rfl
  | unreconciled hheld hlive hrun he =>
    rw [finalize_live c service w hheld hlive, apply_error_iff.2 (.inr ⟨hrun, he⟩)]
    rfl
  | unheld hfree hlive hname hrefused =>
    obtain ⟨name, hname⟩ := Option.ne_none_iff_exists'.1 hname
    rw [finalize_free c service w hfree hlive hname]
    exact addFinalizer_error_iff.2 ⟨_, hrefused, rfl⟩
  | undeleted hheld hgoing hname hrun =>
    obtain ⟨name, hname⟩ := Option.ne_none_iff_exists'.1 hname
    obtain ⟨index, hout⟩ := finalize_going c service w hheld hgoing hname
    rw [hout]
    exact release_error_iff.2 (.inr ⟨_, hrun, rfl⟩)
  | unreleased hheld hgoing hname hrun hrefused =>
    obtain ⟨name, hname⟩ := Option.ne_none_iff_exists'.1 hname
    obtain ⟨index, hout⟩ := finalize_going c service w hheld hgoing hname
    rw [hout]
    exact release_error_iff.2 (.inl ⟨hrun, _, hrefused, rfl⟩)
  | unnamed hname hchange => exact finalize_unnamed c service w hname hchange

theorem finalize_error_iff :
    (c.finalize service r w).1 = .error e ↔
      ∃ cause, Fails c service r (c.clock.now w.passes) w.session.backend w.cluster cause e :=
  ⟨exists_fails, fun ⟨_, h⟩ => h.finalize_error⟩

/-- **When a pass fails.** Counting the pass changes nothing about it. -/
theorem error_iff_fails :
    (c.pass service r w).1 = .error e ↔
      ∃ cause, Fails c service r (c.clock.now w.passes) w.session.backend w.cluster cause e :=
  finalize_error_iff (w := { w with
    session := { w.session with metrics := w.session.metrics.countReconciliation k.name } })

/-! ## The wait after a failed pass -/

section Wait

variable {now : Instant} {s : σ} {b : Cluster} {cause cause' : Cause}

/-- A failed pass failed of one thing. -/
theorem Fails.cause_eq (h : Fails c service r now s b cause e)
    (h' : Fails c service r now s b cause' e) : cause = cause' := by
  cases h with
  | unstored _ _ hrun =>
    cases h' with
    | unstored => rfl
    | unreconciled _ _ hrun' => cases hrun.symm.trans hrun'
  | unreconciled _ _ hrun =>
    cases h' with
    | unstored _ _ hrun' => cases hrun.symm.trans hrun'
    | unreconciled => rfl
  | unheld | undeleted | unreleased | unnamed => cases h'; rfl

/-- No failure that a pass hands back is one of the cluster: what was one is wrapped up. -/
theorem Fails.backoff_eq (h : Fails c service r now s b cause e) : backoff e = 60 := by
  cases h <;> rfl

theorem Fails.due_iff (h : Fails c service r now s b cause e) :
    backoff e = cause.due ↔ cause = .other := by
  rw [h.backoff_eq]
  cases cause <;> simp [Cause.due]

end Wait

/-- **The wait after a failed pass** is the longer one whatever the pass failed of, so it is the one
that is due exactly if no call to the cluster was refused. -/
theorem delay_of_failed (h : (c.pass service r w).1 = .error e) :
    ∃ cause, Fails c service r (c.clock.now w.passes) w.session.backend w.cluster cause e ∧
      (∀ cause', Fails c service r (c.clock.now w.passes) w.session.backend w.cluster cause' e →
        cause' = cause) ∧
      delay (c.pass service r w).1 = some 60 ∧
      (delay (c.pass service r w).1 = some cause.due ↔ cause = .other) := by
  obtain ⟨cause, hfails⟩ := error_iff_fails.1 h
  have hdelay : delay (c.pass service r w).1 = some (backoff e) := by rw [h, delay]
  refine ⟨cause, hfails, fun cause' h' => h'.cause_eq hfails, ?_, ?_⟩
  · rw [hdelay, hfails.backoff_eq]
  · rw [hdelay, Option.some_inj]
    exact hfails.due_iff

/-! ## Refused calls in a run -/

theorem Fails.exists_refusal {now : Instant} {s : σ} {b : Cluster}
    (h : Fails c service r now s b .cluster e) : ∃ e', b.nextRefusal.1 = some e' := by
  cases h with
  | unstored _ _ _ hrefused | unheld _ _ _ hrefused | unreleased _ _ _ _ hrefused =>
    exact ⟨_, hrefused⟩

/-- A pass sends no more than one patch, so if the next one is refused the cluster has no change to
tell of. -/
theorem Effect.event_of_refused {s s' : σ} {b b' : Cluster} {out : Except Failure Action}
    (h : Effect c service r s b out s' b') {e' : Refusal} (hrefused : b.nextRefusal.1 = some e') :
    b'.event = b.event := by
  have hpatched : ∀ f, (b.patched f).2.event = b.event := fun f =>
    Cluster.event_patched_of_refused f hrefused
  cases h with
  | idle | kept => rfl
  | held | reconciled | failed | released => exact hpatched _

/-- The world in which the next pass of a run takes place. -/
def Run.ready (run : Run k σ) : World σ :=
  { run.world with
    log := []
    cluster := { run.world.cluster with event := none } }

/-- **A run after a refused call.** There is no change of the object that could lead to an earlier pass,
so the next one is over the same object, and it comes after the longer wait. -/
theorem Run.step_of_refused {run : Run k σ} {horizon : Nat}
    (h : Fails c service run.desired (c.clock.now run.ready.passes) run.ready.session.backend
      run.ready.cluster .cluster e)
    (hmore : run.time + 60 ≤ horizon) :
    ∃ w log, run.step c service horizon
      = .going { run with world := w, log := log, time := run.time + 60 } := by
  obtain ⟨e', hrefused⟩ := h.exists_refusal
  have hfailed := error_iff_fails.2 ⟨.cluster, h⟩
  cases hpass : c.pass service run.desired run.ready with
  | mk out w =>
    obtain rfl : out = .error e := (congrArg Prod.fst hpass).symm.trans hfailed
    have hevent : w.cluster.event = none := (effect_pass hpass).event_of_refused hrefused
    rw [Run.ready] at hpass
    simp only [Run.step, hpass, hevent, delay, h.backoff_eq, if_pos hmore]
    exact ⟨_, _, rfl⟩

end Controller

/-! ## A permission whose first pass fails -/

namespace Permission

open Controller

/-- The permission that `heldPermission` is the document of, as it was just stored. -/
def held : Permission where
  metadata := { Metadata.empty with
    finalizers := some [finalizerName]
    name := some "reader"
    resourceVersion := some "1" }
  spec := ⟨"reader", "ec2:Subnet", "\x7b\x7d", []⟩
  status := none

theorem decode_heldWorld (prepared : List (Option Refusal)) :
    Resource.decode .permission (heldWorld prepared).cluster.object = .ok held := rfl

/-- The service is asked too often. -/
def throttled : ApiError := .ofCode "CreatePermission" (some "ThrottlingException") "slow down"

/-- The permission with an empty account that refuses the next creation. -/
def throttledWorld : World Stage :=
  .start (.start heldPermission []) ⟨.empty, Script.none.set .createPermission [.refuse throttled]⟩

/-- The longer wait is right after a failure of the service. -/
theorem delay_of_throttled :
    (keeper.pass Stage.serve held throttledWorld).1 = .error (.applyFailed (.api throttled)) ∧
      ∃ cause, Fails keeper Stage.serve held (keeper.clock.now 0) throttledWorld.session.backend
          throttledWorld.cluster cause (.applyFailed (.api throttled)) ∧
        (∀ cause', Fails keeper Stage.serve held (keeper.clock.now 0) throttledWorld.session.backend
          throttledWorld.cluster cause' (.applyFailed (.api throttled)) → cause' = cause) ∧
        delay (keeper.pass Stage.serve held throttledWorld).1 = some 60 ∧
        (delay (keeper.pass Stage.serve held throttledWorld).1 = some cause.due ↔
          cause = .other) := by
  obtain ⟨w', hpass⟩ : ∃ w', keeper.pass Stage.serve held throttledWorld
      = (.error (.applyFailed (.api throttled)), w') := exists_of_failure? (by decide +kernel)
  have hfailed := congrArg Prod.fst hpass
  exact ⟨hfailed, delay_of_failed hfailed⟩

/-- **The wait is too long** after the permission was created and the patch of its status was
refused. -/
theorem late_retry :
    Resource.decode .permission (heldWorld [some refusal]).cluster.object = .ok held ∧
      (heldWorld [some refusal]).cluster.nextRefusal.1 = some refusal ∧
      Fails keeper Ledger.serve held (keeper.clock.now 0) (heldWorld [some refusal]).ledger
        (heldWorld [some refusal]).cluster .cluster
        (.applyFailed (.cluster (.statusNotWritten refusal))) ∧
      (keeper.pass Ledger.serve held (heldWorld [some refusal])).1
        = .error (.applyFailed (.cluster (.statusNotWritten refusal))) ∧
      delay (keeper.pass Ledger.serve held (heldWorld [some refusal])).1 ≠ some Cause.cluster.due := by
  have hok : (Pass.run Ledger.serve (reconcile keeper.manager keeper.region (keeper.clock.now 0) held)
      (heldWorld [some refusal]).ledger).1.isOk = true := by decide +kernel
  obtain ⟨o, l', hrun⟩ := exists_of_isOk hok
  have hfails : Fails keeper Ledger.serve held (keeper.clock.now 0) (heldWorld [some refusal]).ledger
      (heldWorld [some refusal]).cluster .cluster
      (.applyFailed (.cluster (.statusNotWritten refusal))) :=
    .unstored (List.mem_singleton.mpr rfl) rfl (congrArg Prod.fst hrun) rfl
  have hfailed := error_iff_fails.2 ⟨_, hfails⟩
  refine ⟨decode_heldWorld _, rfl, hfails, hfailed, ?_⟩
  rw [hfailed, delay, hfails.backoff_eq]
  decide

end Permission

end ShareKeeper
