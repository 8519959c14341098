import ShareKeeper.Proofs.Orphans
import ShareKeeper.Proofs.StatusPatch

/-!
# Where a terminal failure can be seen

After a terminal failure the controller leaves the object alone until it changes, and the condition in
the stored object is all that is left to tell why (`Json.Tells`). A patch that is accepted puts it
there, whatever was stored before (`Cluster.tells_mergeStatus`).

The patch may be refused. The controller waits all the same, so the failure shows exactly if the patch
was accepted or the object told of it already (`tells_after_terminal`). It can be lost for good
(`Permission.unseen_failure`).
-/

namespace ShareKeeper

namespace Json

/-! ## Conditions in a document -/

/-- The document of an object has a condition that holds, with a message. -/
def Tells (object : Json) (type : ConditionType) (message : String) : Prop :=
  ∃ status items item, object.member? "status" = some status ∧
    status.member? "conditions" = some (.array items) ∧ item ∈ items ∧
    item.member? "type" = some (.string type.name) ∧
    item.member? "status" = some (.string ConditionStatus.yes.name) ∧
    item.member? "message" = some (.string message)

variable {object object' : Json} {type : ConditionType} {message : String}

theorem exists_mem_of_sameItems {a b : List Json} (h : sameItems a b = true) {x : Json}
    (hx : x ∈ a) : ∃ y ∈ b, x.same y = true := by
  induction a generalizing b with
  | nil => cases hx
  | cons z rest ih =>
    cases b with
    | nil => cases h
    | cons z' rest' =>
      simp only [sameItems, Bool.and_eq_true] at h
      obtain rfl | hx := List.mem_cons.mp hx
      · exact ⟨z', List.mem_cons_self, h.1⟩
      · obtain ⟨y, hy, hsame⟩ := ih h.2 hx
        exact ⟨y, List.mem_cons_of_mem _ hy, hsame⟩

theorem Tells.of_same (h : object.Tells type message) (hsame : object.same object' = true) :
    object'.Tells type message := by
  obtain ⟨status, items, item, hstatus, hitems, hitem, htype, hyes, hmessage⟩ := h
  obtain ⟨status', hstatus', hsame⟩ := member?_of_same hsame hstatus
  obtain ⟨list, hlist, hsame⟩ := member?_of_same hsame hitems
  cases list with
  | array items' =>
    obtain ⟨item', hitem', hsame⟩ := exists_mem_of_sameItems (by simpa [same] using hsame) hitem
    exact ⟨status', items', item', hstatus', hlist, hitem', text_of_same hsame htype,
      text_of_same hsame hyes, text_of_same hsame hmessage⟩
  | _ => simp [same] at hsame

theorem Tells.setMember (h : object.Tells type message) {name : String} (hname : name ≠ "status")
    (v : Json) : (object.setMember name v).Tells type message := by
  obtain ⟨status, items, item, hstatus, hrest⟩ := h
  refine ⟨status, items, item, ?_, hrest⟩
  rw [member?_setMember, if_neg hname]
  exact hstatus

end Json

open Json

/-! ## The condition after a patch -/

section Patch

variable {k : Kind} {r R : Resource k} {type : ConditionType} {message : String}

theorem Conditions.mem_toList {c : Conditions} {record : ConditionRecord}
    (h : c.get type = some record) : (type, record) ∈ c.toList := by
  have hall : type ∈ ConditionType.all := by cases type <;> decide
  exact List.mem_filterMap.mpr ⟨type, hall, by rw [h]; rfl⟩

/-- An object whose status has a condition that holds, with a message. -/
def Resource.Tells (r : Resource k) (type : ConditionType) (message : String) : Prop :=
  ∃ s record, r.status = some s ∧ s.conditions.get type = some record ∧ record.status = .yes ∧
    record.message = some message

/-- **A patch of the status tells what the object tells,** whatever it is merged into. -/
theorem tells_mergePatch (h : R.Tells type message) (object : Json) :
    (object.mergePatch R.statusPatch).Tells type message := by
  obtain ⟨s, record, hs, hrecord, hyes, hmessage⟩ := h
  have hne : k.encodeStatus s ≠ .null := by
    rw [Kind.encodeStatus_eq]
    exact fun h => by cases h
  have hlookup : lookup "conditions" (k.encodeStatus s).members = some s.conditions.encode := by
    cases k <;> rfl
  have hconditions : ∀ target : Json,
      (target.mergePatch (k.encodeStatus s)).member? "conditions" = some s.conditions.encode := by
    intro target
    rw [Kind.encodeStatus_eq, mergePatch]
    refine lookup_of_valueAt ?_ (readsBack_conditions s.conditions).1
    exact (valueAt_mergeMembers (Kind.nodup_encodeStatus s) hlookup _).trans (replaces_array _ _)
  rw [statusPatch_eq hs]
  refine ⟨_, _, Condition.encode (type, record), member?_mergePatch hne (by simp) object,
    hconditions _, List.mem_map_of_mem (Conditions.mem_toList hrecord), ?_, ?_, ?_⟩
  · simp [Condition.encode]
  · simp [Condition.encode, hyes]
  · simp [Condition.encode, hmessage]

/-- The record of a terminal failure tells of it. -/
theorem tells_recordFailure (now : Instant) (r : Resource k) {e : Failure}
    (he : e.isTerminal = true) : (recordFailure now r e).Tells .terminal e.message := by
  have hseverity : e.severity = .terminal := by simpa [Failure.isTerminal] using he
  have hget : ∀ c : Conditions,
      ((c.recordOutcome now (some e)).setSynced now false none).get .terminal
        = some ⟨.yes, Conditions.sinceOf now .yes (c.get .terminal), some "TerminalError",
          some e.message⟩ := by
    intro c
    rw [Conditions.setSynced, Conditions.get_set, if_neg (by decide)]
    simp only [Conditions.recordOutcome, hseverity]
    rw [Conditions.get_set, if_pos rfl]
  exact ⟨_, _, rfl, hget _, rfl, rfl⟩

namespace Cluster

variable {c : Cluster}

theorem tells_mergeStatus (h : R.Tells type message) :
    (c.mergeStatus R.statusPatch).object.Tells type message :=
  have htells := tells_mergePatch h c.object
  mergeStatus_of (fun _ => htells.of_same) fun _ => htells.setMember (by decide) _

/-- A patch of the status leaves an object that tells what it is to tell if it is accepted, and else
only what was told before. -/
theorem tells_patchStatus_iff (h : R.Tells type message) :
    (c.patchStatus R.statusPatch).2.object.Tells type message ↔
      c.nextRefusal.1 = none ∨ c.object.Tells type message := by
  obtain ⟨e, rest, hnext, hpatch⟩ | ⟨rest, hnext, hpatch⟩ :=
    c.patched_cases (·.mergeStatus R.statusPatch)
  · rw [patchStatus, hpatch, hnext]
    simp
  · rw [patchStatus, hpatch, hnext]
    exact iff_of_true (tells_mergeStatus h) (.inl rfl)

end Cluster

end Patch

/-! ## A pass that ends in waiting -/

namespace Controller

variable {k : Kind} {σ : Type} {c : Controller k} {service : Service σ} {r : Resource k}
  {w : World σ} {e : Failure} {s' : σ}

/-- After a terminal failure the pass ends in waiting, and there was one patch of the status. -/
theorem pass_of_terminal (hheld : IsHeld r) (hlive : r.metadata.deletionTimestamp = none)
    (hrun : Pass.run service (reconcile c.manager c.region (c.clock.now w.passes) r)
      w.session.backend = (.error e, s'))
    (he : e.isTerminal = true) :
    (c.pass service r w).1 = .ok .awaitChange ∧ (c.pass service r w).2.cluster
      = (w.cluster.patchStatus (recordFailure (c.clock.now w.passes) r e).statusPatch).2 := by
  let w₀ : World σ := { w with
    session := { w.session with metrics := w.session.metrics.countReconciliation k.name } }
  obtain ⟨index, hindex⟩ := hheld.exists_index
  cases hwork : w₀.run service (reconcile c.manager c.region (c.clock.now w.passes) r) with
  | mk out w₁ =>
    obtain ⟨hrun', hcluster, hpasses⟩ := World.run_eq hwork
    obtain rfl : Except.error e = out := congrArg Prod.fst (hrun.symm.trans hrun')
    have happly : c.apply service r w₀
        = (.ok .awaitChange, (w₁.patchStatus (recordFailure (c.clock.now w.passes) r e)).2) := by
      have hnow : w₀.passes = w.passes := rfl
      rw [apply, hnow, hwork]
      simp only [reportFailure, he, if_true, hpasses, hnow]
    have hfinalize : c.finalize service r w₀
        = (.ok .awaitChange, (w₁.patchStatus (recordFailure (c.clock.now w.passes) r e)).2) := by
      simp only [finalize, hindex, hlive, happly]
      rfl
    rw [pass, show c.finalize service r { w with session := _ } = _ from hfinalize]
    refine ⟨rfl, ?_⟩
    show (w₁.patchStatus _).2.cluster = _
    rw [World.patchStatus_cluster, hcluster]

/-- **A terminal failure shows in the stored object** exactly if the patch was accepted or it showed
already, and the controller waits in any case. -/
theorem tells_after_terminal (hheld : IsHeld r) (hlive : r.metadata.deletionTimestamp = none)
    (hrun : Pass.run service (reconcile c.manager c.region (c.clock.now w.passes) r)
      w.session.backend = (.error e, s'))
    (he : e.isTerminal = true) :
    (c.pass service r w).1 = .ok .awaitChange ∧
      ((c.pass service r w).2.cluster.object.Tells .terminal e.message ↔
        w.cluster.nextRefusal.1 = none ∨ w.cluster.object.Tells .terminal e.message) := by
  obtain ⟨hout, hcluster⟩ := pass_of_terminal hheld hlive hrun he
  refine ⟨hout, ?_⟩
  rw [hcluster]
  exact Cluster.tells_patchStatus_iff (tells_recordFailure _ r he)

end Controller

/-! ## A permission without a name -/

namespace Permission

def nameless : Permission where
  metadata := { Metadata.empty with
    finalizers := some [Controller.finalizerName]
    name := some "reader"
    resourceVersion := some "1" }
  spec := ⟨"", "ec2:Subnet", "\x7b\x7d", []⟩
  status := none

def namelessFailure : Failure := .validation (.blank "name")

/-- The permission as it was just stored; the patches to come are prepared. -/
def namelessWorld (prepared : List (Option Refusal)) : World Account :=
  .start (.start nameless.encode prepared) .empty

theorem decode_namelessWorld (prepared : List (Option Refusal)) :
    Resource.decode .permission (namelessWorld prepared).cluster.object = .ok nameless := rfl

theorem run_nameless (now : Instant) (a : Account) :
    Pass.run Account.serve (reconcile keeper.manager keeper.region now nameless) a
      = (.error namelessFailure, a) := rfl

/-- The failure shows if the patch is accepted. -/
theorem tells_of_nameless :
    Controller.IsHeld nameless ∧ nameless.metadata.deletionTimestamp = none ∧
      namelessFailure.isTerminal = true ∧
      (keeper.pass Account.serve nameless (namelessWorld [])).1 = .ok .awaitChange ∧
      (keeper.pass Account.serve nameless (namelessWorld [])).2.cluster.object.Tells .terminal
        namelessFailure.message := by
  have hheld : Controller.IsHeld nameless := List.mem_singleton.mpr rfl
  obtain ⟨hout, hiff⟩ := Controller.tells_after_terminal (w := namelessWorld []) hheld rfl
    (run_nameless _ _) rfl
  exact ⟨hheld, rfl, rfl, hout, hiff.mpr (.inl rfl)⟩

/-- **A failure that nobody sees.** The patch is refused, and the controller waits for a change. -/
theorem unseen_failure :
    Resource.decode .permission (namelessWorld [some refusal]).cluster.object = .ok nameless ∧
      Controller.IsHeld nameless ∧ nameless.metadata.deletionTimestamp = none ∧
      Pass.run Account.serve (reconcile keeper.manager keeper.region (keeper.clock.now 0) nameless)
        .empty = (.error namelessFailure, .empty) ∧
      namelessFailure.isTerminal = true ∧
      (keeper.pass Account.serve nameless (namelessWorld [some refusal])).1 = .ok .awaitChange ∧
      ¬ (keeper.pass Account.serve nameless (namelessWorld [some refusal])).2.cluster.object.Tells
        .terminal namelessFailure.message := by
  have hheld : Controller.IsHeld nameless := List.mem_singleton.mpr rfl
  obtain ⟨hout, hcluster⟩ := Controller.pass_of_terminal (w := namelessWorld [some refusal]) hheld
    rfl (run_nameless _ _) rfl
  refine ⟨decode_namelessWorld _, hheld, rfl, run_nameless _ _, rfl, hout, ?_⟩
  rw [hcluster]
  rintro ⟨status, items, item, hstatus, -⟩
  have hnone : (namelessWorld [some refusal]).cluster.object.member? "status" = none := rfl
  exact absurd (hnone.symm.trans hstatus) (by simp)

end Permission

end ShareKeeper
