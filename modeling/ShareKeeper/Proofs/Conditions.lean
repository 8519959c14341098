import ShareKeeper.Proofs.Conditions.Moves
import ShareKeeper.Proofs.History

/-!
# What the conditions of an object tell

A pass ends by recording its outcome and then whether the entity matches. Each of the three records is
described here by what it was and how the pass ended, and the time it carries by one rule for all three
(`Conditions.dated_recorded`). A status is built anew in every pass, but its conditions go on
(`Status.Continues`), so this becomes a law of one round (`Round.Recorded`), and from it by induction a
law of whole runs: what the conditions say in the end is what happened (`conditions_of_rounds`).
-/

namespace ShareKeeper

open Pass

/-! ## One outcome -/

namespace Conditions

section Dated

variable (c : Conditions) (now : Instant) (t : ConditionType)

/-- What comes in the place of a record has its time while the status is the same, and else the present
time. -/
def Dated (now : Instant) (old new : Option ConditionRecord) : Prop :=
  ∀ record ∈ new, record.since = sinceOf now record.status old

theorem dated_kept (old : Option ConditionRecord) : Dated now old old := by
  rintro record ⟨⟩
  exact (if_pos rfl).symm

theorem dated_set (status : ConditionStatus) (reason message : Option String) :
    Dated now (c.get t) ((c.set now t status reason message).get t) := by
  rw [get_set, if_pos rfl]
  rintro record ⟨⟩
  rfl

theorem dated_clear : Dated now (c.get t) ((c.clear now t).get t) := by
  rw [clear]
  split
  · exact dated_set _ now _ _ _ _
  · exact dated_kept now _

theorem dated_move (x : ConditionMove) : Dated now (c.get x.type) ((c.move now x).get x.type) := by
  cases x with
  | set type status reason message => exact dated_set c now type status reason message
  | clear type => exact dated_clear c now type

/-- Where no record is moved twice, the one move of a record decides on its time. -/
theorem dated_foldl_move {l : List ConditionMove} (h : (l.map ConditionMove.type).Nodup) :
    Dated now (c.get t) ((l.foldl (move now) c).get t) := by
  induction l generalizing c with
  | nil => exact dated_kept now _
  | cons x rest ih =>
    obtain ⟨hx, hrest⟩ := List.nodup_cons.1 h
    rw [List.foldl_cons]
    by_cases ht : t = x.type
    · subst ht
      rw [get_foldl_move_of_not_mem now _ hx]
      exact dated_move c now x
    · have hlater := ih (c.move now x) hrest
      rwa [get_move_of_ne now c ht] at hlater

end Dated

section Recorded

variable (c : Conditions) (now : Instant) (outcome : Option Failure) (b : Bool)
  (message : Option String)

theorem isTrue_terminal_recorded :
    ((c.recordOutcome now outcome).setSynced now b message).isTrue .terminal
      = outcome.any Failure.isTerminal := by
  cases outcome with
  | none =>
    simp only [recordOutcome, setSynced, isTrue, get_set, get_clear]
    cases c.get .terminal <;> simp
  | some e =>
    cases he : e.severity with
    | terminal => simp [recordOutcome, setSynced, isTrue, get_set, Failure.isTerminal, he]
    | recoverable =>
      simp only [recordOutcome, he, setSynced, isTrue, get_set, get_clear]
      cases c.get .terminal <;> simp [Failure.isTerminal, he]

/-- A failure for good leaves the record of an earlier one that was worth a retry. -/
theorem isTrue_recoverable_recorded :
    ((c.recordOutcome now outcome).setSynced now b message).isTrue .recoverable
      = (outcome.any (fun e => !e.isTerminal)
        || outcome.any Failure.isTerminal && c.isTrue .recoverable) := by
  cases outcome with
  | none =>
    simp only [recordOutcome, setSynced, isTrue, get_set, get_clear]
    cases c.get .recoverable <;> simp
  | some e =>
    cases he : e.severity <;>
      simp [recordOutcome, he, setSynced, isTrue, get_set, Failure.isTerminal]

theorem isTrue_synced_recorded :
    ((c.recordOutcome now outcome).setSynced now b message).isTrue .synced = b := by
  cases b <;> simp [setSynced, isTrue, get_set, ConditionStatus.ofBool]

/-- **The time of a record is that of its last transition,** whatever was recorded on the way. -/
theorem dated_recorded (t : ConditionType) :
    Dated now (c.get t) (((c.recordOutcome now outcome).setSynced now b message).get t) := by
  rw [recorded_eq]
  exact dated_foldl_move c now t (nodup_passMoves outcome b message)

end Recorded

end Conditions

/-! ## One round -/

/-- The conditions of an object; one that was never looked at has none. -/
def Resource.conditionsD {k : Kind} (r : Resource k) : Conditions := r.statusD.conditions

namespace Round

variable {k : Kind}

/-- A record that has the status it had keeps the time it had, and any other one has the time of the
pass. -/
def Timed (x : Round k) : Prop :=
  ∀ t record, x.after.conditionsD.get t = some record →
    (∃ old, x.before.conditionsD.get t = some old ∧ old.status = record.status ∧
        record.since = old.since) ∨
      (∀ old, x.before.conditionsD.get t = some old → old.status ≠ record.status) ∧
        record.since = x.now

/-- What is stored tells how the pass ended, and nothing else changed the conditions. -/
def Recorded (x : Round k) : Prop :=
  ∃ message, x.after.conditionsD
    = (x.before.conditionsD.recordOutcome x.now x.failure?).setSynced x.now x.synced message

section Recorded

variable {x : Round k} (h : x.Recorded)
include h

theorem Recorded.terminal : x.after.conditionsD.isTrue .terminal = x.gaveUp := by
  obtain ⟨message, h⟩ := h
  rw [h, Conditions.isTrue_terminal_recorded]
  rfl

theorem Recorded.recoverable : x.after.conditionsD.isTrue .recoverable
    = (x.stumbled || x.gaveUp && x.before.conditionsD.isTrue .recoverable) := by
  obtain ⟨message, h⟩ := h
  rw [h, Conditions.isTrue_recoverable_recorded]
  rfl

theorem Recorded.synced : x.after.conditionsD.isTrue .synced = x.synced := by
  obtain ⟨message, h⟩ := h
  rw [h, Conditions.isTrue_synced_recorded]

theorem Recorded.timed : x.Timed := by
  obtain ⟨message, h⟩ := h
  intro t record hrecord
  have hsince := Conditions.dated_recorded _ _ _ _ _ t record (h ▸ hrecord)
  cases hold : x.before.conditionsD.get t with
  | none =>
    rw [hold] at hsince
    exact .inr ⟨fun old h => (by cases h), hsince⟩
  | some old =>
    rw [hold, Conditions.sinceOf] at hsince
    split at hsince
    · next hsame => exact .inl ⟨old, rfl, hsame, hsince⟩
    · next hother =>
      refine .inr ⟨fun old' h => ?_, hsince⟩
      cases h
      exact hother

end Recorded

end Round

/-- **Every pass records how it ended,** whatever the service answers. -/
theorem recorded_round {k : Kind} {σ : Type} (service : Service σ) (r : Resource k) (s : σ)
    (o : Occasion) : (round service r s o).1.Recorded := by
  have hdialogue := dialogue_round service r s o
  -- the round is forgotten but for what it began with, so that its outcome can be split
  generalize hx : (round service r s o).1 = x at hdialogue
  have hbefore : x.before = r := hx ▸ rfl
  have hnow : x.now = o.now := hx ▸ rfl
  obtain ⟨before, now, heard, outcome⟩ := x
  subst hbefore hnow
  cases outcome with
  | error e => exact ⟨none, rfl⟩
  | ok out =>
    obtain ⟨y, requeue, rfl, hcontinues⟩ := continues_of_ok hdialogue
    refine ⟨if !requeue && y.isSettled then none else some "waiting for the AWS entity to settle", ?_⟩
    show (y.statusD.conditions.recordOutcome o.now none).setSynced o.now _ _ = _
    rw [hcontinues.conditions]
    rfl

/-! ## Runs -/

section Runs

variable {k : Kind} {σ : Type} {service : Service σ}

/-- Of a round more in front: it counts unless a later one does, and if it gave up it leaves what was
before. -/
theorem stumbled_last_cons (x : Round k) (l : List (Round k)) (b : Bool) :
    ((∃ y, (l.filter fun y => !y.gaveUp).getLast? = some y ∧ y.stumbled = true) ∨
        (∀ y ∈ l, y.gaveUp = true) ∧ (x.stumbled || x.gaveUp && b) = true) ↔
      (∃ y, ((x :: l).filter fun y => !y.gaveUp).getLast? = some y ∧ y.stumbled = true) ∨
        (∀ y ∈ x :: l, y.gaveUp = true) ∧ b = true := by
  rw [List.forall_mem_cons]
  cases hx : x.gaveUp with
  | true =>
    -- it is filtered out, and cannot have stumbled
    have hstumbled : x.stumbled = false := by
      cases h : x.stumbled with
      | false => rfl
      | true => exact hx.symm.trans (Round.gaveUp_eq_false_of_stumbled h)
    rw [List.filter_cons_of_neg (by simp [hx]), hstumbled, Bool.false_or, Bool.true_and]
    simp only [true_and]
  | false =>
    rw [List.filter_cons_of_pos (by simp [hx]), List.getLast?_cons, Bool.false_and, Bool.or_false]
    cases hlast : (l.filter fun y => !y.gaveUp).getLast? with
    | none =>
      have hnil : l.filter (fun y => !y.gaveUp) = [] := List.getLast?_eq_none_iff.1 hlast
      have hall : ∀ y ∈ l, y.gaveUp = true := by simpa using hnil
      simpa using fun _ => hall
    | some y =>
      -- a later round decides, so whether this one stumbled is of no account
      have hy := List.mem_filter.1 (List.mem_of_getLast? hlast)
      have hsome : ¬ ∀ z ∈ l, z.gaveUp = true := fun hall => by
        rw [hall y hy.1] at hy
        exact absurd hy.2 (by simp)
      simp [hsome]

/-- The last pass that did not give up decides whether the object is retried. -/
theorem recoverable_of_rounds (r : Resource k) (s : σ) (l : List Occasion) :
    (stored r (rounds service r s l)).conditionsD.isTrue .recoverable = true ↔
      (∃ x, ((rounds service r s l).filter fun x => !x.gaveUp).getLast? = some x ∧
          x.stumbled = true) ∨
        (∀ x ∈ rounds service r s l, x.gaveUp = true) ∧
          r.conditionsD.isTrue .recoverable = true := by
  -- on the run from its front: what the first round left is where the others begin
  induction l generalizing r s with
  | nil => simp [rounds, stored]
  | cons o rest ih =>
    have hrecorded := (recorded_round service r s o).recoverable
    have hlater := ih (round service r s o).1.after (round service r s o).2
    rw [hrecorded, stumbled_last_cons] at hlater
    exact hlater

end Runs

/-- What the conditions of an object tell after some rounds. -/
structure TellsOf {k : Kind} (r : Resource k) (l : List (Round k)) : Prop where
  /-- It is given up exactly if the last pass gave up. -/
  terminal : (stored r l).conditionsD.isTrue .terminal = true ↔
    ∃ x, l.getLast? = some x ∧ x.gaveUp = true
  /-- It is retried exactly if the last pass that did not give up stumbled, or if all gave up and it
  was retried before. -/
  recoverable : (stored r l).conditionsD.isTrue .recoverable = true ↔
    (∃ x, (l.filter fun x => !x.gaveUp).getLast? = some x ∧ x.stumbled = true) ∨
      (∀ x ∈ l, x.gaveUp = true) ∧ r.conditionsD.isTrue .recoverable = true
  /-- It is in sync exactly if the last pass got through and found it so. -/
  synced : (stored r l).conditionsD.isTrue .synced = true ↔
    ∃ x, l.getLast? = some x ∧ x.synced = true
  /-- A pass that rotated the policy of a permission never finds it in sync. -/
  rotated : k = .permission → ∀ x ∈ l, x.rotated = true → x.synced = false
  timed : ∀ x ∈ l, x.Timed

/-- **The conditions tell the truth over whole runs:** over an object with any conditions at all, after
any passes against a service that answers anything. -/
theorem conditions_of_rounds {k : Kind} {σ : Type} (service : Service σ) (r : Resource k) (s : σ)
    (o : Occasion) (rest : List Occasion) : TellsOf r (rounds service r s (o :: rest)) := by
  obtain ⟨last, hlast⟩ := exists_getLast?_rounds service r s o rest
  have hmem := List.mem_of_getLast? hlast
  have hrecorded : ∀ x ∈ rounds service r s (o :: rest), x.Recorded := by
    intro x hx
    obtain ⟨r', s', o', rfl⟩ := exists_of_mem_rounds hx
    exact recorded_round service r' s' o'
  refine ⟨?_, recoverable_of_rounds r s _, ?_, fun hk x hx hrotated => ?_,
    fun x hx => (hrecorded x hx).timed⟩
  · rw [stored_of_getLast? hlast, (hrecorded last hmem).terminal]
    simp [hlast]
  · rw [stored_of_getLast? hlast, (hrecorded last hmem).synced]
    simp [hlast]
  · subst hk
    obtain ⟨r', s', o', rfl⟩ := exists_of_mem_rounds hx
    exact synced_of_rotated r' s' o' hrotated

end ShareKeeper
