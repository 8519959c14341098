import ShareKeeper.Proofs.Deletion
import ShareKeeper.Proofs.Noted
import ShareKeeper.Proofs.Parallel
import ShareKeeper.Proofs.Permission.Convergence

/-!
# Passes over different objects

Objects are worked on independently of each other, in whatever order their turns come. That is sound
because a pass stays with the ARNs that its object owns (`staysIn_pass`): passes that stay in disjoint
sets can change places (`Pass.StaysIn.commute`), and whichever object comes first, the account ends up the
same, the same calls are counted, and each object gets what it would have got in the other order, up to
the times at which the passes were made (`interchange_of_disjoint`).
-/

namespace ShareKeeper

open Pass

/-! ## Passes that stay apart -/

/-- Two passes of which neither notices the other. -/
structure Pass.Commute {α β : Type} (p : Pass α) (q : Pass β) (a : Account) : Prop where
  state : (run Account.serve q (run Account.serve p a).2).2
    = (run Account.serve p (run Account.serve q a).2).2
  first : (run Account.serve p (run Account.serve q a).2).1 = (run Account.serve p a).1
  second : (run Account.serve q (run Account.serve p a).2).1 = (run Account.serve q a).1
  firstHeard : transcript Account.serve p (run Account.serve q a).2 = transcript Account.serve p a
  secondHeard : transcript Account.serve q (run Account.serve p a).2 = transcript Account.serve q a

/-- **Passes that stay in disjoint sets commute.** -/
theorem Pass.StaysIn.commute {α β : Type} {p : Pass α} {q : Pass β} {F G : String → Prop} {a : Account}
    (hp : p.StaysIn F a) (hq : q.StaysIn G a) (hdisjoint : ∀ x, F x → ¬ G x) : p.Commute q a := by
  -- what the one pass leaves is, where the other one stays, what there was
  have hleft : Account.AgreeOn F a (run Account.serve q a).2 := by
    intro x hx
    exact (hq.entries_run (hdisjoint x hx)).symm
  have hright : Account.AgreeOn G a (run Account.serve p a).2 := by
    intro x hx
    exact (hp.entries_run fun hF => hdisjoint x hF hx).symm
  obtain ⟨hfirstHeard, hfirst, hfirstState⟩ := hp.congr hleft
  obtain ⟨hsecondHeard, hsecond, hsecondState⟩ := hq.congr hright
  refine ⟨?_, hfirst, hsecond, hfirstHeard, hsecondHeard⟩
  apply Account.ext_entries
  intro x
  by_cases hF : F x
  · rw [(hq.transfer hright).entries_run (hdisjoint x hF)]
    exact hfirstState x hF
  · rw [(hp.transfer hleft).entries_run hF]
    by_cases hG : G x
    · exact (hsecondState x hG).symm
    · rw [(hq.transfer hright).entries_run hG, hp.entries_run hF, hq.entries_run hG]

/-! ## Up to the clock -/

/-- Two records that differ at most in the time, and then each has that of its own pass. -/
structure ConditionRecord.SameButClock (now now' : Instant) (c d : ConditionRecord) : Prop where
  status : d.status = c.status
  reason : d.reason = c.reason
  message : d.message = c.message
  since : d.since = c.since ∨ c.since = now ∧ d.since = now'

namespace Conditions

variable {c d : Conditions} (now now' : Instant)

/-- The same conditions up to the times. -/
def SameButClock (now now' : Instant) (c d : Conditions) : Prop :=
  ∀ t, Option.Rel (ConditionRecord.SameButClock now now') (c.get t) (d.get t)

theorem sameButClock_refl (c : Conditions) : c.SameButClock now now' c := by
  intro t
  cases c.get t with
  | none => exact .none
  | some record => exact .some ⟨rfl, rfl, rfl, .inl rfl⟩

variable {now now'}

/-- A record that is set has its time from the one before, or it is that of the pass. -/
theorem sinceOf_sameButClock {old old' : Option ConditionRecord} (status : ConditionStatus)
    (h : Option.Rel (ConditionRecord.SameButClock now now') old old') :
    sinceOf now' status old' = sinceOf now status old ∨
      sinceOf now status old = now ∧ sinceOf now' status old' = now' := by
  cases h with
  | none => exact .inr ⟨rfl, rfl⟩
  | @some record record' h =>
    rw [sinceOf, sinceOf, h.status]
    by_cases hstatus : record.status = status
    · rw [if_pos hstatus, if_pos hstatus]
      exact h.since
    · rw [if_neg hstatus, if_neg hstatus]
      exact .inr ⟨rfl, rfl⟩

theorem SameButClock.set (h : c.SameButClock now now' d) (t : ConditionType) (status : ConditionStatus)
    (reason message : Option String) :
    (c.set now t status reason message).SameButClock now now' (d.set now' t status reason message) := by
  intro u
  rw [get_set, get_set]
  by_cases hu : u = t
  · rw [if_pos hu, if_pos hu]
    exact .some ⟨rfl, rfl, rfl, sinceOf_sameButClock status (h t)⟩
  · rw [if_neg hu, if_neg hu]
    exact h u

theorem SameButClock.clear (h : c.SameButClock now now' d) (t : ConditionType) :
    (c.clear now t).SameButClock now now' (d.clear now' t) := by
  intro u
  rw [get_clear, get_clear]
  by_cases hu : u = t
  · rw [if_pos hu, if_pos hu]
    have hold := h t
    generalize c.get t = old at hold
    generalize d.get t = old' at hold
    cases hold with
    | none => exact .none
    | some hrecord => exact .some ⟨rfl, rfl, rfl, sinceOf_sameButClock .no (.some hrecord)⟩
  · rw [if_neg hu, if_neg hu]
    exact h u

/-- What a pass that got through records. -/
theorem SameButClock.recorded (h : c.SameButClock now now' d) (b : Bool) (message : Option String) :
    ((c.recordOutcome now none).setSynced now b message).SameButClock now now'
      ((d.recordOutcome now' none).setSynced now' b message) :=
  ((h.clear .terminal).clear .recoverable).set .synced _ _ _

end Conditions

/-- Two outcomes that differ at most in the times of the conditions. -/
structure Reconciled.SameButClock {k : Kind} (now now' : Instant) (o o' : Reconciled k) : Prop where
  synced : o'.synced = o.synced
  resource : ∃ c, o.resource.conditionsD.SameButClock now now' c ∧
    o'.resource = o.resource.updateConditions fun _ => c

theorem sameButClock_conclude {k : Kind} (region : Option String) (now now' : Instant) (x : Resource k)
    (requeue : Bool) :
    (conclude region now x requeue).SameButClock now now' (conclude region now' x requeue) where
  synced := rfl
  resource := by
    have hrecorded := (Conditions.sameButClock_refl now now'
      (x.withRegion region).statusD.conditions).recorded (!requeue && x.isSettled)
      (if !requeue && x.isSettled then none else some "waiting for the AWS entity to settle")
    exact ⟨_, hrecorded, rfl⟩

/-! ## Jobs -/

/-- What may be done about an object. -/
inductive Job where
  | reconcile (region : Option String)
  | delete

section Jobs

variable {k : Kind}

/-- The pass over an object that does a job, with the outcome if there is to be one. -/
def Job.pass (job : Job) (now : Instant) (r : Resource k) : Pass (Option (Reconciled k)) :=
  match job with
  | .reconcile region => do
    let out ← ShareKeeper.reconcile k.manager region now r
    return some out
  | .delete => do
    deleteEntity k.manager r
    return none

/-- What is asked for does not depend on the clock, and what is told hardly. -/
theorem parallel_pass (job : Job) (now now' : Instant) (r : Resource k) :
    Parallel (Option.Rel (Reconciled.SameButClock now now')) (job.pass now r) (job.pass now' r) := by
  cases job with
  | delete => exact .bind_same _ fun _ => .done .none
  | reconcile region =>
    refine Parallel.bind (R := Reconciled.SameButClock now now') ?_ fun _ _ h => .done (.some h)
    refine .bind_same _ fun _ => .bind_same _ fun x => .done ?_
    exact sameButClock_conclude region now now' x.1 x.2

/-- **A pass over an object stays with the ARNs that the object owns.** -/
theorem staysIn_pass {a : Account} (ha : a.ByArn) (job : Job) (now : Instant) (r : Resource k) :
    (job.pass now r).StaysIn r.Owns a := by
  cases job with
  | delete =>
    have hstays := (staysIn_deleteEntity ha r).mono (G := r.Owns) fun x hx => .inl hx
    exact hstays.map fun _ => none
  | reconcile region =>
    have hdialogue : Dialogue Account.serve (reconcile k.manager region now r) a _ _ _ := ⟨rfl, rfl⟩
    have hstays : (reconcile k.manager region now r).StaysIn r.Owns a :=
      owns_of_reconcile hdialogue (Account.honest_transcript _ ha)
    exact hstays.map some

theorem noted_pass (job : Job) (now : Instant) (r : Resource k) : (job.pass now r).Noted := by
  cases job with
  | delete => exact (noted_deleteEntity k.noted_manager r).bind fun _ => .done none
  | reconcile region =>
    exact (noted_reconcile k.noted_manager region now r).bind fun out => .done (some out)

end Jobs

/-! ## Two objects -/

section Turns

variable {α β : Type}

/-- What comes of two passes, one after the other. -/
structure Turns (α β : Type) where
  first : Except Failure α
  second : Except Failure β
  /-- The session after both. -/
  session : Session Account

/-- Makes two passes one after the other. -/
def inTurn (p : Pass α) (q : Pass β) (s : Session Account) : Turns α β :=
  let (first, s) := Session.run Account.serve p s
  let (second, s) := Session.run Account.serve q s
  ⟨first, second, s⟩

theorem inTurn_eq (p : Pass α) (q : Pass β) (s : Session Account) :
    let a := (run Account.serve p s.backend).2
    (inTurn p q s).first = (run Account.serve p s.backend).1 ∧
      (inTurn p q s).second = (run Account.serve q a).1 ∧
      (inTurn p q s).session.backend = (run Account.serve q a).2 := by
  obtain ⟨hfirst, hbackend, -⟩ := run_session Account.serve p s
  obtain ⟨hsecond, hbackend', -⟩ := run_session Account.serve q (Session.run Account.serve p s).2
  rw [hbackend] at hsecond hbackend'
  exact ⟨hfirst, hsecond, hbackend'⟩

/-- Two passes that note their calls are counted by what is heard in them. -/
theorem metrics_inTurn {p : Pass α} {q : Pass β} (hp : p.Noted) (hq : q.Noted) (s : Session Account) :
    (inTurn p q s).session.metrics
      = (transcript Account.serve p s.backend
          ++ transcript Account.serve q (run Account.serve p s.backend).2).foldl Metrics.hear
        s.metrics := by
  show (Session.run Account.serve q (Session.run Account.serve p s).2).2.metrics = _
  rw [hq.metrics_run, hp.metrics_run, (run_session Account.serve p s).2.1, List.foldl_append]

/-- What comes of two passes is the same in either order, with results that are related. -/
structure Interchange (R : α → α → Prop) (S : β → β → Prop) (t : Turns α β) (u : Turns β α) :
    Prop where
  account : u.session.backend = t.session.backend
  /-- The same calls were counted. -/
  metrics : t.session.metrics.Alike u.session.metrics
  first : SameEnd R t.first u.second
  second : SameEnd S t.second u.first

/-- Passes that commute and note their calls may be made in either order, and in parallel versions of
them. -/
theorem Pass.Commute.interchange {R : α → α → Prop} {S : β → β → Prop} {p p' : Pass α} {q q' : Pass β}
    {s : Session Account} (h : p.Commute q s.backend) (hp : Parallel R p p') (hq : Parallel S q q')
    (hnoted : p.Noted) (hnoted' : q.Noted) : Interchange R S (inTurn p q s) (inTurn q' p' s) := by
  obtain ⟨hfirst, hsecond, hbackend⟩ := inTurn_eq p q s
  obtain ⟨hfirst', hsecond', hbackend'⟩ := inTurn_eq q' p' s
  rw [hq.state_eq] at hsecond' hbackend'
  constructor
  · rw [hbackend, hbackend', hp.state_eq, h.state]
  · -- the versions are counted as the passes themselves would be
    have hsession : (inTurn q' p' s).session = (inTurn q p s).session := by
      show (Session.run Account.serve p' (Session.run Account.serve q' s).2).2 = _
      rw [hq.session_eq, hp.session_eq]
      rfl
    rw [hsession, metrics_inTurn hnoted hnoted', metrics_inTurn hnoted' hnoted, h.firstHeard,
      h.secondHeard]
    exact Metrics.alike_of_perm _ List.perm_append_comm
  · rw [hfirst, hsecond', ← h.first]
    exact hp.sameEnd Account.serve _
  · rw [hsecond, hfirst', h.second]
    exact hq.sameEnd Account.serve _

end Turns

/-- **Whose turn comes first makes no difference.** Of two objects that own no ARN in common either one
may be worked on first, to reconcile or to delete it, at whatever times. What is under an ARN that an
object does not own is left alone. -/
theorem interchange_of_disjoint {k l : Kind} {A : Resource k} {B : Resource l} {s : Session Account}
    (harns : s.backend.ByArn) (hdisjoint : ∀ x, A.Owns x → ¬ B.Owns x) (job job' : Job)
    (now now' later later' : Instant) :
    Interchange (Option.Rel (Reconciled.SameButClock now later'))
        (Option.Rel (Reconciled.SameButClock now' later))
        (inTurn (job.pass now A) (job'.pass now' B) s) (inTurn (job'.pass later B) (job.pass later' A) s) ∧
      ∀ x, ¬ A.Owns x →
        (Session.run Account.serve (job.pass now A) s).2.backend.entries x
          = s.backend.entries x := by
  have hA := staysIn_pass harns job now A
  have hB := staysIn_pass harns job' now' B
  constructor
  · exact (hA.commute hB hdisjoint).interchange (parallel_pass job now later' A)
      (parallel_pass job' now' later B) (noted_pass job now A) (noted_pass job' now' B)
  · intro x hx
    rw [(run_session Account.serve (job.pass now A) s).2.1]
    exact hA.entries_run hx

/-- An account with a permission and a share. -/
def staffed : Account := (Account.serve (.createShare Share.teamInput) Permission.readerAccount).2

theorem not_owns_leftover (x : String) (h : Permission.reader.Owns x) : ¬ Share.leftover.Owns x := by
  -- the share owns two ARNs, the recorded one and that of its new name
  have hx : x = Account.permissionArn "reader" := by
    rcases h with h | h
    · exact (Option.some.inj h).symm
    · exact h
  rw [hx]
  rintro (h' | h')
  · exact absurd h' (by decide)
  · exact absurd h' (by decide)

/-- The policy of the permission is rotated and the share is deleted, whichever comes first. -/
theorem interchange_reader_leftover :
    staffed.ByArn ∧ (∀ x, Permission.reader.Owns x → ¬ Share.leftover.Owns x) ∧
      Interchange (Option.Rel (Reconciled.SameButClock .epoch .epoch))
        (Option.Rel (Reconciled.SameButClock .epoch .epoch))
        (inTurn ((Job.reconcile none).pass .epoch Permission.reader)
          (Job.delete.pass .epoch Share.leftover) (.start staffed))
        (inTurn (Job.delete.pass .epoch Share.leftover)
          ((Job.reconcile none).pass .epoch Permission.reader) (.start staffed)) ∧
      (inTurn ((Job.reconcile none).pass .epoch Permission.reader)
        (Job.delete.pass .epoch Share.leftover) (.start staffed)).first.isOk = true ∧
      (inTurn ((Job.reconcile none).pass .epoch Permission.reader)
        (Job.delete.pass .epoch Share.leftover) (.start staffed)).second.isOk = true := by
  have harns : staffed.ByArn := Account.byArn_serve _ (Account.byArn_serve _ Account.byArn_empty)
  refine ⟨harns, not_owns_leftover, ?_, ?_, ?_⟩
  · exact (interchange_of_disjoint harns not_owns_leftover (.reconcile none) .delete .epoch .epoch
      .epoch .epoch).1
  · decide +kernel
  · decide +kernel

end ShareKeeper
