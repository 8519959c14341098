import ShareKeeper.Reconcile
import ShareKeeper.Proofs.Pass

/-!
# Passes over an object, whatever its kind

How a pass is put together from what its manager does: it looks, and then either brings what it saw
in line or creates what is absent. What it stores depends on the status of the object it ends with
and on nothing else of it (`conclude_status`), and to conclude twice is to conclude once
(`Status.concluded_concluded`).
-/

namespace ShareKeeper

open Pass

/-! ## Storing -/

/-- The object that is stored after a pass: with the status of the outcome, or with conditions that
tell of the failure. -/
def Resource.store {k : Kind} (r : Resource k) (now : Instant) :
    Except Failure (Reconciled k) → Resource k
  | .ok out => { r with status := out.resource.status }
  | .error e => recordFailure now r e

/-- What a pass that got through makes of a status. -/
def Status.concluded {F : Type} (region : Option String) (now : Instant) (synced : Bool)
    (s : Status F) : Status F :=
  let i := s.identity.getD .empty
  { s with
    identity := some { i with region := i.region.or region }
    conditions := (s.conditions.recordOutcome now none).setSynced now synced
      (if synced then none else some "waiting for the AWS entity to settle") }

section Conclude

variable {k : Kind} (region : Option String) (now : Instant) (r : Resource k) (requeue : Bool)

/-- **What is stored is made from the status alone.** -/
theorem conclude_status :
    (conclude region now r requeue).resource.status
      = some (r.statusD.concluded region now (!requeue && r.isSettled)) := rfl

theorem conclude_synced : (conclude region now r requeue).synced = (!requeue && r.isSettled) := rfl

theorem statusD_congr {r r' : Resource k} (h : r.status = r'.status) : r.statusD = r'.statusD := by
  rw [Resource.statusD, h, Resource.statusD]

theorem arn_eq_statusD (r : Resource k) : r.arn = r.statusD.identity.bind Identity.arn := by
  rw [Resource.arn, Resource.statusD]
  cases r.status with
  | none => cases k <;> rfl
  | some s => rfl

theorem Status.concluded_arn {F : Type} (region : Option String) (now : Instant) (b : Bool)
    (s : Status F) : (s.concluded region now b).identity.bind Identity.arn
      = s.identity.bind Identity.arn := by
  show (s.identity.getD .empty).arn = _
  cases s.identity <;> rfl

/-- What is stored of the facts is what the pass ended with. -/
theorem facts_store {x : Resource k} {t : Status k.Facts} (h : x.status = some t) :
    (r.store now (.ok (conclude region now x requeue))).statusD.facts = t.facts := by
  show x.statusD.facts = t.facts
  rw [Resource.statusD, h]
  rfl

/-- The object that is stored names the entity that the pass ended with. -/
theorem arn_store (x : Resource k) :
    (r.store now (.ok (conclude region now x requeue))).arn = x.arn := by
  rw [arn_eq_statusD x]
  exact Status.concluded_arn region now (!requeue && x.isSettled) x.statusD

end Conclude

/-- The outcome of a pass names the entity that the pass ended with. -/
theorem arn_conclude {k : Kind} {region : Option String} {now : Instant} (x : Resource k)
    (requeue : Bool) : (conclude region now x requeue).resource.arn = x.arn :=
  arn_store region now x requeue x

/-- The record of a failure leaves the ARN alone. -/
theorem arn_recordFailure {k : Kind} (now : Instant) (r : Resource k) (e : Failure) :
    (recordFailure now r e).arn = r.arn := by
  rw [arn_eq_statusD r]
  rfl

namespace Conditions

/-- The conditions after a pass that got through stay when another one ends alike. -/
theorem settled_again (c : Conditions) (now now' : Instant) (b : Bool) (m : Option String) :
    (((c.recordOutcome now none).setSynced now b m).recordOutcome now' none).setSynced now' b m
      = (c.recordOutcome now none).setSynced now b m := by
  ext t : 1
  -- the first conclusion cleared the failures and set `synced` to `b`, so the second finds no change
  simp only [recordOutcome, setSynced, get_set, get_clear]
  cases t with
  | terminal => cases c.get .terminal <;> simp [sinceOf]
  | recoverable => cases c.get .recoverable <;> simp [sinceOf]
  | synced => simp [sinceOf]

end Conditions

/-- **Concluding twice is concluding once,** at whatever time. -/
theorem Status.concluded_concluded {F : Type} (region : Option String) (now now' : Instant)
    (b : Bool) (s : Status F) :
    (s.concluded region now b).concluded region now' b = s.concluded region now b := by
  have hregion : ((s.identity.getD .empty).region.or region).or region
      = (s.identity.getD .empty).region.or region := by
    cases (s.identity.getD .empty).region <;> cases region <;> rfl
  simp only [concluded, Option.getD_some, Conditions.settled_again, hregion]

/-! ## Courses of a pass -/

section Courses

variable {k : Kind} {σ : Type} {service : Service σ} {s s₁ s₂ : σ} {l l' : List Request}
  {m : Manager k} {r latest x : Resource k}

theorem requireArn_of_arn {arn : String} (h : r.arn = some arn) : r.requireArn = .ok arn := by
  rw [Resource.requireArn, h]

theorem requireArn_of_none (h : r.arn = none) : r.requireArn = .error .notFound := by
  rw [Resource.requireArn, h]

theorem arn_of_requireArn {arn : String} (h : r.requireArn = .ok arn) : r.arn = some arn := by
  cases harn : r.arn with
  | none =>
    rw [requireArn_of_none harn] at h
    cases h
  | some x =>
    rw [requireArn_of_arn harn] at h
    cases h
    rfl

/-- The one failure there is without a request. -/
theorem of_requireArn_error {e : Failure} (h : r.requireArn = .error e) :
    e = .notFound ∧ r.arn = none := by
  cases harn : r.arn with
  | none =>
    rw [requireArn_of_none harn] at h
    cases h
    exact ⟨rfl, rfl⟩
  | some x =>
    rw [requireArn_of_arn harn] at h
    cases h

/-- What does not differ is left alone. -/
theorem course_bringInLine_same (h : (m.delta (some r) (some latest)).isEmpty = true) :
    Course service (bringInLine m r latest) s [] (.ok (latest, false)) s := by
  rw [bringInLine, if_pos h]
  exact .done _

/-- What differs is updated. -/
theorem course_bringInLine_update (h : (m.delta (some r) (some latest)).isEmpty = false)
    (hupdate : Course service (m.update r latest (m.delta (some r) (some latest))) s l (.ok x) s₁) :
    Course service (bringInLine m r latest) s l
      (.ok (x, m.requeueAfterUpdate (m.delta (some r) (some latest)))) s₁ := by
  rw [bringInLine, if_neg (by simp [h])]
  exact hupdate.bind_done rfl

/-- An update that fails. -/
theorem course_bringInLine_error {e : Failure} (h : (m.delta (some r) (some latest)).isEmpty = false)
    (hupdate : Course service (m.update r latest (m.delta (some r) (some latest))) s l (.error e)
      s₁) : Course service (bringInLine m r latest) s l (.error e) s₁ := by
  rw [bringInLine, if_neg (by simp [h])]
  exact hupdate.bind_error

/-- What is heard in an update. -/
theorem mem_transcript_bringInLine {x : Exchange}
    (h : (m.delta (some r) (some latest)).isEmpty = false)
    (hx : x ∈ transcript service (m.update r latest (m.delta (some r) (some latest))) s) :
    x ∈ transcript service (bringInLine m r latest) s := by
  rw [bringInLine, if_neg (by simp [h])]
  exact mem_transcript_bind hx _

/-- What is there is brought in line. -/
theorem course_applyDesired_found {out : Except Failure (Resource k × Bool)}
    (hread : Course service (m.readOne r) s l (.ok latest) s₁)
    (hline : Course service (bringInLine m r latest) s₁ l' out s₂) :
    Course service (applyDesired m r) s (l ++ l') out s₂ := hread.attempt.bind hline

/-- What is absent is created. -/
theorem course_applyDesired_absent {e : Failure}
    (hread : Course service (m.readOne r) s l (.error e) s₁) (he : e.isNotFound = true)
    (hcreate : Course service (m.create r) s₁ l' (.ok x) s₂) :
    Course service (applyDesired m r) s (l ++ l') (.ok (x, false)) s₂ := by
  refine hread.attempt.bind ?_
  dsimp only
  rw [if_pos he]
  exact hcreate.bind_done rfl

/-- A pass that gets through concludes with what was applied. -/
theorem course_reconcile_ok {requeue : Bool} (region : Option String) (now : Instant)
    (hvalid : m.validate r = .ok ())
    (happly : Course service (applyDesired m r) s l (.ok (x, requeue)) s₁) :
    Course service (reconcile m region now r) s l (.ok (conclude region now x requeue)) s₁ :=
  (Course.lift_ok hvalid).bind_quiet (happly.bind_done rfl)

/-- A pass fails with what the application of it fails with. -/
theorem course_reconcile_error {e : Failure} (region : Option String) (now : Instant)
    (hvalid : m.validate r = .ok ()) (happly : Course service (applyDesired m r) s l (.error e) s₁) :
    Course service (reconcile m region now r) s l (.error e) s₁ :=
  (Course.lift_ok hvalid).bind_quiet happly.bind_error

end Courses

/-- A pass that gets through is over an object that is valid. -/
theorem validate_of_ok {σ : Type} {k : Kind} {service : Service σ} {m : Manager k} {r : Resource k}
    {region : Option String} {now : Instant} {s s' : σ} {out : Reconciled k}
    (h : run service (reconcile m region now r) s = (.ok out, s')) : m.validate r = .ok () := by
  cases hvalid : m.validate r with
  | ok u => rfl
  | error e =>
    rw [reconcile, hvalid] at h
    cases h

/-! ## Requests and refusals -/

section Static

variable {k : Kind} {m : Manager k} {r : Resource k} {allowed : Request → Prop}

/-- A pass asks for nothing but its manager does. -/
theorem asks_reconcile (region : Option String) (now : Instant) (hread : (m.readOne r).Asks allowed)
    (hcreate : (m.create r).Asks allowed) (hupdate : ∀ latest d, (m.update r latest d).Asks allowed) :
    (reconcile m region now r).Asks allowed := by
  refine (asks_lift _).bind fun _ => Asks.bind (hread.attempt.bind fun x => ?_) fun _ => trivial
  cases x with
  | ok latest =>
    show (bringInLine m r latest).Asks allowed
    rw [bringInLine]
    split
    · trivial
    · exact (hupdate _ _).bind fun _ => trivial
  | error e =>
    dsimp only
    split
    · exact hcreate.bind fun _ => trivial
    · trivial

/-- **A refusal for another reason than absence ends the pass at once,** if it ends what the manager
does. -/
theorem stopsOn_reconcile (region : Option String) (now : Instant)
    (hread : (m.readOne r).StopsOn ApiError.IsTrouble)
    (hcreate : (m.create r).StopsOn ApiError.IsTrouble)
    (hupdate : ∀ latest d, (m.update r latest d).StopsOn ApiError.IsTrouble) :
    (reconcile m region now r).StopsOn ApiError.IsTrouble := by
  refine (stopsOn_lift _).bind fun _ =>
    StopsOn.bind (hread.attempt_bind (fun e he => ?_) fun x => ?_) fun _ => trivial
  · -- it is not taken for the absence of the entity, which would lead to a creation
    dsimp only
    rw [if_neg (by simp [he.isNotFound_eq])]
  · cases x with
    | ok latest =>
      show (bringInLine m r latest).StopsOn ApiError.IsTrouble
      rw [bringInLine]
      split
      · trivial
      · exact (hupdate _ _).bind fun _ => trivial
    | error e =>
      dsimp only
      split
      · exact hcreate.bind fun _ => trivial
      · trivial

/-- What the manager asks for last to create an entity, completes the pass. -/
theorem completedBy_reconcile {final : Request → Prop} (region : Option String) (now : Instant)
    (hread : (m.readOne r).Asks fun q => ¬ final q) (hcreate : (m.create r).CompletedBy final)
    (hupdate : ∀ latest d, (m.update r latest d).Asks fun q => ¬ final q) :
    (reconcile m region now r).CompletedBy final := by
  refine (asks_lift _).bind_completedBy fun _ => CompletedBy.bind_done
    (hread.attempt.bind_completedBy fun x => ?_) fun _ => ⟨_, rfl⟩
  cases x with
  | ok latest =>
    show (bringInLine m r latest).CompletedBy final
    rw [bringInLine]
    split
    · trivial
    · exact Asks.completedBy ((hupdate _ _).bind fun _ => trivial)
  | error e =>
    dsimp only
    split
    · exact hcreate.bind_done fun _ => ⟨_, rfl⟩
    · trivial

end Static

end ShareKeeper
