import ShareKeeper.Proofs.Continuity

/-!
# Histories of one object

The controller makes pass after pass over an object and stores what came of each. Nothing is assumed
of the service: `rounds` is what happens against any one, and since its state is arbitrary its answers
are, too. A round keeps what was stored before the pass, what was said in it and how it ended, so that
a statement about a whole run can speak of every pass in it.
-/

namespace ShareKeeper

open Pass

/-- Where and when a pass is made. -/
structure Occasion where
  region : Option String
  now : Instant

/-- A pass that was made. -/
structure Round (k : Kind) where
  /-- The object as it was stored before. -/
  before : Resource k
  now : Instant
  heard : List Exchange
  outcome : Except Failure (Reconciled k)

namespace Round

variable {k : Kind} (x : Round k)

/-- The object that is stored after the pass. -/
def after : Resource k := x.before.store x.now x.outcome

/-- What the pass failed with, if it did. -/
def failure? : Option Failure :=
  match x.outcome with
  | .ok _ => none
  | .error e => some e

/-- Whether the pass failed for good. -/
def gaveUp : Bool := x.failure?.any Failure.isTerminal

/-- Whether the pass failed in a way that is worth a retry. -/
def stumbled : Bool := x.failure?.any fun e => !e.isTerminal

/-- Whether the pass got through and found the entity settled. -/
def synced : Bool :=
  match x.outcome with
  | .ok out => out.synced
  | .error _ => false

/-- Whether the pass asked for a new version of a policy. -/
def rotated : Bool := x.heard.any fun y => y.1.operation = .createPermissionVersion

theorem gaveUp_eq_false_of_stumbled {x : Round k} (h : x.stumbled = true) : x.gaveUp = false := by
  rw [stumbled] at h
  rw [gaveUp]
  cases hf : x.failure? with
  | none => rfl
  | some e => simpa [hf] using h

end Round

section Rounds

variable {k : Kind} {σ : Type} (service : Service σ)

/-- One pass over a stored object, and the state of the service after it. -/
def round (r : Resource k) (s : σ) (o : Occasion) : Round k × σ :=
  let p := reconcile k.manager o.region o.now r
  let (outcome, s') := run service p s
  (⟨r, o.now, transcript service p s, outcome⟩, s')

/-- Passes one after another, each over what the one before stored. -/
def rounds (r : Resource k) (s : σ) : List Occasion → List (Round k)
  | [] => []
  | o :: rest =>
    let x := round service r s o
    x.1 :: rounds x.1.after x.2 rest

/-- The object that is stored after some rounds. -/
def stored (r : Resource k) (l : List (Round k)) : Resource k := l.foldl (fun _ x => x.after) r

theorem stored_of_getLast? {r : Resource k} {l : List (Round k)} {x : Round k}
    (h : l.getLast? = some x) : stored r l = x.after := by
  obtain ⟨before, rfl⟩ := List.getLast?_eq_some_iff.1 h
  rw [stored, List.foldl_append]
  rfl

theorem dialogue_round (r : Resource k) (s : σ) (o : Occasion) :
    Dialogue service (reconcile k.manager o.region o.now r) s (round service r s o).1.heard
      (round service r s o).1.outcome (round service r s o).2 := ⟨rfl, rfl⟩

variable {service} in
/-- Every round is a pass of its own. -/
theorem exists_of_mem_rounds {r : Resource k} {s : σ} {l : List Occasion} {x : Round k}
    (h : x ∈ rounds service r s l) : ∃ r' s' o, x = (round service r' s' o).1 := by
  induction l generalizing r s with
  | nil => cases h
  | cons o rest ih =>
    rcases List.mem_cons.1 h with rfl | h
    · exact ⟨r, s, o, rfl⟩
    · exact ih h

/-- A run of passes has a last one. -/
theorem exists_getLast?_rounds (r : Resource k) (s : σ) (o : Occasion) (rest : List Occasion) :
    ∃ x, (rounds service r s (o :: rest)).getLast? = some x :=
  ⟨_, List.getLast?_eq_some_getLast (List.cons_ne_nil _ _)⟩

end Rounds

/-! ## Rotations -/

section Rotations

variable {σ : Type} {service : Service σ} {s s' : σ} {heard : List Exchange} {region : Option String}
  {now : Instant}

/-- A new version is asked for only if the policy differs. -/
theorem Permission.asks_version (r latest : Permission) (d : Delta) :
    (Permission.update r latest d).Asks fun q =>
      q.operation = .createPermissionVersion → Permission.requeueAfterUpdate d = true := by
  refine (asks_lift _).bind fun _ => (asks_lift _).bind fun arn => Asks.bind ?_ fun _ => ?_
  · rw [Permission.syncTags]
    split
    · refine SyncPlan.asks_perform fun q hq hversion => ?_
      rcases List.mem_append.1 hq with h | h <;> cases SyncPlan.mem_when h ▸ hversion
    · trivial
  · rw [Permission.rotatePolicy]
    split
    · next hpolicy =>
      exact (asks_anything _).mono fun _ _ _ => hpolicy
    · trivial

/-- **A pass that rotated the policy leaves the permission unsettled,** whatever the answers are. -/
theorem Permission.synced_of_rotated {r : Permission} {out : Reconciled .permission}
    (h : Dialogue service (reconcile Permission.manager region now r) s heard (.ok out) s')
    {x : Exchange} (hx : x ∈ heard) (hversion : x.1.operation = .createPermissionVersion) :
    out.synced = false := by
  have hchange : x.1.operation.isChange = true := by rw [hversion]; rfl
  obtain ⟨looks, said, latest, s₁, updated, -, hsaid, -, hupdate, hout⟩ :=
    updated_of_isChange (k := .permission) h hx hchange
  -- the version was asked for by the update, and so the policy differed
  have hrequeue := hupdate.asked (Permission.asks_version r latest _) x hsaid hversion
  cases updated with
  | error e => cases hout
  | ok y =>
    cases hout
    show (!Permission.requeueAfterUpdate _ && _) = false
    rw [hrequeue]
    rfl

/-- A round in which the policy was rotated does not find the permission in sync. -/
theorem synced_of_rotated (r : Permission) (s : σ) (o : Occasion)
    (h : (round service r s o).1.rotated = true) : (round service r s o).1.synced = false := by
  obtain ⟨x, hx, hversion⟩ := List.any_eq_true.1 h
  have hdialogue := dialogue_round service r s o
  rw [Round.synced]
  generalize (round service r s o).1.outcome = outcome at hdialogue
  cases outcome with
  | error e => rfl
  | ok out => exact Permission.synced_of_rotated hdialogue hx (of_decide_eq_true hversion)

end Rotations

end ShareKeeper
