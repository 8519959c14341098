import ShareKeeper.Proofs.Conditions

/-!
# What is never lost of an object

What is stored of an object is built anew in every pass, and what the next pass goes by is in it: without
the ARN it would create a second entity. Here the stored object is followed through whatever may happen
to it (`lifeline`): passes that are stored, passes of which nothing gets stored, and failures that are
recorded. Nothing that was known once is lost (`Resource.Preserves`), and the ARN becomes another one only
where an answer told it (`keepsIdentity_of_lifeline`). Nothing is assumed of the answers.
-/

namespace ShareKeeper

open Pass

/-! ## ARNs that are told -/

namespace Exchange

/-- The ARN that an answer tells of the entity, if it tells of one at all. -/
def toldArn? : Exchange → Option String
  | ⟨.getPermission _ _, .ok d⟩ => d.arn
  | ⟨.createPermission _, .ok d⟩ => d.arn
  | ⟨.createPermissionVersion _ _, .ok d⟩ => d.arn
  | ⟨.getShare _, .ok d⟩ => d.arn
  | ⟨.createShare _, .ok d⟩ => d.arn
  | ⟨.updateShare _ _ _, .ok d⟩ => d.arn
  | _ => none

theorem toldArn?_creation {k : Kind} (r : Resource k) (answer : Answer r.creation) :
    toldArn? ⟨r.creation, answer⟩ = createdArn? ⟨r.creation, answer⟩ := by
  cases k <;> cases answer <;> rfl

end Exchange

/-- An ARN that is the known one, or was told. -/
def KnownOrTold (heard : List Exchange) (known arn : Option String) : Prop :=
  arn = known ∨ ∃ y ∈ heard, ∃ x, y.toldArn? = some x ∧ arn = some x

namespace KnownOrTold

variable {heard heard' : List Exchange} {known a b : Option String}

/-- What an answer tells is put over what is known. -/
theorem of_told {y : Exchange} (hy : y ∈ heard) : KnownOrTold heard known (y.toldArn?.or known) := by
  cases htold : y.toldArn? with
  | none => exact .inl rfl
  | some x => exact .inr ⟨y, hy, x, htold, rfl⟩

theorem trans (h : KnownOrTold heard known a) (h' : KnownOrTold heard a b) :
    KnownOrTold heard known b := by
  rcases h' with rfl | htold
  · exact h
  · exact .inr htold

theorem mono (h : KnownOrTold heard known a) (hsub : heard ⊆ heard') : KnownOrTold heard' known a := by
  rcases h with hknown | ⟨y, hy, htold⟩
  · exact .inl hknown
  · exact .inr ⟨y, hsub hy, htold⟩

end KnownOrTold

section Passes

variable {k : Kind} {r latest : Resource k} {σ : Type} {service : Service σ} {s s' : σ}
  {heard : List Exchange} {region : Option String} {now : Instant}

theorem yields_knownOrTold_look (heard : List Exchange) (r : Resource k) :
    (k.manager.readOne r).Yields (· ∈ heard) fun latest => KnownOrTold heard r.arn latest.arn := by
  cases k with
  | permission =>
    refine Permission.yields_readOne_of (P := KnownOrTold heard r.arn) r fun arn d harn hd => ?_
    rw [harn]
    exact .of_told hd
  | share =>
    refine Share.yields_readOne_of (P := KnownOrTold heard r.arn) r fun arn d harn hd => ?_
    rw [harn]
    exact .of_told hd

theorem knownOrTold_of_look (h : Dialogue service (k.manager.readOne r) s heard (.ok latest) s') :
    KnownOrTold heard r.arn latest.arn :=
  (yields_knownOrTold_look heard r).of_dialogue h fun _ => id

theorem yields_knownOrTold_update (r latest : Resource k) (d : Delta) :
    (k.manager.update r latest d).Yields (· ∈ heard) fun x => KnownOrTold heard latest.arn x.arn := by
  cases k with
  | permission =>
    refine Permission.yields_update_of (P := KnownOrTold heard latest.arn) r latest d (.inl rfl)
      fun arn d harn hd => ?_
    rw [harn]
    exact .of_told hd
  | share =>
    refine Share.yields_update_of (P := KnownOrTold heard latest.arn) r latest d (.inl rfl)
      fun arn d harn hd => ?_
    rw [harn]
    exact .of_told hd

/-- **A pass that gets through ends with the recorded ARN or with one that it was told.** -/
theorem knownOrTold_of_ok {out : Reconciled k}
    (h : Dialogue service (reconcile k.manager region now r) s heard (.ok out) s') :
    KnownOrTold heard r.arn out.resource.arn := by
  have hwalk := walk_of_dialogue h
  generalize hended : Except.ok out = ended at hwalk
  cases hwalk with
  | rejected => cases hended
  | lost => cases hended
  | @created looks said e s₁ s' x hvalid hlook he hcreate =>
    obtain ⟨answer, -, rfl, ⟨e, -, rfl⟩ | ⟨v, created, -, rfl, harn⟩⟩ := create_cases hcreate
    · cases hended
    · cases hended
      rw [arn_conclude, harn, ← Exchange.toldArn?_creation]
      exact .of_told (by simp)
  | @found looks said latest s₁ s' x hvalid hlook hline =>
    cases x with
    | error e => cases hended
    | ok x =>
      cases hended
      rw [arn_conclude]
      have hlooked := (knownOrTold_of_look hlook).mono (List.subset_append_left looks said)
      refine hlooked.trans (KnownOrTold.mono ?_ (List.subset_append_right looks said))
      rw [bringInLine] at hline
      split at hline
      · obtain ⟨rfl, hx, -⟩ := hline.done_inv
        cases hx
        exact .inl rfl
      · obtain ⟨updated, hupdate, hx⟩ := hline.map_inv
        cases updated with
        | error e => cases hx
        | ok u =>
          cases hx
          exact (yields_knownOrTold_update r latest _).of_dialogue hupdate fun _ => id

end Passes

/-! ## Conditions that stay -/

namespace Conditions

variable (c : Conditions) (now : Instant) (t : ConditionType)

/-- What is listed under a type is its record. -/
theorem filter_toList :
    (c.toList.filter fun x => x.1 = t) = ((c.get t).map fun record => (t, record)).toList := by
  obtain ⟨terminal, recoverable, synced⟩ := c
  cases terminal <;> cases recoverable <;> cases synced <;> cases t <;> rfl

/-- What is recorded is listed, and once. -/
theorem listed_once_iff :
    (∃ record, (c.toList.filter fun x => x.1 = t) = [(t, record)]) ↔ (c.get t).isSome = true := by
  rw [filter_toList]
  cases c.get t with
  | none => simp
  | some record => simp

theorem isSome_set {u : ConditionType} (status : ConditionStatus) (reason message : Option String)
    (h : (c.get t).isSome = true) : ((c.set now u status reason message).get t).isSome = true := by
  rw [get_set]
  by_cases htu : t = u
  · rw [if_pos htu]
    rfl
  · rw [if_neg htu]
    exact h

theorem isSome_clear {u : ConditionType} (h : (c.get t).isSome = true) :
    ((c.clear now u).get t).isSome = true := by
  rw [get_clear]
  by_cases htu : t = u
  · rw [if_pos htu, Option.isSome_map, ← htu]
    exact h
  · rw [if_neg htu]
    exact h

theorem isSome_foldl_move {l : List ConditionMove} (h : (c.get t).isSome = true) :
    ((l.foldl (move now) c).get t).isSome = true := by
  induction l generalizing c with
  | nil => exact h
  | cons x rest ih =>
    cases x with
    | set type status reason message => exact ih _ (isSome_set c now t status reason message h)
    | clear type => exact ih _ (isSome_clear c now t h)

/-- **What is recorded stays recorded,** however a pass ends. -/
theorem isSome_recorded (outcome : Option Failure) (b : Bool) (message : Option String)
    (h : (c.get t).isSome = true) :
    (((c.recordOutcome now outcome).setSynced now b message).get t).isSome = true := by
  rw [recorded_eq]
  exact isSome_foldl_move c now t h

end Conditions

/-! ## What is kept -/

namespace Resource

variable {k : Kind} {x y z : Resource k}

/-- The account that owns the entity, as far as the status tells. -/
def ownerAccountId (r : Resource k) : Option String := r.statusD.identity.bind Identity.ownerAccountId

/-- The region of the entity, as far as the status tells. -/
def region (r : Resource k) : Option String := r.statusD.identity.bind Identity.region

/-- What an object keeps of what another one knew. -/
structure Preserves (x y : Resource k) : Prop where
  metadata : y.metadata = x.metadata
  spec : y.spec = x.spec
  /-- An object that named its entity names one. -/
  arn : x.arn.isSome = true → y.arn.isSome = true
  owner : ∀ account, x.ownerAccountId = some account → y.ownerAccountId = some account
  region : ∀ place, x.region = some place → y.region = some place
  /-- A condition that was recorded is listed, and once. -/
  conditions : ∀ t, (x.conditionsD.get t).isSome = true →
    ∃ record, (y.conditionsD.toList.filter fun c => c.1 = t) = [(t, record)]

theorem Preserves.refl (x : Resource k) : x.Preserves x where
  metadata := rfl
  spec := rfl
  arn := id
  owner := fun _ => id
  region := fun _ => id
  conditions := fun t => (Conditions.listed_once_iff _ t).2

theorem Preserves.trans (h : x.Preserves y) (h' : y.Preserves z) : x.Preserves z where
  metadata := h'.metadata.trans h.metadata
  spec := h'.spec.trans h.spec
  arn := fun harn => h'.arn (h.arn harn)
  owner := fun account howner => h'.owner account (h.owner account howner)
  region := fun place hplace => h'.region place (h.region place hplace)
  conditions := fun t ht => h'.conditions t ((Conditions.listed_once_iff _ t).1 (h.conditions t ht))

end Resource

section Stored

variable {k : Kind} (r : Resource k) {region : Option String} {now : Instant}

/-- The record of a failure changes nothing but the conditions. -/
theorem preserves_recordFailure (e : Failure) : r.Preserves (recordFailure now r e) where
  metadata := rfl
  spec := rfl
  arn := by
    rw [arn_recordFailure]
    exact id
  owner := fun _ => id
  region := fun _ => id
  conditions := by
    intro t ht
    rw [Conditions.listed_once_iff]
    exact Conditions.isSome_recorded _ now t (some e) false none ht

/-- A pass that gets through keeps what was known. -/
theorem preserves_store {x : Resource k} (requeue : Bool) (h : r.statusD.Continues x.statusD) :
    r.Preserves (r.store now (.ok (conclude region now x requeue))) where
  metadata := rfl
  spec := rfl
  arn := by
    intro harn
    rw [arn_store, arn_eq_statusD]
    rw [arn_eq_statusD] at harn
    exact h.arn harn
  owner := by
    intro account howner
    show (x.statusD.identity.getD .empty).ownerAccountId = some account
    obtain ⟨i, hi, hi'⟩ := Option.bind_eq_some_iff.1 (h.owner account howner)
    rw [hi, Option.getD_some, hi']
  region := by
    intro place hplace
    show (x.statusD.identity.getD .empty).region.or region = some place
    obtain ⟨i, hi, hi'⟩ := Option.bind_eq_some_iff.1 (h.region place hplace)
    rw [hi, Option.getD_some, hi', Option.some_or]
  conditions := by
    intro t ht
    rw [Conditions.listed_once_iff]
    show (((x.statusD.conditions.recordOutcome now none).setSynced now _ _).get t).isSome = true
    rw [h.conditions]
    exact Conditions.isSome_recorded _ now t none _ _ ht

end Stored

/-! ## What happens to an object -/

/-- What may happen to an object that is stored. -/
inductive Incident where
  /-- A pass is made, and what came of it is stored. -/
  | pass (o : Occasion)
  /-- A pass is made, and nothing of it is stored. -/
  | unstored (o : Occasion)
  /-- A failure is recorded. -/
  | failure (now : Instant) (e : Failure)

/-- What happened to an object, and what was said on the occasion. -/
structure Moment (k : Kind) where
  before : Resource k
  heard : List Exchange
  after : Resource k

section Lifeline

variable {k : Kind} {σ : Type} (service : Service σ)

/-- One incident, and the state of the service after it. -/
def moment (r : Resource k) (s : σ) : Incident → Moment k × σ
  | .pass o =>
    let (x, s') := round service r s o
    (⟨r, x.heard, x.after⟩, s')
  | .unstored o =>
    let (x, s') := round service r s o
    (⟨r, x.heard, r⟩, s')
  | .failure now e => (⟨r, [], recordFailure now r e⟩, s)

/-- Incidents one after another. -/
def lifeline (r : Resource k) (s : σ) : List Incident → List (Moment k)
  | [] => []
  | i :: rest =>
    let (x, s') := moment service r s i
    x :: lifeline x.after s' rest

/-- An ARN that becomes another one was told by an answer, and was not told before. -/
def Moment.Renames (x : Moment k) : Prop :=
  x.after.arn = x.before.arn ∨
    ∃ y ∈ x.heard, ∃ arn, y.toldArn? = some arn ∧ x.before.arn ≠ some arn ∧ x.after.arn = some arn

theorem KnownOrTold.renames {x : Moment k} (h : KnownOrTold x.heard x.before.arn x.after.arn) :
    x.Renames := by
  by_cases hsame : x.after.arn = x.before.arn
  · exact .inl hsame
  · obtain ⟨y, hy, arn, htold, harn⟩ := h.resolve_left hsame
    refine .inr ⟨y, hy, arn, htold, ?_, harn⟩
    intro hbefore
    exact hsame (harn.trans hbefore.symm)

/-- **One incident.** -/
theorem preserves_moment (r : Resource k) (s : σ) (i : Incident) :
    r.Preserves (moment service r s i).1.after ∧ (moment service r s i).1.Renames := by
  cases i with
  | unstored o => exact ⟨.refl r, .inl rfl⟩
  | failure now e => exact ⟨preserves_recordFailure r e, .inl (arn_recordFailure _ r e)⟩
  | pass o =>
    have hdialogue := dialogue_round service r s o
    have hafter : (moment service r s (.pass o)).1.after
        = r.store o.now (round service r s o).1.outcome := rfl
    suffices h : r.Preserves (r.store o.now (round service r s o).1.outcome) ∧
        KnownOrTold (round service r s o).1.heard r.arn
          (r.store o.now (round service r s o).1.outcome).arn from
      ⟨hafter ▸ h.1, KnownOrTold.renames (x := (moment service r s (.pass o)).1) h.2⟩
    generalize (round service r s o).1.outcome = outcome at hdialogue
    cases outcome with
    | error e => exact ⟨preserves_recordFailure r e, .inl (arn_recordFailure _ r e)⟩
    | ok out =>
      have harn := knownOrTold_of_ok hdialogue
      obtain ⟨x, requeue, rfl, hcontinues⟩ := continues_of_ok hdialogue
      exact ⟨preserves_store r requeue hcontinues, harn⟩

end Lifeline

/-- What becomes of the identity of an object over its lifeline. -/
structure KeepsIdentity {k : Kind} (r : Resource k) (l : List (Moment k)) : Prop where
  /-- What was known at any time is known at all later times. -/
  preserved : (r :: l.map Moment.after).Pairwise Resource.Preserves
  /-- The ARN changes only in a step in which an answer told another one, and to such a one. -/
  renamed : ∀ x ∈ l, x.Renames

/-- **The identity of an object is never lost,** whatever happens to it and whatever the service
answers. -/
theorem keepsIdentity_of_lifeline {k : Kind} {σ : Type} (service : Service σ) (r : Resource k) (s : σ)
    (l : List Incident) : KeepsIdentity r (lifeline service r s l) := by
  -- on the incidents from the first one, each of which leaves the object for those that follow
  induction l generalizing r s with
  | nil => exact ⟨List.pairwise_singleton _ r, fun x hx => absurd hx List.not_mem_nil⟩
  | cons i rest ih =>
    obtain ⟨hpreserves, hrenames⟩ := preserves_moment service r s i
    obtain ⟨hlater, hrenamed⟩ := ih (moment service r s i).1.after (moment service r s i).2
    constructor
    · refine List.pairwise_cons.2 ⟨?_, hlater⟩
      intro y hy
      rcases List.mem_cons.1 hy with rfl | hy
      · exact hpreserves
      · exact hpreserves.trans ((List.pairwise_cons.1 hlater).1 y hy)
    · intro x hx
      rcases List.mem_cons.1 hx with rfl | hx
      · exact hrenames
      · exact hrenamed x hx

end ShareKeeper
