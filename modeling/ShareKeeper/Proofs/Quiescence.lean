import ShareKeeper.Proofs.Permission.Course
import ShareKeeper.Proofs.Share.Course

/-!
# Quiescence

After a pass that got through, the next one has nothing to do: it looks, changes nothing, and what it
stores stays as it is from then on (`quiescence`). This is proved in two steps. An entity is *at rest*
if passes over its object do no more than observe it (`AtRest`); from this the rest follows without
a word about the kind of the entity. And what a pass makes of an entity is at rest.
-/

namespace ShareKeeper

open Account Pass

/-! ## Entities at rest -/

/-- Passes over an object with a status of a certain sort look at the entity and do nothing else.
Observing the entity twice is observing it once, and does not interfere with what is concluded. -/
structure AtRest {k : Kind} (m : Manager k) (a : Account) (looks : List Request)
    (observed : Status k.Facts → Status k.Facts) (r : Resource k) (Known : Status k.Facts → Prop) :
    Prop where
  pass : ∀ region now s, Known s → ∃ x, x.status = some (observed s) ∧
    Course serve (reconcile m region now { r with status := some s }) a looks
      (.ok (conclude region now x false)) a
  known : ∀ region now b s, Known s → Known ((observed s).concluded region now b)
  again : ∀ s, observed (observed s) = observed s
  concluded : ∀ region now b s,
    observed (s.concluded region now b) = (observed s).concluded region now b

theorem isSettled_of_status {k : Kind} {x : Resource k} {t : Status k.Facts}
    (h : x.status = some t) : x.isSettled = decide (t.state = some k.settledState) := by
  rw [Resource.isSettled, h]
  show t.state.any _ = _
  cases t.state <;> simp

namespace AtRest

variable {k : Kind} {m : Manager k} {a : Account} {looks : List Request}
  {observed : Status k.Facts → Status k.Facts} {r : Resource k} {Known : Status k.Facts → Prop}
  {s : Status k.Facts}

/-- **A pass over an object whose entity is at rest.** -/
theorem settles (h : AtRest m a looks observed r Known) (hs : Known s) (region : Option String)
    (now : Instant) :
    ∃ out, Course serve (reconcile m region now { r with status := some s }) a looks (.ok out) a ∧
      out.synced = decide ((observed s).state = some k.settledState) ∧
      out.resource.status = some ((observed s).concluded region now out.synced) := by
  obtain ⟨x, hx, hcourse⟩ := h.pass region now s hs
  refine ⟨conclude region now x false, hcourse, ?_, ?_⟩
  · rw [conclude_synced, isSettled_of_status hx]
    rfl
  · rw [conclude_status, Resource.statusD, hx]
    rfl

/-- **What such a pass stores is what every later one stores.** -/
theorem stays (h : AtRest m a looks observed r Known) (hs : Known s) (region : Option String)
    (now now' : Instant) {b : Bool} (hb : b = decide ((observed s).state = some k.settledState)) :
    ∃ out, Course serve (reconcile m region now'
        { r with status := some ((observed s).concluded region now b) }) a looks (.ok out) a ∧
      out.resource.status = some ((observed s).concluded region now b) := by
  obtain ⟨out, hcourse, hsynced, hstatus⟩ := h.settles (h.known region now b s hs) region now'
  -- what was concluded is observed as it was
  have hsame : observed ((observed s).concluded region now b)
      = (observed s).concluded region now b := by rw [h.concluded, h.again]
  have hsynced' : out.synced = b := by
    rw [hsynced, hsame, hb]
    rfl
  refine ⟨out, hcourse, ?_⟩
  rw [hstatus, hsame, hsynced', Status.concluded_concluded]

end AtRest

/-! ## Shares -/

namespace Share

variable {a : Account} {r : Share} {arn : String} {s : ShareRecord}

/-- **A share that accords with the specification is at rest,** as long as the object remembers the
desired sources. -/
theorem atRest (harns : a.ByArn) (hvalid : validate r = .ok ()) (hfound : a.shares.find? arn = some s)
    (hlive : s.detail.status ≠ some deletedState) (haccords : Accords r.spec s)
    (huser : ∀ t ∈ r.spec.tags, Tag.isSystem t.key = false) :
    AtRest manager a (lookups r arn) (observeStatus · s.detail) r fun t =>
      t.identity.bind Identity.arn = some arn ∧
        NameSet.ofNames r.spec.sources = NameSet.ofNames t.facts.associatedSources where
  pass := by
    intro region now t ⟨harn, hsources⟩
    have hbehind : Behind a { r with status := some t } arn s := ⟨harn, hfound, hlive⟩
    have hstep : InStep { r with status := some t } s := Accords.inStep haccords hsources huser
    -- in step nothing is planned, and what is put back is the share that was there
    obtain ⟨x, hx, hcourse⟩ := course_reconcile_behind hbehind (harns.shares arn s hfound) hvalid
      region now
    rw [hstep.updatedStatus_eq] at hx
    rw [hstep.planned_eq, hstep.settled_eq, putShare_self hfound, List.append_nil] at hcourse
    exact ⟨x, hx, hcourse⟩
  known := fun region now b t ⟨harn, hsources⟩ => ⟨(Status.concluded_arn region now b _).trans
    (arn_observeStatus (harns.shares arn s hfound) harn), hsources⟩
  again := fun t => observeStatus_again t s.detail _ _ _
  concluded := fun region now b t => observeStatus_concluded region now b t s.detail

end Share

/-! ## Permissions -/

namespace Permission

variable {a : Account} {r : Permission} {arn : String} {p : PermissionRecord}

/-- **A permission that accords with the specification is at rest.** -/
theorem atRest (harns : a.ByArn) (hvalid : validate r = .ok ())
    (hfound : a.permissions.find? arn = some p) (haccords : Accords r p)
    (huser : ∀ t ∈ r.spec.tags, Tag.isSystem t.key = false) :
    AtRest manager a [.getPermission arn none] (observeStatus · p.detail) r fun t =>
      t.identity.bind Identity.arn = some arn where
  pass := by
    intro region now t harn
    have hbehind : Behind a { r with status := some t } arn p := ⟨harn, hfound⟩
    have hfixed : Fixed { r with status := some t } p := ⟨haccords.name, haccords.resourceType⟩
    obtain ⟨x, hx, hline⟩ := course_bringInLine_kept (r := { r with status := some t })
      (seen_arn (harns.permissions arn p hfound) harn) (refuseImmutable_of_fixed hfixed)
      haccords.policy (course_syncTags_idle (Tags.change_of_agree haccords.tags huser) a arn)
    exact ⟨x, hx, course_reconcile_ok (m := manager) region now hvalid
      (course_applyDesired_found (m := manager) (course_readOne hbehind) hline)⟩
  known := fun region now b t harn => (Status.concluded_arn region now b _).trans
    (arn_observeStatus (harns.permissions arn p hfound) harn)
  again := fun t => observeStatus_again t p.detail
  concluded := fun region now b t => observeStatus_concluded region now b t p.detail

end Permission

/-! ## Either kind -/

/-- The tags in a specification. -/
def Kind.tags : (k : Kind) → k.Spec → List Tag
  | .permission => PermissionSpec.tags
  | .share => ShareSpec.tags

/-- The requests that look at the entity of an object. -/
def Resource.lookups : {k : Kind} → Resource k → String → List Request
  | .permission, _, arn => [.getPermission arn none]
  | .share, r, arn => Share.lookups r arn

/-- The lifecycle state of the entity with an ARN. -/
def Account.stateOf (a : Account) : Kind → String → Option String
  | .permission, arn => (a.permissions.find? arn).bind fun p => p.detail.status
  | .share, arn => (a.shares.find? arn).bind fun s => s.detail.status

/-- A pass over the object looks at the entity, and neither it nor a later one changes anything: the
account stays as it is, and so does what the first of them stores. -/
def Quiet {k : Kind} (region : Option String) (r : Resource k) (a : Account) : Prop :=
  ∃ arn, r.arn = some arn ∧ ∀ now, ∃ out session,
    Session.run serve (reconcile k.manager region now r) (Session.start a)
      = (.ok out, session) ∧
    session.journal = r.lookups arn ∧ session.backend = a ∧
    (out.synced = true ↔ a.stateOf k arn = some k.settledState) ∧
    ∀ now', ∃ out',
      run serve (reconcile k.manager region now' (r.store now (.ok out))) a = (.ok out', a) ∧
      (r.store now (.ok out)).store now' (.ok out') = r.store now (.ok out)

section Quiescence

variable {k : Kind} {r : Resource k} {a a' : Account} {region : Option String} {now : Instant}
  {out : Reconciled k}

/-- **What a pass leaves behind is at rest.** -/
theorem exists_atRest (harns : a.ByArn) (hdisjoint : a.Disjoint)
    (huser : ∀ t ∈ k.tags r.spec, Tag.isSystem t.key = false)
    (h : run serve (reconcile k.manager region now r) a = (.ok out, a')) :
    ∃ arn observed Known s, AtRest k.manager a' (r.lookups arn) observed r Known ∧ Known s ∧
      r.store now (.ok out) = { r with status := some s } ∧
      (r.store now (.ok out)).arn = some arn ∧ ∀ t, (observed t).state = a'.stateOf k arn := by
  have harns' : a'.ByArn := by
    have := run_invariant (asks_anything (reconcile k.manager region now r))
      (fun q a _ => byArn_serve q) harns
    rwa [h] at this
  have hvalid := validate_of_ok h
  cases k with
  | permission =>
    obtain ⟨arn, p, t, requeue, x, hbecomes, hx, rfl, rfl⟩ :=
      Permission.becomes_of_ok harns hdisjoint h
    obtain ⟨hkey, harn⟩ := hbecomes.arn_eq harns
    have hfound := putPermission_find? (a := a) hkey
    have hstored : (r.store now (.ok (conclude region now x requeue))).arn = some arn := by
      rw [arn_store, Resource.arn, hx]
      exact harn
    refine ⟨arn, _, _, _, Permission.atRest harns' hvalid hfound hbecomes.accords huser, ?_, rfl,
      hstored, fun t => ?_⟩
    · exact hstored
    · rw [stateOf, hfound]
      rfl
  | share =>
    obtain ⟨out', a'', arn, s, hrun, harn, hfound, hbecomes, hremembered⟩ :=
      Share.reconcile_becomes harns hvalid region now
    -- a pass over an object that is valid has no other outcome
    cases h.symm.trans hrun
    cases hstatus : out.resource.status with
    | none => simp [Resource.arn, Resource.store, hstatus] at harn
    | some t =>
      have hstored : r.store now (.ok out) = { r with status := some t } := by
        rw [← hstatus]
        rfl
      rw [hstored] at harn hremembered ⊢
      refine ⟨arn, _, _, t, Share.atRest harns' hvalid hfound hbecomes.live hbecomes.accords huser,
        ⟨harn, hremembered.symm⟩, rfl, harn, fun t => ?_⟩
      rw [stateOf, hfound]
      rfl

/-- An entity at rest is quiet. -/
theorem AtRest.quiet {arn : String} {observed : Status k.Facts → Status k.Facts}
    {Known : Status k.Facts → Prop} {s : Status k.Facts}
    (h : AtRest k.manager a (r.lookups arn) observed r Known) (hs : Known s)
    (harn : ({ r with status := some s } : Resource k).arn = some arn)
    (hstate : ∀ t, (observed t).state = a.stateOf k arn) (region : Option String) :
    Quiet region { r with status := some s } a := by
  have hlookups : ({ r with status := some s } : Resource k).lookups arn = r.lookups arn := by
    cases k <;> rfl
  refine ⟨arn, harn, fun now => ?_⟩
  obtain ⟨out, hcourse, hsynced, hstatus⟩ := h.settles hs region now
  obtain ⟨session, hrun, hjournal, hbackend⟩ := hcourse.session
  refine ⟨out, session, hrun, hjournal.trans hlookups.symm, hbackend, ?_, fun now' => ?_⟩
  · rw [hsynced, hstate, decide_eq_true_eq]
  · obtain ⟨out', hcourse', hstatus'⟩ := h.stays hs region now now' hsynced
    have hstored : ({ r with status := some s } : Resource k).store now (.ok out)
        = { r with status := some ((observed s).concluded region now out.synced) } := by
      rw [← hstatus]
      rfl
    rw [hstored]
    refine ⟨out', hcourse'.run_eq, ?_⟩
    rw [← hstatus']
    rfl

/-- **Quiescence.** After a pass that got through, the next one only looks, and changes nothing. It
reports the object as synced exactly if its entity has settled. What it stores, every later pass
stores again, transition times and all. -/
theorem quiescence (harns : a.ByArn) (hdisjoint : a.Disjoint)
    (huser : ∀ t ∈ k.tags r.spec, Tag.isSystem t.key = false)
    (h : run serve (reconcile k.manager region now r) a = (.ok out, a')) :
    Quiet region (r.store now (.ok out)) a' := by
  obtain ⟨arn, observed, Known, s, hrest, hs, hstored, harn, hstate⟩ :=
    exists_atRest harns hdisjoint huser h
  rw [hstored] at harn ⊢
  exact hrest.quiet hs harn hstate region

/-- A share that is yet to be created, for which a source and a key of a tag are given twice. -/
def newTeam : Share where
  metadata := .empty
  spec := ⟨"team", none, ["read"], ["1111"], [], ["a", "a"], [⟨"stage", "x"⟩, ⟨"stage", "y"⟩]⟩
  status := none

theorem quiet_newTeam :
    ∃ out a', run serve (reconcile (Kind.manager .share) none .epoch newTeam) .empty = (.ok out, a') ∧
      Quiet none (newTeam.store .epoch (.ok out)) a' := by
  have hok : (run serve (reconcile (Kind.manager .share) none .epoch newTeam) .empty).1.isOk
      = true := by decide +kernel
  obtain ⟨out, a', hrun⟩ := exists_of_isOk hok
  exact ⟨out, a', hrun, quiescence byArn_empty (fun _ => .inl rfl) (by decide) hrun⟩

end Quiescence

end ShareKeeper
