import ShareKeeper.Proofs.Share.Course
import ShareKeeper.Proofs.Share.Requests
import ShareKeeper.Proofs.Situation

/-!
# Sources over whole runs

Nobody can look at the sources of a share, so a pass takes those that the object remembers for the
observed ones. It remembers the new ones only when it gets through to its end. A pass that moves the
sources and is refused something later leaves the object with the old ones, and from then on the two
disagree about what was moved.

As long as the specification stays, the next pass moves the same sources again and nothing is wrong.
But if it is edited back in between, nothing seems to differ any more, and the share keeps what was
moved. `sources_after_run` says when the sources are right all the same, and `sources_left_behind` is
a run after which they are not.
-/

namespace ShareKeeper.Share

open Account Pass

/-- An object and its share disagree about a source. -/
def Strays (r : Share) (s : ShareRecord) (x : String) : Prop :=
  ¬ (x ∈ s.sources ↔ x ∈ associatedSources r)

/-- The object remembers the sources of its share. -/
def Tracked (w : Situation .share) : Prop :=
  ∀ arn s, Behind w.account w.object arn s → s.sources = NameSet.ofNames (associatedSources w.object)

/-- If the step is a pass that fails, it leaves the sources of the share as they are. -/
def FailsCleanly (w : Situation .share) : Event .share → Prop
  | .edit _ => True
  | .pass region now script =>
    ∀ e a', w.attempt region now script = (.error e, a') →
      ∀ arn s s', Behind w.account w.object arn s → a'.shares.find? arn = some s' →
        s'.sources = s.sources

/-! ## Passes that fail -/

/-- The objects are about the same share and remember the same sources. -/
theorem recordFailure_congr (now : Instant) (r : Share) (e : Failure) :
    (recordFailure now r e).arn = r.arn ∧
      associatedSources (recordFailure now r e) = associatedSources r := by
  rw [associatedSources_eq, associatedSources_eq, Resource.arn, Resource.arn]
  cases hr : r.status <;> simp [recordFailure, Resource.updateConditions, Resource.updateStatus,
    Resource.statusD, hr, Kind.emptyStatus]

/-- The shares under an ARN that are not deleted were there before, not deleted. -/
def NoneNew (a a' : Account) (arn : String) : Prop :=
  ∀ s', a'.shares.find? arn = some s' → s'.detail.status ≠ some deletedState →
    ∃ s, a.shares.find? arn = some s ∧ s.detail.status ≠ some deletedState

/-- A request that neither creates nor deletes a share leaves no new one. -/
theorem noneNew_serve {q : Request} {a b : Account} {arn : String}
    (hcreate : ∀ i, q ≠ .createShare i) (hdelete : ∀ arn, q ≠ .deleteShare arn)
    (h : NoneNew a b arn) : NoneNew a (serve q b).2 arn := by
  intro t ht hlive
  generalize hshares : (serve q b).2.shares = l at ht
  have heffect := serve_shares q b
  rw [hshares] at heffect
  cases heffect with
  | none => exact h t ht hlive
  | created i hi => exact absurd hi (hcreate i)
  | changed hs harn hstatus =>
    rw [Roster.find?_insert] at ht
    split at ht
    · next hkey =>
      cases ht
      rw [hstatus.resolve_right (hdelete _)] at hlive
      exact h _ (hkey ▸ hs) hlive
    · exact h t ht hlive

/-- **A pass that fails leaves no new share.** -/
theorem noneNew_of_error {w : Situation .share} {region : Option String} {now : Instant}
    {script : Script} {e : Failure} {a' : Account} (hscript : script.Harmless)
    (h : w.attempt region now script = (.error e, a')) (arn : String) :
    NoneNew w.account a' arn := by
  have herror : (run Stage.serve (reconcile manager region now w.object) ⟨w.account, script⟩).1
      = .error e := congrArg Prod.fst h
  have haccount : (run Stage.serve (reconcile manager region now w.object)
      ⟨w.account, script⟩).2.account = a' := congrArg Prod.snd h
  rw [← haccount]
  refine (run_error_invariant
    (P := fun s : Stage => s.script.Harmless ∧ NoneNew w.account s.account arn)
    (asks_reconcile w.object region now) (completedBy_reconcile w.object region now) ?_ herror
    ⟨hscript, fun s hs hlive => ⟨s, hs, hlive⟩⟩).2
  rintro q s hasked hrefused ⟨hs, hnew⟩
  obtain ⟨hs', ⟨hanswer, haccount⟩ | ⟨e, -, -, haccount⟩⟩ := Stage.serve_cases hs q
  · refine ⟨hs', haccount ▸ noneNew_serve ?_ ?_ hnew⟩
    · -- a creation that is asked for is always granted, and would have completed the pass
      rintro i rfl
      rcases hasked with hread | hcreate | hupdate
      · cases hread
      · obtain ⟨e, he⟩ := hrefused hcreate
        rw [hanswer] at he
        cases he
      · cases hupdate
    · rintro arn rfl
      rcases hasked with hread | hcreate | hupdate
      · cases hread
      · cases hcreate
      · cases hupdate
  · exact ⟨hs', haccount ▸ hnew⟩

/-! ## Steps -/

section Steps

variable {w : Situation .share} {region : Option String} {now : Instant} {script : Script}

/-- A pass that gets through, however many calls of it may be refused. -/
theorem becomes_of_ok {out : Reconciled .share} {a' : Account} (harns : w.account.ByArn)
    (hscript : script.Harmless) (h : w.attempt region now script = (.ok out, a')) :
    ∃ arn s, (w.object.store now (.ok out)).arn = some arn ∧ a'.shares.find? arn = some s ∧
      Becomes w.account w.object arn s ∧
      NameSet.ofNames (associatedSources (w.object.store now (.ok out)))
        = NameSet.ofNames w.object.spec.sources := by
  have hrun := Situation.run_of_attempt (stopsOn_reconcile w.object region now) hscript h
  obtain ⟨out', a'', arn, s, hrun', harn, hfound, hbecomes, hremembered⟩ :=
    reconcile_becomes harns (validate_of_ok hrun) region now
  cases hrun.symm.trans hrun'
  exact ⟨arn, s, harn, hfound, hbecomes, hremembered⟩

/-- **After an update the sources are right exactly where object and share agreed on them before, or
the share happened to be right.** -/
theorem sources_settled_iff (r : Share) (s : ShareRecord) :
    (settled r s).sources = NameSet.ofNames r.spec.sources ↔
      ∀ x, Strays r s x → (x ∈ s.sources ↔ x ∈ r.spec.sources) := track_eq_iff

theorem sources_of_becomes {r : Share} {a : Account} {arn : String} {s : ShareRecord}
    (h : Becomes a r arn s) :
    s.sources = NameSet.ofNames r.spec.sources ↔
      ∀ arn t, Behind a r arn t → ∀ x, Strays r t x → (x ∈ t.sources ↔ x ∈ r.spec.sources) := by
  cases h with
  | created habsent => exact iff_of_true rfl fun arn t ht => absurd ht (habsent arn t)
  | @updated arn s hs =>
    rw [sources_settled_iff]
    constructor
    · intro h arn' t ht
      cases hs.recorded.symm.trans ht.recorded
      cases hs.found.symm.trans ht.found
      exact h
    · exact fun h => h _ _ hs

theorem Tracked.not_strays {arn : String} {s : ShareRecord} (h : Tracked w)
    (hs : Behind w.account w.object arn s) (x : String) : ¬ Strays w.object s x := by
  rw [Strays, h arn s hs, NameSet.mem_ofNames]
  exact fun hstrays => hstrays Iff.rfl

/-- **Every step keeps the sources tracked,** unless it is a pass that moves them and fails. -/
theorem tracked_step {e : Event .share} (he : e.Harmless) (hclean : FailsCleanly w e)
    (harns : w.account.ByArn) (h : Tracked w) : Tracked (w.step e) := by
  cases e with
  | edit spec => exact fun arn s hs => h arn s ⟨hs.recorded, hs.found, hs.live⟩
  | pass region now script =>
    cases hattempt : w.attempt region now script with
    | mk out a' =>
      cases out with
      | error e =>
        rw [Situation.step_of_error hattempt]
        obtain ⟨harn, hsources⟩ := recordFailure_congr now w.object e
        intro arn s' hs'
        -- the share was behind the object before, with the sources that it still has
        obtain ⟨s, hfound, hlive⟩ :=
          noneNew_of_error he hattempt arn s' hs'.found hs'.live
        have hs : Behind w.account w.object arn s := ⟨harn ▸ hs'.recorded, hfound, hlive⟩
        show s'.sources = NameSet.ofNames (associatedSources (recordFailure now w.object e))
        rw [hclean e a' hattempt arn s s' hs hs'.found, hsources]
        exact h arn s hs
      | ok out =>
        rw [Situation.step_of_ok hattempt]
        -- on both sides the sources are now the desired ones
        obtain ⟨arn, s, harn, hfound, hbecomes, hremembered⟩ := becomes_of_ok harns he hattempt
        intro arn' s' hs'
        cases harn.symm.trans hs'.recorded
        cases hfound.symm.trans hs'.found
        show s.sources = NameSet.ofNames (associatedSources (w.object.store now (.ok out)))
        rw [hremembered]
        exact (sources_of_becomes hbecomes).2 fun arn t ht x hx => absurd hx (h.not_strays ht x)

end Steps

/-! ## Runs -/

/-- **The sources after a run.** A pass that gets through leaves the share with the desired sources
exactly if it is right about every source that object and share disagreed about before the pass. They
disagree about none unless a pass of the run moved the sources and failed. -/
theorem sources_after_run {w : Situation .share} (harns : w.account.ByArn)
    (hnone : ∀ arn s, ¬ Behind w.account w.object arn s) {events : List (Event .share)}
    (hevents : ∀ e ∈ events, e.Harmless) {region : Option String} {now : Instant} {script : Script}
    (hscript : script.Harmless) {out : Reconciled .share} {a' : Account}
    (hok : (w.run events).attempt region now script = (.ok out, a')) :
    ∃ arn s, ((w.run events).object.store now (.ok out)).arn = some arn ∧
      a'.shares.find? arn = some s ∧
      (s.sources = NameSet.ofNames (w.run events).object.spec.sources ↔
        ∀ arn t, Behind (w.run events).account (w.run events).object arn t →
          ∀ x, Strays (w.run events).object t x →
            (x ∈ t.sources ↔ x ∈ (w.run events).object.spec.sources)) ∧
      (Situation.Along FailsCleanly w events →
        s.sources = NameSet.ofNames (w.run events).object.spec.sources) := by
  have hharmless := Situation.along_of_forall (w := w) hevents
  have harns' : (w.run events).account.ByArn := Situation.run_invariant
    (I := fun w => w.account.ByArn) (fun w e he => Situation.byArn_step he) hharmless harns
  obtain ⟨arn, s, harn, hfound, hbecomes, -⟩ := becomes_of_ok harns' hscript hok
  refine ⟨arn, s, harn, hfound, sources_of_becomes hbecomes, fun hclean => ?_⟩
  -- the sources stay tracked along with the ARNs, by which a pass finds the share again
  have htracked : (w.run events).account.ByArn ∧ Tracked (w.run events) := Situation.run_invariant
    (I := fun w => w.account.ByArn ∧ Tracked w)
    (fun w e he h => ⟨Situation.byArn_step he.1 h.1, tracked_step he.1 he.2 h.1 h.2⟩)
    (hharmless.and hclean) ⟨harns, fun arn s hs => absurd hs (hnone arn s)⟩
  exact (sources_of_becomes hbecomes).2 fun arn t ht x hx =>
    absurd hx (htracked.2.not_strays ht x)

/-! ## A source that is left behind -/

def narrow : ShareSpec := ⟨"team", none, ["read"], [], [], ["a"], []⟩

def wide : ShareSpec := { narrow with permissionArns := ["read", "write"], sources := ["a", "b"] }

/-- The first permission that is attached is refused. -/
def noAttachment : Script :=
  Script.none.set .associateResourceSharePermission
    [.refuse ⟨.other, "AssociateResourceSharePermission", none, "try again later"⟩]

/-- An object of which nothing is known yet, in an empty account. -/
def beginning : Situation .share := ⟨⟨.empty, narrow, none⟩, .empty⟩

/-- The specification is widened, which fails halfway, and then narrowed again. -/
def detour : List (Event .share) :=
  [.pass none .epoch .none, .edit wide, .pass none .epoch noAttachment, .edit narrow]

theorem harmless_noAttachment : noAttachment.Harmless :=
  Script.harmless_none.set fun c hc => by
    cases List.mem_singleton.1 hc
    exact fun h => by cases h

theorem harmless_detour : ∀ e ∈ detour, e.Harmless := by
  intro e he
  simp only [detour, List.mem_cons, List.not_mem_nil, or_false] at he
  rcases he with rfl | rfl | rfl | rfl
  · exact Script.harmless_none
  · trivial
  · exact harmless_noAttachment
  · trivial

theorem absent_beginning (arn : String) (s : ShareRecord) :
    ¬ Behind beginning.account beginning.object arn s := fun h => by cases h.recorded

/-- A pass at the end of the detour gets through, and the share has both sources. -/
theorem attempt_detour :
    ∃ out a' s, (beginning.run detour).attempt none .epoch .none = (.ok out, a') ∧
      a'.shares.find? (shareArn "team") = some s ∧ s.sources.toList = ["a", "b"] := by
  have hend : (((beginning.run detour).attempt none .epoch .none).1.isOk,
      (((beginning.run detour).attempt none .epoch .none).2.shares.find?
        (shareArn "team")).map fun s => s.sources.toList) = (true, some ["a", "b"]) := by
    decide +kernel
  obtain ⟨hok, hshare⟩ := Prod.mk.inj hend
  obtain ⟨out, a', hattempt⟩ := exists_of_isOk hok
  rw [hattempt] at hshare
  obtain ⟨s, hs, hlist⟩ := Option.map_eq_some_iff.1 hshare
  exact ⟨out, a', s, hattempt, hs, hlist⟩

/-- The condition at the end of the detour. -/
theorem sources_after_detour :
    ∃ out a', (beginning.run detour).attempt none .epoch .none = (.ok out, a') ∧
      ∃ arn s, ((beginning.run detour).object.store .epoch (.ok out)).arn = some arn ∧
        a'.shares.find? arn = some s ∧
        (s.sources = NameSet.ofNames (beginning.run detour).object.spec.sources ↔
          ∀ arn t, Behind (beginning.run detour).account (beginning.run detour).object arn t →
            ∀ x, Strays (beginning.run detour).object t x →
              (x ∈ t.sources ↔ x ∈ (beginning.run detour).object.spec.sources)) ∧
        (Situation.Along FailsCleanly beginning detour →
          s.sources = NameSet.ofNames (beginning.run detour).object.spec.sources) := by
  obtain ⟨out, a', -, hok, -⟩ := attempt_detour
  exact ⟨out, a', hok, sources_after_run byArn_empty absent_beginning harmless_detour
    Script.harmless_none hok⟩

/-- **A source that is left behind.** The desired source is `a`, the pass gets through, and the share
has `b` as well. -/
theorem sources_left_behind :
    (∀ e ∈ detour, e.Harmless) ∧ (beginning.run detour).object.spec.sources = ["a"] ∧
      ∃ out a', (beginning.run detour).attempt none .epoch .none = (.ok out, a') ∧
        ∃ s, a'.shares.find? (shareArn "team") = some s ∧ s.sources.toList = ["a", "b"] ∧
          s.sources ≠ NameSet.ofNames (beginning.run detour).object.spec.sources := by
  refine ⟨harmless_detour, rfl, ?_⟩
  obtain ⟨out, a', s, hok, hs, hlist⟩ := attempt_detour
  refine ⟨out, a', hok, s, hs, hlist, fun h => ?_⟩
  rw [h] at hlist
  exact absurd hlist (by decide)

end ShareKeeper.Share
