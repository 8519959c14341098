import ShareKeeper.Proofs.Share.Between
import ShareKeeper.Proofs.Share.Convergence
import ShareKeeper.Proofs.Share.Sources

/-!
# Updates that are resumed

A pass over a share that is refused somewhere leaves the account changed in part, and the object as it
was but for its conditions. The next pass looks again at everything but the sources, which it takes
from what the object remembers, and starts anew from what it finds. After however many passes that
failed, wherever they stopped, one that is not refused anything ends as it would have without them
(`resumed`).
-/

namespace ShareKeeper

open Account Pass

/-- A script of refusals, by none of which a look is told that something is absent. -/
def Script.Interrupts (script : Script) : Prop :=
  script.Refuses fun o e => o.isRead = true → e.IsTrouble

/-- Two accounts that differ at most in how the tags of their shares are listed. -/
structure Account.Alike (a b : Account) : Prop where
  permissions : a.permissions = b.permissions
  shares : ∀ arn, (a.shares.find? arn).map ShareRecord.normal
    = (b.shares.find? arn).map ShareRecord.normal

theorem Account.Alike.refl (a : Account) : a.Alike a := ⟨rfl, fun _ => rfl⟩

/-- The same account with a share in two states that differ in how its tags are listed. -/
theorem Account.alike_putShare (a : Account) {s t : ShareRecord} (h : s.normal = t.normal) :
    (a.putShare s).Alike (a.putShare t) where
  permissions := rfl
  shares arn := by
    have harn : s.normal.arn = t.normal.arn := by rw [h]
    change s.arn = t.arn at harn
    rw [find?_putShare, find?_putShare, harn]
    split
    · exact congrArg some h
    · rfl

/-! ## Looks -/

/-- **A look under a script of interruptions** tells the truth, or it fails for trouble. -/
theorem Pass.run_stage_look {α : Type} {p : Pass α}
    (hasks : p.Asks fun q => q.operation.isRead = true) (hstops : p.StopsOn ApiError.IsTrouble)
    {s : Stage} (hs : s.script.Interrupts) :
    (run Stage.serve p s).2.script.Interrupts ∧ (run Stage.serve p s).2.account = s.account ∧
      ((run Stage.serve p s).1 = (run Account.serve p s.account).1 ∨
        ∃ e, e.IsTrouble ∧ (run Stage.serve p s).1 = .error (.api e)) := by
  induction p generalizing s with
  | done a => exact ⟨hs, rfl, .inl rfl⟩
  | fail e => exact ⟨hs, rfl, .inl rfl⟩
  | call q next ih =>
    rw [run_call, run_call, serve_look hasks.1]
    obtain ⟨hscript, ⟨hanswer, haccount⟩ | ⟨e, he, hanswer, haccount⟩⟩ := Stage.serve_refuses hs q
    · rw [serve_look hasks.1] at haccount
      have hrest := ih (Stage.serve q s).1 (hasks.2 _) (hstops.2 _) hscript
      rw [haccount] at hrest
      rw [← hanswer]
      exact hrest
    · -- trouble is not absence, so the look ends here
      rw [hanswer, (hstops.1 e (he hasks.1)).run_eq]
      exact ⟨hscript, haccount, .inr ⟨e, he hasks.1, rfl⟩⟩
  | note c next ih => exact ih hasks hstops hs

namespace Share

variable {r : Share} {a : Account} {arn : String} {s u : ShareRecord}

/-- What a look under a script of interruptions comes to. -/
theorem look_cases {x : Except Failure Share} {st st' : Stage} {heard : List Exchange}
    (hscript : st.script.Interrupts) (h : Dialogue Stage.serve (readOne r) st heard x st') :
    st'.script.Interrupts ∧ st'.account = st.account ∧
      ((run serve (readOne r) st.account).1 = x ∨ ∃ e, e.isNotFound = false ∧ x = .error e) := by
  obtain ⟨hs, haccount, hout⟩ := run_stage_look (asks_readOne r) (stopsOn_readOne r) hscript
  rw [h.run_eq] at hs haccount hout
  refine ⟨hs, haccount, hout.imp Eq.symm ?_⟩
  rintro ⟨e, he, hx⟩
  exact ⟨.api e, he.isNotFound_eq, hx⟩

/-! ## One pass that fails -/

section Failing

variable {region : Option String} {now : Instant} {st st' : Stage} {heard : List Exchange}
  {e : Failure}

variable (region now) in
/-- An object that is turned down changes nothing. -/
theorem run_rejected {σ : Type} (service : Service σ) (t : σ) (hvalid : validate r = .error e) :
    run service (reconcile manager region now r) t = (.error e, t) := by
  rw [reconcile, show manager.validate r = .error e from hvalid]
  rfl

/-- **A pass that fails before there is a share changes nothing.** -/
theorem account_of_absent
    (h : Dialogue Stage.serve (reconcile manager region now r) st heard (.error e) st')
    (hscript : st.script.Interrupts) (hnone : ∀ arn s, ¬ Behind st.account r arn s) :
    st'.account = st.account := by
  obtain ⟨e', asked, -, hvain⟩ := course_readOne_absent hnone
  have hwalk := walk_of_dialogue (k := .share) h
  generalize hended : Except.error e = ended at hwalk
  cases hwalk with
  | rejected => rfl
  | lost _ hlook _ => exact (look_cases hscript hlook).2.1
  | @created looks said e s₁ s' created hvalid hlook he hcreate =>
    obtain ⟨hs, haccount, -⟩ := look_cases hscript hlook
    obtain ⟨answer, hserve, -, ⟨e', rfl, -⟩ | ⟨v, x, -, rfl, -⟩⟩ := create_cases hcreate
    · -- a creation that is not refused by the script is granted
      obtain ⟨-, ⟨hanswer, -⟩ | ⟨e'', -, -, hsame⟩⟩ :=
        Stage.serve_refuses hs (Resource.creation (k := .share) r)
      · rw [hserve] at hanswer
        cases hanswer
      · rw [hserve] at hsame
        exact hsame.trans haccount
    · cases hended
  | found _ hlook _ =>
    obtain ⟨-, -, htrue | ⟨e'', -, hfailed⟩⟩ := look_cases hscript hlook
    · cases (congrArg Prod.fst hvain.run_eq).symm.trans htrue
    · cases hfailed

/-- The account is as it was but for a share that is on the way from its state `s`, and nothing but
interruptions are prepared. -/
def OnTheWay (r : Share) (a : Account) (s : ShareRecord) (st : Stage) : Prop :=
  st.script.Interrupts ∧ ∃ v, st.account = a.putShare v ∧ s.Between (settled r s) v

/-- **A pass that fails leaves the share on the way,** if it found it there. -/
theorem between_of_behind
    (h : Dialogue Stage.serve (reconcile manager region now r) st heard (.error e) st')
    (hscript : st.script.Interrupts) (hbehind : Behind st.account r arn u)
    (haccount : st.account = a.putShare u) (hself : ∀ x ∈ u.detail.arn, x = arn)
    (hkey : s.arn = arn) (hu : s.Between (settled r s) u) :
    ∃ v, st'.account = a.putShare v ∧ s.Between (settled r s) v := by
  have hwalk := walk_of_dialogue (k := .share) h
  generalize hended : Except.error e = ended at hwalk
  have hseen := congrArg Prod.fst (course_readOne hbehind).run_eq
  cases hwalk with
  | rejected => exact ⟨u, haccount, hu⟩
  | lost _ hlook _ => exact ⟨u, (look_cases hscript hlook).2.1.trans haccount, hu⟩
  | @created looks said e s₁ s' created hvalid hlook he hcreate =>
    obtain ⟨-, -, htrue | ⟨e'', he'', hfailed⟩⟩ := look_cases hscript hlook
    · cases hseen.symm.trans htrue
    · cases hfailed
      rw [he''] at he
      cases he
  | @found looks said latest s₁ s' x hvalid hlook hline =>
    obtain ⟨hs, hsame, htrue | ⟨e'', -, hfailed⟩⟩ := look_cases hscript hlook
    · cases hseen.symm.trans htrue
      -- nothing is asked for but what is planned for the share as it was found
      have hasks : (bringInLine (Kind.manager .share) r (seen r u)).Asks (· ∈ plan r arn u.view) :=
        asks_plan (seen_arn hself hbehind.recorded)
      have hstep : ∀ q st, q ∈ plan r arn u.view → OnTheWay r a s st →
          OnTheWay r a s (Stage.serve q st).2 := by
        rintro q st hq ⟨hs, v, hv, hbetween⟩
        obtain ⟨hs', ⟨-, hacc⟩ | ⟨-, -, -, hacc⟩⟩ := Stage.serve_refuses hs q
        · rw [hv] at hacc
          obtain ⟨w, hw, hbetween'⟩ := between_serve (a := a) hkey hu hq hbetween
          exact ⟨hs', w, hacc.trans hw, hbetween'⟩
        · exact ⟨hs', v, hacc.trans hv, hbetween⟩
      have hend := run_invariant hasks hstep ⟨hs, u, hsame.trans haccount, hu⟩
      rw [hline.run_eq] at hend
      exact hend.2
    · cases hfailed

end Failing

/-! ## Runs of passes that fail -/

/-- A pass that fails, while nothing but interruptions are prepared for it. -/
def Interrupted (w : Situation .share) : Event .share → Prop
  | .edit _ => False
  | .pass region now script =>
    script.Interrupts ∧ (w.attempt region now script).1.isOk = false

/-- The object asks for the same share and remembers the same of it. -/
structure SameWish (r r' : Share) : Prop where
  object : r' = { r with status := r'.status }
  arn : r'.arn = r.arn
  sources : associatedSources r' = associatedSources r

namespace SameWish

variable {r' : Share} (h : SameWish r r')
include h

theorem spec : r'.spec = r.spec := by rw [h.object]

theorem validate_eq : validate r' = validate r := by rw [h.object]; rfl

theorem input_eq : input r' = input r := by rw [h.object]; rfl

theorem behind_iff {b : Account} : Behind b r' arn s ↔ Behind b r arn s :=
  ⟨fun hb => ⟨h.arn ▸ hb.recorded, hb.found, hb.live⟩,
    fun hb => ⟨h.arn.trans hb.recorded, hb.found, hb.live⟩⟩

theorem settled_eq (s : ShareRecord) : settled r' s = settled r s := by
  have hstale : settingsStale r' s.detail = settingsStale r s.detail := by
    rw [settingsStale, h.spec, settingsStale]
  rw [settled, settled, withSettings, withSettings, settingsDiffer_eq, settingsDiffer_eq, hstale,
    h.spec, h.sources]

theorem recordFailure (now : Instant) (e : Failure) : SameWish r (recordFailure now r' e) where
  object := by
    conv => lhs; rw [h.object]
    rfl
  arn := (recordFailure_congr now r' e).1.trans h.arn
  sources := (recordFailure_congr now r' e).2.trans h.sources

end SameWish

/-- A share on the way is listed as in the beginning. -/
theorem behind_of_between (hs : Behind a r arn s) (hu : s.Between (settled r s) u) :
    Behind (a.putShare u) r arn u ∧ u.detail.arn = s.detail.arn := by
  have hend : ∀ {α : Type} (f : ShareDetail → α), (∀ d, f (reset r d) = f d) →
      f (settled r s).detail.untagged = f s.detail.untagged := by
    intro α f hf
    rw [untagged_settled]
    split
    · exact hf _
    · rfl
  have hsame : ∀ {α : Type} (f : ShareDetail → α), (∀ d, f (reset r d) = f d) →
      f u.detail.untagged = f s.detail.untagged := by
    intro α f hf
    rcases hu.detail with h | h
    · rw [h]
    · rw [h, hend f hf]
  have hstatus : u.detail.status = s.detail.status := hsame ShareDetail.status fun _ => rfl
  refine ⟨⟨hs.recorded, putShare_find? (hu.arn.trans (Roster.key_of_find? hs.found)), ?_⟩,
    hsame ShareDetail.arn fun _ => rfl⟩
  rw [hstatus]
  exact hs.live

/-- What passes that fail make of an object and its account. -/
structure Resumable (r : Share) (a : Account) (w : Situation .share) : Prop where
  wish : SameWish r w.object
  /-- The account is as it was, or the share of the object is on the way. -/
  account : w.account = a ∨ validate r = .ok () ∧
    ∃ arn s u, Behind a r arn s ∧ w.account = a.putShare u ∧ s.Between (settled r s) u

/-- The share of the object, wherever on the way it is. -/
theorem Resumable.between {w : Situation .share} (h : Resumable r a w) (hs : Behind a r arn s) :
    ∃ u, w.account = a.putShare u ∧ s.Between (settled r s) u := by
  rcases h.account with hsame | ⟨-, arn', s', u, hs', hput, hu⟩
  · exact ⟨s, hsame.trans (putShare_self hs.found).symm, .start _ _⟩
  · cases hs.recorded.symm.trans hs'.recorded
    cases hs.found.symm.trans hs'.found
    exact ⟨u, hput, hu⟩

/-- Where there is no share the account is as it was. -/
theorem Resumable.absent {w : Situation .share} (h : Resumable r a w)
    (hnone : ∀ arn s, ¬ Behind a r arn s) : w.account = a := by
  rcases h.account with hsame | ⟨-, arn, s, -, hs, -⟩
  · exact hsame
  · exact absurd hs (hnone arn s)

/-- **A pass that fails can be resumed,** as could what it found. -/
theorem resumable_step (harns : a.ByArn) {w : Situation .share} {event : Event .share}
    (hevent : Interrupted w event) (h : Resumable r a w) : Resumable r a (w.step event) := by
  cases event with
  | edit spec => exact hevent.elim
  | pass region now script =>
    obtain ⟨hscript, hfailed⟩ := hevent
    cases hattempt : w.attempt region now script with
    | mk out a' =>
      cases out with
      | ok out =>
        rw [hattempt] at hfailed
        cases hfailed
      | error e =>
        rw [Situation.step_of_error hattempt]
        refine ⟨h.wish.recordFailure now e, ?_⟩
        obtain ⟨st', hrun, rfl⟩ := Situation.exists_run_of_attempt hattempt
        show st'.account = a ∨ _
        cases hvalid : validate r with
        | error e' =>
          -- turned down every time, before anything is asked for
          have hrejected := run_rejected region now Stage.serve ⟨w.account, script⟩
            (h.wish.validate_eq.trans hvalid)
          cases hrun.symm.trans hrejected
          rcases h.account with hsame | ⟨hok, -⟩
          · exact .inl hsame
          · cases hok.symm.trans hvalid
        | ok =>
          by_cases hbehind : ∃ arn s, Behind a r arn s
          · -- the way leads on from `u`, which is on the way from `s`
            obtain ⟨arn, s, hs⟩ := hbehind
            obtain ⟨u, hput, hu⟩ := h.between hs
            obtain ⟨hfound, harn⟩ := behind_of_between hs hu
            have hself : ∀ x ∈ u.detail.arn, x = arn := harn ▸ harns.shares arn s hs.found
            rw [← hput, ← h.wish.behind_iff] at hfound
            rw [← h.wish.settled_eq] at hu
            obtain ⟨v, hv, hbetween⟩ := between_of_behind (Dialogue.of_run hrun) hscript hfound hput
              hself (Roster.key_of_find? hs.found) hu
            rw [h.wish.settled_eq] at hbetween
            exact .inr ⟨rfl, arn, s, v, hs, hv, hbetween⟩
          · have hnone : ∀ arn s, ¬ Behind a r arn s := fun arn s hs => hbehind ⟨arn, s, hs⟩
            have hsame := h.absent hnone
            refine .inl ((account_of_absent (Dialogue.of_run hrun) hscript fun arn s hs => ?_).trans
              hsame)
            rw [h.wish.behind_iff] at hs
            exact hnone arn s (hsame ▸ hs)

/-- **Updates are resumable.** After any passes that failed, wherever they stopped, a pass that is not
refused anything ends in the same way as it would have without them, and leaves the same account but
for the order in which tags are listed. -/
theorem resumed (harns : a.ByArn) {events : List (Event .share)}
    (hevents : Situation.Along Interrupted ⟨r, a⟩ events) (region : Option String) (now : Instant) :
    (run serve (reconcile manager region now (Situation.run ⟨r, a⟩ events).object)
        (Situation.run ⟨r, a⟩ events).account).1.isOk
        = (run serve (reconcile manager region now r) a).1.isOk ∧
      (run serve (reconcile manager region now (Situation.run ⟨r, a⟩ events).object)
        (Situation.run ⟨r, a⟩ events).account).2.Alike
        (run serve (reconcile manager region now r) a).2 := by
  have hbegin : Resumable r a ⟨r, a⟩ := ⟨⟨rfl, rfl, rfl⟩, .inl rfl⟩
  have h := Situation.run_invariant (fun w e he hw => resumable_step harns he hw) hevents hbegin
  generalize Situation.run ⟨r, a⟩ events = w at h
  cases hvalid : validate r with
  | error e =>
    have hsame : w.account = a := h.account.resolve_right fun hok => by
      cases hok.1.symm.trans hvalid
    rw [run_rejected region now serve w.account (h.wish.validate_eq.trans hvalid),
      run_rejected region now serve a hvalid, hsame]
    exact ⟨rfl, .refl a⟩
  | ok =>
    have hvalid' : validate w.object = .ok () := h.wish.validate_eq.trans hvalid
    by_cases hbehind : ∃ arn s, Behind a r arn s
    · obtain ⟨arn, s, hs⟩ := hbehind
      obtain ⟨u, hput, hu⟩ := h.between hs
      obtain ⟨hfound, harn⟩ := behind_of_between hs hu
      have hself := harns.shares arn s hs.found
      rw [← hput, ← h.wish.behind_iff] at hfound
      obtain ⟨x, -, hdirect⟩ := course_reconcile_behind hs hself hvalid region now
      obtain ⟨y, -, hlater⟩ := course_reconcile_behind hfound (harn ▸ hself) hvalid' region now
      -- one pass starts from `s` and the other from `u`, and they settle the same share
      have hover : (a.putShare u).putShare (settled r u) = a.putShare (settled r u) :=
        putShare_putShare rfl
      rw [hdirect.run_eq, hlater.run_eq, hput, h.wish.settled_eq, hover]
      exact ⟨rfl, alike_putShare a (normal_settled hu)⟩
    · have hnone : ∀ arn s, ¬ Behind a r arn s := fun arn s hs => hbehind ⟨arn, s, hs⟩
      have hsame := h.absent hnone
      have hnone' : ∀ arn s, ¬ Behind w.account w.object arn s := fun arn s hs =>
        hnone arn s (hsame ▸ h.wish.behind_iff.1 hs)
      obtain ⟨asked, hdirect⟩ := course_reconcile_absent hnone hvalid region now
      obtain ⟨asked', hlater⟩ := course_reconcile_absent hnone' hvalid' region now
      rw [hdirect.run_eq, hlater.run_eq, hsame, h.wish.input_eq]
      exact ⟨rfl, .refl _⟩

/-! ## A share that is refused its permission -/

/-- The share of the team, which is to become the crew's. -/
def crew : Share := recorded crewSpec (shareArn "team") ["a"]

/-- Two passes: the first is refused its tags, and the second its permission. -/
def stops : List (Event .share) :=
  [.pass none .epoch (Script.none.set .tagResource
      [.refuse ⟨.other, "TagResource", none, "try again later"⟩]),
    .pass none .epoch noAttachment]

theorem interrupted_stops :
    Situation.Along Interrupted ⟨crew, (serve (.createShare teamInput) .empty).2⟩ stops := by
  have hrefusal : ∀ {o : Operation} {e : ApiError}, e.IsTrouble →
      (Script.none.set o [.refuse e]).Interrupts := by
    intro o e he
    refine Script.forall_set (fun _ _ h => absurd h List.not_mem_nil) fun c hc => ?_
    cases List.mem_singleton.1 hc
    exact fun _ => he
  exact ⟨⟨hrefusal fun h => (by cases h), by decide +kernel⟩,
    ⟨hrefusal fun h => (by cases h), by decide +kernel⟩, trivial⟩

theorem resumed_crew :
    (run serve (reconcile manager none .epoch
        (Situation.run ⟨crew, (serve (.createShare teamInput) .empty).2⟩ stops).object)
        (Situation.run ⟨crew, (serve (.createShare teamInput) .empty).2⟩ stops).account).1.isOk
        = (run serve (reconcile manager none .epoch crew)
          (serve (.createShare teamInput) .empty).2).1.isOk ∧
      (run serve (reconcile manager none .epoch
        (Situation.run ⟨crew, (serve (.createShare teamInput) .empty).2⟩ stops).object)
        (Situation.run ⟨crew, (serve (.createShare teamInput) .empty).2⟩ stops).account).2.Alike
        (run serve (reconcile manager none .epoch crew) (serve (.createShare teamInput) .empty).2).2 :=
  resumed (byArn_serve (.createShare teamInput) byArn_empty) interrupted_stops none .epoch

end Share

end ShareKeeper
