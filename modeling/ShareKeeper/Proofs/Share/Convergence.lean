import ShareKeeper.Proofs.Share.Course

/-!
# Shares converge

Whatever an account looks like, one pass over a resource share succeeds and leaves behind a share
that is what the specification asks for (`Share.reconcile_meets`). A share that is there already has
to report its name, for the observation takes a missing one for the desired one, and its sources have
to be the remembered ones, for nobody can look at them.
-/

namespace ShareKeeper.Share

open Account Pass

/-- A share that is what a specification asks for. -/
structure Meets (spec : ShareSpec) (s : ShareRecord) : Prop extends Accords spec s where
  live : s.detail.status ≠ some deletedState
  reported : s.detail.name = some spec.name
  sources : s.sources = NameSet.ofNames spec.sources

section Settled

variable {r : Share} {s : ShareRecord}

/-- A name that is reported before an update is reported after it. -/
theorem name_settled (h : s.detail.name.isSome = true) :
    (settled r s).detail.name = some r.spec.name := by
  have hsome : (settled r s).detail.name.isSome = true := by
    show (withSettings r s).detail.name.isSome = true
    rw [withSettings]
    split
    · rfl
    · exact h
  obtain ⟨name, hname⟩ := Option.isSome_iff_exists.1 hsome
  have hdesired := (settings_settled r s).1
  rw [hname] at hdesired ⊢
  exact congrArg some hdesired

/-- Sources that are remembered truly become the desired ones. -/
theorem sources_settled (h : s.sources = NameSet.ofNames (associatedSources r)) :
    (settled r s).sources = NameSet.ofNames r.spec.sources := by
  refine track_eq_iff.2 fun x hx => absurd ?_ hx
  rw [h, NameSet.mem_ofNames]

end Settled

/-! ## Passes -/

/-- **A pass over a share makes it what the specification asks for.** -/
theorem reconcile_meets {a : Account} {r : Share} (harns : a.ByArn) (hvalid : validate r = .ok ())
    (hbefore : ∀ arn s, Behind a r arn s → s.detail.name.isSome = true ∧
      s.sources = NameSet.ofNames (associatedSources r))
    (region : Option String) (now : Instant) :
    ∃ out a', run serve (reconcile manager region now r) a = (.ok out, a') ∧
      ∃ arn s, (r.store now (.ok out)).arn = some arn ∧ a'.shares.find? arn = some s ∧
        Meets r.spec s ∧
        ∀ x, x ∈ associatedSources (r.store now (.ok out)) ↔ x ∈ r.spec.sources := by
  obtain ⟨out, a', arn, s, hrun, harn, hfound, hbecomes, hremembered⟩ :=
    reconcile_becomes harns hvalid region now
  refine ⟨out, a', hrun, arn, s, harn, hfound, ?_, NameSet.ofNames_eq_iff.1 hremembered⟩
  have haccords := hbecomes.accords
  have hlive := hbecomes.live
  cases hbecomes with
  | @updated arn s h =>
    obtain ⟨hname, hsources⟩ := hbefore arn s h
    exact ⟨haccords, hlive, name_settled hname, sources_settled hsources⟩
  | created => exact ⟨haccords, hlive, rfl, rfl⟩

/-- An object that has its share and remembers some sources. -/
def recorded (spec : ShareSpec) (arn : String) (sources : List String) : Share where
  metadata := .empty
  spec
  status := some { Kind.emptyStatus .share with
    identity := some ⟨some arn, none, none⟩
    facts := ⟨none, none, sources⟩ }

def teamInput : ShareInput := ⟨"team", none, [], ["1111"], ["subnet"], ["a"], []⟩

def crewSpec : ShareSpec :=
  ⟨"crew", some false, ["read"], ["1111", "2222"], [], ["b", "b"], [⟨"stage", "x"⟩, ⟨"stage", "y"⟩]⟩

/-- A share that is renamed and gets another source. -/
theorem crew_meets :
    ∃ out a', run serve (reconcile manager none .epoch
        (recorded crewSpec (shareArn "team") ["a"])) (serve (.createShare teamInput) .empty).2
        = (.ok out, a') ∧
      ∃ arn s, ((recorded crewSpec (shareArn "team") ["a"]).store .epoch (.ok out)).arn = some arn ∧
        a'.shares.find? arn = some s ∧ Meets crewSpec s ∧
        ∀ x, x ∈ associatedSources
          ((recorded crewSpec (shareArn "team") ["a"]).store .epoch (.ok out)) ↔ x ∈ ["b", "b"] := by
  refine reconcile_meets (byArn_serve (.createShare teamInput) byArn_empty) rfl ?_ none .epoch
  rintro arn s ⟨harn, hfound, -⟩
  cases harn
  have hteam : (serve (.createShare teamInput) empty).2.shares.find? (shareArn "team")
      = some (newShare teamInput) := putShare_find? (a := empty) (s := newShare teamInput) rfl
  cases hteam.symm.trans hfound
  exact ⟨rfl, rfl⟩

end ShareKeeper.Share
