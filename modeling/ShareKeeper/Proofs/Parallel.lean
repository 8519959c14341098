import ShareKeeper.Proofs.Pass

/-!
# Passes in parallel

Two passes run in parallel if they make the same requests for all answers alike, note the same, and
come to the same end: both fail with one failure, or both get through with results that are related
(`Pass.Parallel`). This goes along `bind`, so that it is shown for the parts of a pass one by one.
Against one service, passes in parallel have the same transcript and leave the same state.
-/

namespace ShareKeeper

namespace Pass

variable {α α' β β' σ : Type}

/-- Two ends of passes: both fail alike, or both get through with results that are related. -/
inductive SameEnd (R : α → α' → Prop) : Except Failure α → Except Failure α' → Prop
  | ok {a : α} {a' : α'} (h : R a a') : SameEnd R (.ok a) (.ok a')
  | error (e : Failure) : SameEnd R (.error e) (.error e)

/-- Two passes that make the same requests for all answers alike, note the same, and come to the same
end. -/
inductive Parallel (R : α → α' → Prop) : Pass α → Pass α' → Prop
  | done {a : α} {a' : α'} (h : R a a') : Parallel R (.done a) (.done a')
  | fail (e : Failure) : Parallel R (.fail e) (.fail e)
  | call {r : Request} {next : Answer r → Pass α} {next' : Answer r → Pass α'}
      (h : ∀ answer, Parallel R (next answer) (next' answer)) :
      Parallel R (.call r next) (.call r next')
  | note (c : CallRecord) {p : Pass α} {p' : Pass α'} (h : Parallel R p p') :
      Parallel R (.note c p) (.note c p')

section Parallel

variable {R : α → α' → Prop} {S : β → β' → Prop}

theorem Parallel.bind {p : Pass α} {p' : Pass α'} {f : α → Pass β} {f' : α' → Pass β'}
    (hp : Parallel R p p') (hf : ∀ a a', R a a' → Parallel S (f a) (f' a')) :
    Parallel S (p >>= f) (p' >>= f') := by
  rw [bind_eq, bind_eq]
  induction hp with
  | done h => exact hf _ _ h
  | fail e => exact .fail e
  | call _ ih => exact .call ih
  | note c _ ih => exact .note c ih

/-- A part that is the same in both. -/
theorem Parallel.bind_same (p : Pass α) {f : α → Pass β} {f' : α → Pass β'}
    (hf : ∀ a, Parallel S (f a) (f' a)) : Parallel S (p >>= f) (p >>= f') := by
  rw [bind_eq, bind_eq]
  induction p with
  | done a => exact hf a
  | fail e => exact .fail e
  | call r next ih => exact .call ih
  | note c next ih => exact .note c ih

theorem Parallel.attempt {p : Pass α} {p' : Pass α'} (hp : Parallel R p p') :
    Parallel (SameEnd R) p.attempt p'.attempt := by
  induction hp with
  | done h => exact .done (.ok h)
  | fail e => exact .done (.error e)
  | call _ ih => exact .call ih
  | note c _ ih => exact .note c ih

variable {p : Pass α} {p' : Pass α'}

/-- **Against one service, parallel passes ask for the same.** -/
theorem Parallel.transcript_eq (hp : Parallel R p p') (service : Service σ) (s : σ) :
    transcript service p' s = transcript service p s := by
  induction hp generalizing s with
  | done h => rfl
  | fail e => rfl
  | @call r next next' _ ih =>
    exact congrArg (⟨r, (service r s).1⟩ :: ·) (ih (service r s).1 (service r s).2)
  | note c _ ih => exact ih s

theorem Parallel.state_eq (hp : Parallel R p p') (service : Service σ) (s : σ) :
    (run service p' s).2 = (run service p s).2 := by
  induction hp generalizing s with
  | done h => rfl
  | fail e => rfl
  | @call r next next' _ ih => exact ih (service r s).1 (service r s).2
  | note c _ ih => exact ih s

/-- In one session, parallel passes are journaled and counted alike. -/
theorem Parallel.session_eq (hp : Parallel R p p') (service : Service σ) (s : Session σ) :
    (Session.run service p' s).2 = (Session.run service p s).2 := by
  induction hp generalizing s with
  | done h => rfl
  | fail e => rfl
  | @call r next next' _ ih => exact ih (s.send service r).1 (s.send service r).2
  | note c _ ih => exact ih (s.count c)

theorem Parallel.sameEnd (hp : Parallel R p p') (service : Service σ) (s : σ) :
    SameEnd R (run service p s).1 (run service p' s).1 := by
  induction hp generalizing s with
  | done h => exact .ok h
  | fail e => exact .error e
  | @call r next next' _ ih => exact ih (service r s).1 (service r s).2
  | note c _ ih => exact ih s

end Parallel

end Pass

end ShareKeeper
