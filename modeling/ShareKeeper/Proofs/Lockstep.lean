import ShareKeeper.Proofs.Parallel

/-!
# Passes in lockstep

Two passes go in lockstep if they make the same requests as long as they are answered alike, where what
counts as alike is a relation of replies (`Pass.Lockstep`). Passes in parallel are those that need the
very same answers. Here one pass may be made against one service and the other against another, and the
two services may tell different things: as long as these are alike, the passes ask for the same and come
to the same end, and what relates the states of the two services before relates them after
(`Lockstep.run`).
-/

namespace ShareKeeper

namespace Pass

variable {α α' β β' σ σ' : Type} {like : (r : Request) → r.Reply → r.Reply → Prop}

/-- Two answers to one request: both refuse it for the same reason, or the replies are alike. -/
inductive SameAnswer (like : (r : Request) → r.Reply → r.Reply → Prop) {r : Request} :
    Answer r → Answer r → Prop
  | ok {v w : r.Reply} (h : like r v w) : SameAnswer like (.ok v) (.ok w)
  | error (e : ApiError) : SameAnswer like (.error e) (.error e)

/-- Two passes that make the same requests and come to the same end, as long as they are answered
alike. -/
inductive Lockstep (like : (r : Request) → r.Reply → r.Reply → Prop) (R : α → α' → Prop) :
    Pass α → Pass α' → Prop
  | done {a : α} {a' : α'} (h : R a a') : Lockstep like R (.done a) (.done a')
  | fail (e : Failure) : Lockstep like R (.fail e) (.fail e)
  | call {r : Request} {next : Answer r → Pass α} {next' : Answer r → Pass α'}
      (h : ∀ x y, SameAnswer like x y → Lockstep like R (next x) (next' y)) :
      Lockstep like R (.call r next) (.call r next')
  | note (c : CallRecord) {p : Pass α} {p' : Pass α'} (h : Lockstep like R p p') :
      Lockstep like R (.note c p) (.note c p')

section Lockstep

variable {R : α → α' → Prop} {S : β → β' → Prop}

theorem Lockstep.bind {p : Pass α} {p' : Pass α'} {f : α → Pass β} {f' : α' → Pass β'}
    (hp : Lockstep like R p p') (hf : ∀ a a', R a a' → Lockstep like S (f a) (f' a')) :
    Lockstep like S (p >>= f) (p' >>= f') := by
  rw [bind_eq, bind_eq]
  induction hp with
  | done h => exact hf _ _ h
  | fail e => exact .fail e
  | call _ ih => exact .call ih
  | note c _ ih => exact .note c ih

/-- A part with the same result in both. -/
theorem Lockstep.bind_same {p p' : Pass α} {f : α → Pass β} {f' : α → Pass β'}
    (hp : Lockstep like Eq p p') (hf : ∀ a, Lockstep like S (f a) (f' a)) :
    Lockstep like S (p >>= f) (p' >>= f') := by
  refine hp.bind ?_
  rintro a _ rfl
  exact hf a

theorem Lockstep.attempt {p : Pass α} {p' : Pass α'} (hp : Lockstep like R p p') :
    Lockstep like (SameEnd R) p.attempt p'.attempt := by
  induction hp with
  | done h => exact .done (.ok h)
  | fail e => exact .done (.error e)
  | call _ ih => exact .call ih
  | note c _ ih => exact .note c ih

/-- What was found out in both without the service. -/
theorem SameEnd.lockstep_lift {x : Except Failure α} {y : Except Failure α'} (h : SameEnd R x y) :
    Lockstep like R (Pass.lift x) (Pass.lift y) := by
  cases h with
  | ok h => exact .done h
  | error e => exact .fail e

theorem lockstep_lift (x : Except Failure α) : Lockstep like Eq (Pass.lift x) (Pass.lift x) := by
  cases x with
  | ok a => exact .done rfl
  | error e => exact .fail e

theorem lockstep_recorded {label : CallLabel} (r : Request) :
    Lockstep like (like r) (ask r >>= record label) (ask r >>= record label) := by
  refine .call fun x y h => ?_
  cases h with
  | ok h => exact .note _ (.done h)
  | error e => exact .note _ (.fail (.api e))

/-- Of requests that are only to be granted, the replies do not matter. -/
theorem lockstep_askAll {label : CallLabel} (l : List Request) :
    Lockstep like Eq (askAll label l) (askAll label l) := by
  induction l with
  | nil => exact .done rfl
  | cons r rest ih => exact (lockstep_recorded r).bind fun _ _ _ => ih

/-- **Against services that answer alike, passes in lockstep ask for the same and come to the same
end.** -/
theorem Lockstep.run {p : Pass α} {p' : Pass α'} (hp : Lockstep like R p p') {service : Service σ}
    {service' : Service σ'} {inv : σ → σ' → Prop}
    (hstep : ∀ r s s', inv s s' → SameAnswer like (service r s).1 (service' r s').1 ∧
      inv (service r s).2 (service' r s').2) {s : σ} {s' : σ'} (hs : inv s s') :
    requests service' p' s' = requests service p s ∧
      SameEnd R (Pass.run service p s).1 (Pass.run service' p' s').1 ∧
      inv (Pass.run service p s).2 (Pass.run service' p' s').2 := by
  induction hp generalizing s s' with
  | done h => exact ⟨rfl, .ok h, hs⟩
  | fail e => exact ⟨rfl, .error e, hs⟩
  | @call r next next' _ ih =>
    obtain ⟨hanswer, hnext⟩ := hstep r s s' hs
    obtain ⟨hrequests, hend, hstate⟩ := ih _ _ hanswer hnext
    rw [requests_call, requests_call, run_call, run_call, hrequests]
    exact ⟨rfl, hend, hstate⟩
  | note c _ ih => exact ih hs

end Lockstep

end Pass

end ShareKeeper
