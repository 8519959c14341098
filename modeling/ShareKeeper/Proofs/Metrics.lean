import ShareKeeper.Proofs.Pass

/-!
# What is counted of a pass

A session counts what a pass notes. If the pass notes each of its calls, once and under the names of its
operation (`Pass.Noted`), then the session counts every exchange and nothing else (`Noted.metrics_run`). So
the number under some labels is the number of exchanges with these labels, whatever order they came in
(`calls_hear`), and the other metrics stay as they are.
-/

namespace ShareKeeper

namespace Family

variable {α : Type} (f : Family α) (start : α) {labels other : List String} (change : α → α)

/-- To change samples without their labels does not matter for which one is found. -/
theorem find?_map {g : Sample α → Sample α} (hg : ∀ s, (g s).labels = s.labels) (other : List String) :
    (⟨f.samples.map g⟩ : Family α).find? other = (f.find? other).map g := by
  have hsame : ((fun s : Sample α => decide (identity s.labels = identity other)) ∘ g)
      = fun s => decide (identity s.labels = identity other) := by
    funext s
    simp [hg]
  rw [find?, find?, List.find?_map, hsame]

/-- A sample under other labels is left alone. -/
theorem get_update_of_ne (h : identity other ≠ identity labels) :
    (f.update start labels change).get start other = f.get start other := by
  rw [get, get, update]
  split
  · rw [find?_map f fun s => by split <;> rfl]
    cases hfound : f.find? other with
    | none => rfl
    | some s =>
      have hlabels : identity s.labels = identity other := by simpa using List.find?_some hfound
      simp [hlabels, h]
  · have hfind : (⟨f.samples ++ [⟨labels, change start⟩]⟩ : Family α).find? other = f.find? other := by
      simp [find?, List.find?_append, Ne.symm h]
    rw [hfind]

/-- The sample under the labels is changed, or made and changed. -/
theorem get_update_self (h : identity other = identity labels) :
    (f.update start labels change).get start other = change (f.get start other) := by
  have hfind : f.find? other = f.find? labels := by rw [find?, find?, h]
  rw [get, get, update]
  split
  · next hsome =>
    rw [find?_map f fun s => by split <;> rfl]
    cases hfound : f.find? other with
    | none =>
      rw [← hfind, hfound] at hsome
      cases hsome
    | some s =>
      have hlabels : identity s.labels = identity other := by simpa using List.find?_some hfound
      simp [hlabels, h]
  · next hnone =>
    have hnone' : f.find? other = none := by simpa [hfind] using hnone
    have hmade : (⟨f.samples ++ [⟨labels, change start⟩]⟩ : Family α).find? other
        = some ⟨labels, change start⟩ := by
      rw [find?] at hnone' ⊢
      rw [List.find?_append, hnone', Option.none_or, List.find?_cons_of_pos (by simp [h])]
    rw [hmade, hnone']
    rfl

end Family

/-- The names under which the calls of an operation are to be noted. -/
def Operation.callLabel (o : Operation) : CallLabel := ⟨o.purpose.label, o.name⟩

/-- The record of an exchange. -/
def Exchange.record (x : Exchange) : CallRecord := ⟨x.1.operation.callLabel, x.2.isOk⟩

/-- The labels under which an exchange is counted. -/
def Exchange.labels (x : Exchange) : List String :=
  [x.1.operation.purpose.label, x.1.operation.name, Metrics.outcomeLabel (Session.succeeded x.2)]

namespace Metrics

/-- The metrics after one more exchange. -/
def hear (m : Metrics) (x : Exchange) : Metrics :=
  m.countCall x.1.operation.purpose.label x.1.operation.name (Session.succeeded x.2)

/-- To count the record of an exchange is to count the exchange. -/
theorem count_record {σ : Type} (s : Session σ) (x : Exchange) :
    (s.count x.record).metrics = s.metrics.hear x := by
  obtain ⟨r, answer⟩ := x
  cases answer <;> rfl

/-- Two metrics that count the same. -/
structure Alike (m n : Metrics) : Prop where
  reconciliations : n.reconciliations = m.reconciliations
  failures : n.failures = m.failures
  durations : n.durations = m.durations
  health : n.health = m.health
  calls : ∀ labels, n.calls.get 0 labels = m.calls.get 0 labels

/-- **The number under some labels** is the one of the exchanges with these labels. -/
theorem calls_hear (m : Metrics) (heard : List Exchange) (labels : List String) :
    (heard.foldl hear m).calls.get 0 labels = m.calls.get 0 labels
      + heard.countP fun x => Family.identity labels = Family.identity x.labels := by
  induction heard generalizing m with
  | nil => rfl
  | cons x rest ih =>
    rw [List.foldl_cons, ih, List.countP_cons]
    have hcalls : (m.hear x).calls = m.calls.update 0 x.labels (· + 1) := rfl
    rw [hcalls]
    by_cases h : Family.identity labels = Family.identity x.labels
    · rw [Family.get_update_self m.calls 0 (· + 1) h, if_pos (by simpa using h)]
      omega
    · rw [Family.get_update_of_ne m.calls 0 (· + 1) h, if_neg (by simpa using h)]
      omega

/-- Nothing else is counted. -/
theorem foldl_hear (m : Metrics) (heard : List Exchange) :
    heard.foldl hear m = { m with calls := (heard.foldl hear m).calls } := by
  induction heard generalizing m with
  | nil => rfl
  | cons x rest ih =>
    rw [List.foldl_cons, ih]
    rfl

/-- The order of the exchanges does not matter. -/
theorem alike_of_perm (m : Metrics) {heard heard' : List Exchange} (h : heard.Perm heard') :
    (heard.foldl hear m).Alike (heard'.foldl hear m) := by
  rw [foldl_hear m heard, foldl_hear m heard']
  refine ⟨rfl, rfl, rfl, rfl, ?_⟩
  intro labels
  show (heard'.foldl hear m).calls.get 0 labels = (heard.foldl hear m).calls.get 0 labels
  rw [calls_hear, calls_hear, h.countP_eq]

end Metrics

namespace Pass

variable {α β σ : Type}

/-- **Every call is noted as soon as it is answered:** once, under the names of its operation and with
how it was answered. Nothing else is noted. -/
inductive Noted : Pass α → Prop
  | done (a : α) : Noted (.done a)
  | fail (e : Failure) : Noted (.fail e)
  | call {r : Request} {next : Answer r → Pass α} (h : ∀ answer, Noted (next answer)) :
      Noted (.call r fun answer => .note (Exchange.record ⟨r, answer⟩) (next answer))

theorem noted_lift (x : Except Failure α) : (Pass.lift x).Noted := by
  cases x with
  | ok a => exact .done a
  | error e => exact .fail e

theorem Noted.bind {p : Pass α} {f : α → Pass β} (hp : p.Noted) (hf : ∀ a, (f a).Noted) :
    (p >>= f).Noted := by
  rw [bind_eq]
  induction hp with
  | done a => exact hf a
  | fail e => exact .fail e
  | call _ ih => exact .call ih

theorem Noted.attempt {p : Pass α} (hp : p.Noted) : p.attempt.Noted := by
  induction hp with
  | done a => exact .done _
  | fail e => exact .done _
  | call _ ih => exact .call ih

/-- A call that is recorded under the names of its operation. -/
theorem noted_recorded {label : CallLabel} {r : Request} (h : label = r.operation.callLabel) :
    (ask r >>= record label).Noted := by
  subst h
  exact .call fun answer => noted_lift _

theorem noted_askAll {label : CallLabel} {l : List Request}
    (h : ∀ r ∈ l, label = r.operation.callLabel) : (askAll label l).Noted := by
  induction l with
  | nil => exact .done ()
  | cons r rest ih =>
    exact (noted_recorded (h r List.mem_cons_self)).bind
      fun _ => ih fun q hq => h q (List.mem_cons_of_mem _ hq)

/-- **A session counts every exchange of a pass** that notes its calls. -/
theorem Noted.metrics_run {p : Pass α} (hp : p.Noted) (service : Service σ) (s : Session σ) :
    (Session.run service p s).2.metrics
      = (transcript service p s.backend).foldl Metrics.hear s.metrics := by
  induction hp generalizing s with
  | done a => rfl
  | fail e => rfl
  | @call r next _ ih =>
    have hrest := ih (service r s.backend).1
      ((s.send service r).2.count (Exchange.record ⟨r, (service r s.backend).1⟩))
    rw [Metrics.count_record] at hrest
    exact hrest

end Pass

end ShareKeeper
