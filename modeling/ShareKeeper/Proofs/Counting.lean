import Mathlib.Data.List.Nodup
import Mathlib.Data.List.ProdSigma
import ShareKeeper.Proofs.Noted

/-!
# Every call is counted once

The labels of a call name its operation, the one purpose of this operation and the outcome, and no two
operations or outcomes share a sample, even though a sample is told apart by its labels run together
(`identity_labels_inj`). So the samples of a session can be read back: each holds the number of calls of
one operation with one outcome, there are no samples beside these, and together they hold as many calls
as were made (`Counts`).

That is kept by every call that is noted as it should be (`Counts.hear`). A session counts nothing but what
is noted, so that it holds of a pass is due to the managers, which note each call they make (`noted_pass`).
Hence it holds of any course of errands, whichever of them fail (`counts_errands`).
-/

namespace ShareKeeper

/-! ## The labels of the operations -/

namespace Operation

/-- The labels under which the calls of an operation with one outcome are counted. -/
def labels (o : Operation) (ok : Bool) : List String :=
  [o.purpose.label, o.name, Metrics.outcomeLabel ok]

theorem mem_all (o : Operation) : o ∈ all := by cases o <;> decide

theorem nodup_identities : ((all.product [true, false]).map fun c =>
    Family.identity (c.1.labels c.2)).Nodup := by
  decide +kernel

/-- Operation and outcome can be told from the labels run together. -/
theorem identity_labels_inj {o o' : Operation} {ok ok' : Bool} :
    Family.identity (o.labels ok) = Family.identity (o'.labels ok') ↔ o = o' ∧ ok = ok' := by
  constructor
  · intro h
    have hmem : ∀ (o : Operation) (ok : Bool), (o, ok) ∈ all.product [true, false] := fun o ok =>
      List.mem_product.mpr ⟨o.mem_all, by cases ok <;> decide⟩
    have heq : (o, ok) = (o', ok') :=
      List.inj_on_of_nodup_map nodup_identities (hmem o ok) (hmem o' ok') h
    exact ⟨congrArg Prod.fst heq, congrArg Prod.snd heq⟩
  · rintro ⟨rfl, rfl⟩
    rfl

end Operation

theorem Exchange.labels_eq (x : Exchange) :
    x.labels = x.1.operation.labels (Session.succeeded x.2) := rfl

/-! ## The samples after a change -/

namespace Family

/-- No two samples answer to the same labels. -/
def Apart {α : Type} (f : Family α) : Prop := (f.samples.map fun t => identity t.labels).Nodup

/-- What the samples hold together. -/
def total (f : Family Nat) : Nat := f.samples.foldr (fun t n => t.value + n) 0

variable {α : Type} {f : Family α} {start : α} {labels : List String} {change : α → α}

theorem find?_isSome_iff :
    (f.find? labels).isSome = true ↔ ∃ t ∈ f.samples, identity t.labels = identity labels := by
  simp [find?]

theorem apart_update (h : f.Apart) : (f.update start labels change).Apart := by
  rw [update]
  split
  · -- a sample that is changed keeps its labels
    have hsame : ((fun t : Sample α => identity t.labels) ∘ fun t =>
        if identity t.labels = identity labels then { t with value := change t.value } else t)
        = fun t => identity t.labels := by
      funext t
      dsimp only [Function.comp]
      split <;> rfl
    rw [Apart, List.map_map, hsame]
    exact h
  · next hnone =>
    rw [find?_isSome_iff] at hnone
    rw [Apart, List.map_append, List.nodup_append]
    refine ⟨h, List.nodup_singleton _, ?_⟩
    rintro a ha b hb rfl
    obtain ⟨t, ht, rfl⟩ := List.mem_map.mp ha
    exact hnone ⟨t, ht, List.mem_singleton.mp hb⟩

/-- A change makes no samples but the one that is changed. -/
theorem labels_of_mem_update {t : Sample α} (ht : t ∈ (f.update start labels change).samples) :
    t.labels = labels ∨ ∃ u ∈ f.samples, u.labels = t.labels := by
  rw [update] at ht
  split at ht
  · obtain ⟨u, hu, rfl⟩ := List.mem_map.mp ht
    refine .inr ⟨u, hu, ?_⟩
    split <;> rfl
  · obtain hold | hnew := List.mem_append.mp ht
    · exact .inr ⟨t, hold, rfl⟩
    · rw [List.mem_singleton.mp hnew]
      exact .inl rfl

theorem total_cons (t : Sample Nat) (rest : List (Sample Nat)) :
    total ⟨t :: rest⟩ = t.value + total ⟨rest⟩ := rfl

/-- One more in the one sample that answers to the labels. -/
theorem total_map_succ {l : List (Sample Nat)} (hl : (l.map fun t => identity t.labels).Nodup)
    (hfound : ∃ t ∈ l, identity t.labels = identity labels) :
    total ⟨l.map fun t => if identity t.labels = identity labels then
      { t with value := t.value + 1 } else t⟩ = total ⟨l⟩ + 1 := by
  induction l with
  | nil => simp at hfound
  | cons t rest ih =>
    obtain ⟨hnot, hrest⟩ := List.nodup_cons.mp hl
    by_cases ht : identity t.labels = identity labels
    · -- this is the one sample, so the rest stays
      have hkept : rest.map (fun u => if identity u.labels = identity labels then
          { u with value := u.value + 1 } else u) = rest := by
        refine List.map_congr_left (fun u hu => if_neg fun h => hnot ?_) |>.trans (List.map_id _)
        exact List.mem_map.mpr ⟨u, hu, h.trans ht.symm⟩
      rw [List.map_cons, if_pos ht, hkept, total_cons, total_cons]
      exact Nat.add_right_comm t.value 1 _
    · obtain ⟨u, hu, hlabels⟩ := hfound
      obtain rfl | hu := List.mem_cons.mp hu
      · exact absurd hlabels ht
      · rw [List.map_cons, if_neg ht, total_cons, total_cons, ih hrest ⟨u, hu, hlabels⟩]
        omega

theorem total_snoc (l : List (Sample Nat)) (t : Sample Nat) :
    total ⟨l ++ [t]⟩ = total ⟨l⟩ + t.value := by
  induction l with
  | nil => exact Nat.add_comm t.value 0
  | cons u rest ih =>
    rw [List.cons_append, total_cons, total_cons, ih]
    omega

theorem total_update_succ {f : Family Nat} (h : f.Apart) :
    (f.update 0 labels (· + 1)).total = f.total + 1 := by
  rw [update]
  split
  · next hfound => exact total_map_succ h (find?_isSome_iff.mp hfound)
  · exact total_snoc _ _

end Family

/-! ## What the samples of a session tell -/

namespace Metrics

/-- A family that counts each of some calls once, under its operation and outcome. -/
structure Counts (heard : List Exchange) (f : Family Nat) : Prop where
  number : ∀ o ok, f.get 0 (o.labels ok)
    = heard.countP fun x => x.1.operation = o ∧ Session.succeeded x.2 = ok
  /-- There is no sample without a call. -/
  called : ∀ t ∈ f.samples, ∃ x ∈ heard, t.labels = x.1.operation.labels (Session.succeeded x.2)
  apart : f.Apart
  total : f.total = heard.length

variable {heard : List Exchange} {m : Metrics}

theorem counts_empty : Counts [] Metrics.empty.calls where
  number _ _ := rfl
  called _ ht := absurd ht List.not_mem_nil
  apart := List.nodup_nil
  total := rfl

/-- One more call is counted once. -/
theorem Counts.hear (h : Counts heard m.calls) (x : Exchange) :
    Counts (heard ++ [x]) (m.hear x).calls where
  number o ok := by
    show (m.calls.update 0 x.labels (· + 1)).get 0 (o.labels ok) = _
    rw [List.countP_append, ← h.number, List.countP_singleton, x.labels_eq]
    by_cases hx : x.1.operation = o ∧ Session.succeeded x.2 = ok
    · rw [Family.get_update_self _ _ _ (Operation.identity_labels_inj.mpr ⟨hx.1.symm, hx.2.symm⟩)]
      simp [hx]
    · rw [Family.get_update_of_ne _ _ _ fun heq =>
        hx ((Operation.identity_labels_inj.mp heq).imp Eq.symm Eq.symm)]
      simp [hx]
  called t ht := by
    obtain hnew | ⟨u, hu, hlabels⟩ := Family.labels_of_mem_update ht
    · exact ⟨x, by simp, hnew⟩
    · obtain ⟨y, hy, heq⟩ := h.called u hu
      exact ⟨y, List.mem_append_left _ hy, hlabels ▸ heq⟩
  apart := Family.apart_update h.apart
  total := by
    rw [List.length_append, ← h.total]
    exact Family.total_update_succ h.apart

theorem Counts.foldl_hear (h : Counts heard m.calls) (later : List Exchange) :
    Counts (heard ++ later) (later.foldl Metrics.hear m).calls := by
  induction later generalizing heard m with
  | nil => simpa using h
  | cons x rest ih => simpa using ih (h.hear x)

end Metrics

/-! ## Errands -/

/-- A piece of work for a manager of either kind. -/
inductive Errand where
  | reconciliation {k : Kind} (region : Option String) (now : Instant) (r : Resource k)
  /-- The deletion of the entity behind an object, which looks at the entity first. -/
  | deletion {k : Kind} (r : Resource k)
  /-- The deletion of the entity as it is known. -/
  | managerDeletion {k : Kind} (r : Resource k)
  | look {k : Kind} (r : Resource k)

namespace Errand

/-- The errand, of which only the calls matter. -/
def pass : Errand → Pass Unit
  | @reconciliation k region now r => discard (reconcile k.manager region now r)
  | @deletion k r => deleteEntity k.manager r
  | @managerDeletion k r => k.manager.delete r
  | @look k r => discard (k.manager.readOne r)

/-- Errands one after another, whatever comes of each. -/
def runAll : List Errand → Pass Unit
  | [] => pure ()
  | errand :: rest => do
    let _ ← errand.pass.attempt
    runAll rest

/-- An errand notes its calls. -/
theorem noted_pass : (errand : Errand) → errand.pass.Noted
  | @reconciliation k region now r =>
    (noted_reconcile k.noted_manager region now r).bind fun _ => .done ()
  | @deletion k r => noted_deleteEntity k.noted_manager r
  | @managerDeletion k r => k.noted_manager.delete r
  | @look k r => (k.noted_manager.readOne r).bind fun _ => .done ()

theorem noted_runAll (errands : List Errand) : (runAll errands).Noted := by
  induction errands with
  | nil => exact .done ()
  | cons errand rest ih => exact errand.noted_pass.attempt.bind fun _ => ih

end Errand

/-- **Every call of a course of errands is counted once,** whatever the service answers. -/
theorem counts_errands {σ : Type} (service : Service σ) (backend : σ) (errands : List Errand) :
    let heard := Pass.transcript service (Errand.runAll errands) backend
    let s := (Session.run service (Errand.runAll errands) (Session.start backend)).2
    Metrics.Counts heard s.metrics.calls ∧ s.journal = heard.map Sigma.fst ∧
      s.metrics.calls.total = s.journal.length := by
  intro heard s
  have hmetrics : s.metrics = heard.foldl Metrics.hear Metrics.empty :=
    (Errand.noted_runAll errands).metrics_run service (Session.start backend)
  have hcounts : Metrics.Counts heard s.metrics.calls := by
    rw [hmetrics]
    exact Metrics.counts_empty.foldl_hear heard
  obtain ⟨-, -, hjournal⟩ :=
    Pass.run_session service (Errand.runAll errands) (Session.start backend)
  have hjournal : s.journal = heard.map Sigma.fst := hjournal
  refine ⟨hcounts, hjournal, ?_⟩
  rw [hjournal, List.length_map]
  exact hcounts.total

end ShareKeeper
