import Mathlib.Data.List.Nodup
import ShareKeeper.Proofs.Conditions.Moves

/-!
# Conditions as the normal form of their lists

A list may tell of one type more than once and in any order. As `Conditions` it is told of each type
at most once, in the order of the types, and of several conditions with one type the last counts.

`Conditions` has a place for each type, so a record cannot stand in the place of another one. The
same conditions can be kept in an ordered map from types to conditions that carry a type of their own
(`ConditionMap`), where nothing but the operations sees to it that the two types agree. Both are
changed by the same moves, and `ConditionMap.Keeps` says that a map has the records of some
`Conditions`, each under the type it carries. It holds of the map of a list, every move keeps it, and
so it holds after every run of operations.
-/

namespace ShareKeeper

/-! ## The order of the types -/

deriving instance Ord for ConditionType

instance : Std.TransOrd ConditionType where
  eq_swap {t u} := by cases t <;> cases u <;> rfl
  isLE_trans {t u v} := by cases t <;> cases u <;> cases v <;> decide

instance : Std.LawfulEqOrd ConditionType where
  eq_of_compare {t u} := by cases t <;> cases u <;> decide

namespace ConditionType

theorem mem_all (t : ConditionType) : t ∈ all := by cases t <;> decide

theorem all_ascending : all.Pairwise fun t u => compare t u = .lt := by decide

end ConditionType

/-! ## Lists -/

namespace Conditions

/-- The last condition of each type, in the order of the types. -/
def lastOfEach (l : List Condition) : List Condition :=
  [ConditionType.terminal, .recoverable, .synced].filterMap fun t => l.findRev? fun c => c.1 = t

theorem get_foldl_put (l : List Condition) (c : Conditions) (t : ConditionType) :
    (l.foldl (fun c r => c.put r.1 r.2) c).get t
      = ((l.findRev? fun r => r.1 = t).map Prod.snd).or (c.get t) := by
  induction l generalizing c with
  | nil => rfl
  | cons r rest ih =>
    rw [List.foldl_cons, ih, get_put, List.findRev?]
    cases rest.findRev? fun r => r.1 = t with
    | some last => rfl
    | none =>
      by_cases ht : t = r.1
      · simp [ht]
      · simp [ht, Ne.symm ht]

/-- The record of a type is that of the last condition with this type. -/
theorem get_ofList (l : List Condition) (t : ConditionType) :
    (ofList l).get t = (l.findRev? fun r => r.1 = t).map Prod.snd := by
  rw [ofList, get_foldl_put]
  cases t <;> exact Option.or_none

/-- **A list is reduced to the last condition of each type.** -/
theorem toList_ofList (l : List Condition) : (ofList l).toList = lastOfEach l := by
  unfold toList lastOfEach
  refine List.filterMap_congr fun t _ => ?_
  rw [get_ofList]
  cases hlast : l.findRev? fun r => r.1 = t with
  | none => rfl
  | some last =>
    -- what was found has the type it was looked for by
    have htype : last.1 = t := by
      rw [List.findRev?_eq_find?_reverse] at hlast
      simpa using List.find?_some hlast
    subst htype
    rfl

example (a b c : ConditionRecord) :
    (ofList [(.synced, a), (.terminal, b), (.synced, c)]).toList = [(.terminal, b), (.synced, c)] :=
  rfl

/-- The types of a list of records are those that have one. -/
theorem types_toList (c : Conditions) :
    c.toList.map Prod.fst = ConditionType.all.filter fun t => (c.get t).isSome := by
  obtain ⟨t, r, s⟩ := c
  cases t <;> cases r <;> cases s <;> rfl

theorem nodup_types (c : Conditions) : (c.toList.map Prod.fst).Nodup := by
  rw [types_toList]
  exact List.Nodup.filter _ (by decide)

end Conditions

/-! ## The map -/

/-- Conditions under the types they are looked up by. Each carries a type of its own, and a map may
hold it under any other. -/
structure ConditionMap where
  entries : Std.ExtTreeMap ConditionType Condition

namespace ConditionMap

def empty : ConditionMap := ⟨∅⟩

/-- The condition under a type. -/
def get (m : ConditionMap) (t : ConditionType) : Option Condition := m.entries[t]?

/-- Puts a condition under a type, over the one that was there. -/
def put (m : ConditionMap) (t : ConditionType) (x : Condition) : ConditionMap :=
  ⟨m.entries.insert t x⟩

/-- The map of a list: every condition is put under the type it carries. -/
def ofList (l : List Condition) : ConditionMap := l.foldl (fun m x => m.put x.1 x) empty

/-- The conditions, in the order of the types they are kept under. -/
def toList (m : ConditionMap) : List Condition := m.entries.toList.map Prod.snd

def set (now : Instant) (m : ConditionMap) (type : ConditionType) (status : ConditionStatus)
    (reason message : Option String) : ConditionMap :=
  m.put type
    (type, ⟨status, Conditions.sinceOf now status ((m.get type).map Prod.snd), reason, message⟩)

def clear (now : Instant) (m : ConditionMap) (type : ConditionType) : ConditionMap :=
  match m.get type with
  | some _ => m.set now type .no none none
  | none => m

def move (now : Instant) (m : ConditionMap) : ConditionMove → ConditionMap
  | .set type status reason message => m.set now type status reason message
  | .clear type => m.clear now type

def edit (now : Instant) (m : ConditionMap) (e : ConditionEdit) : ConditionMap :=
  e.moves.foldl (move now) m

def run (m : ConditionMap) (edits : List (Instant × ConditionEdit)) : ConditionMap :=
  edits.foldl (fun m e => m.edit e.1 e.2) m

theorem ext_get {m n : ConditionMap} (h : ∀ t, m.get t = n.get t) : m = n := by
  cases m
  cases n
  congr 1
  exact Std.ExtTreeMap.ext_getElem? h

theorem get_empty (t : ConditionType) : empty.get t = none := Std.ExtTreeMap.getElem?_empty

theorem get_put (m : ConditionMap) (t u : ConditionType) (x : Condition) :
    (m.put t x).get u = if u = t then some x else m.get u := by
  unfold get put
  rw [Std.ExtTreeMap.getElem?_insert]
  by_cases h : u = t
  · rw [if_pos (Std.compare_eq_iff_eq.2 h.symm), if_pos h]
  · rw [if_neg (fun heq => h (Std.compare_eq_iff_eq.1 heq).symm), if_neg h]

/-- The entries under a type before those under a later one. -/
def Ascending (l : List (ConditionType × Condition)) : Prop :=
  l.Pairwise fun x y => compare x.1 y.1 = .lt

theorem Ascending.nodup {l : List (ConditionType × Condition)} (h : Ascending l) : l.Nodup := by
  refine h.imp fun {x y} hlt heq => ?_
  rw [heq, Std.compare_self] at hlt
  cases hlt

/-- Ascending lists with the same entries are equal. -/
theorem Ascending.eq_of_mem_iff {l k : List (ConditionType × Condition)} (hl : Ascending l)
    (hk : Ascending k) (h : ∀ x, x ∈ l ↔ x ∈ k) : l = k := by
  have hperm : l.Perm k := (List.perm_ext_iff_of_nodup hl.nodup hk.nodup).2 h
  refine hperm.eq_of_pairwise (fun x y _ _ hxy hyx => ?_) hl hk
  exact absurd hyx (Std.OrientedCmp.not_lt_of_lt hxy)

theorem toList_entries (m : ConditionMap) :
    m.entries.toList = ConditionType.all.filterMap fun t => (m.get t).map fun x => (t, x) := by
  refine Ascending.eq_of_mem_iff Std.ExtTreeMap.ordered_keys_toList ?_ fun x => ?_
  · refine List.pairwise_filterMap.2 (ConditionType.all_ascending.imp fun {t u} hlt => ?_)
    intro x hx y hy
    obtain ⟨_, -, rfl⟩ := Option.map_eq_some_iff.1 hx
    obtain ⟨_, -, rfl⟩ := Option.map_eq_some_iff.1 hy
    exact hlt
  · rw [Std.ExtTreeMap.mem_toList_iff_getElem?_eq_some, List.mem_filterMap]
    constructor
    · intro hx
      exact ⟨x.1, x.1.mem_all, Option.map_eq_some_iff.2 ⟨x.2, hx, rfl⟩⟩
    · rintro ⟨t, -, ht⟩
      obtain ⟨y, hy, rfl⟩ := Option.map_eq_some_iff.1 ht
      exact hy

/-- **A map lists what it has under the types, in their order.** -/
theorem toList_eq (m : ConditionMap) : m.toList = ConditionType.all.filterMap m.get := by
  rw [toList, toList_entries, List.map_filterMap]
  refine List.filterMap_congr fun t _ => ?_
  cases m.get t <;> rfl

/-! ## A map that has the records of some conditions -/

/-- The map has the records of `c` and no others, each under the type it carries. -/
def Keeps (m : ConditionMap) (c : Conditions) : Prop :=
  ∀ t, m.get t = (c.get t).map fun r => (t, r)

theorem keeps_empty : empty.Keeps Conditions.empty := by
  intro t
  cases t <;> exact get_empty _

section Keeps

variable {m : ConditionMap} {c : Conditions} (h : m.Keeps c)
include h

theorem Keeps.get_eq (t : ConditionType) : (m.get t).map Prod.snd = c.get t := by
  rw [h t]
  cases c.get t <;> rfl

theorem Keeps.put (t : ConditionType) (r : ConditionRecord) :
    (m.put t (t, r)).Keeps (c.put t r) := by
  intro u
  rw [get_put, Conditions.get_put]
  by_cases hu : u = t
  · rw [if_pos hu, if_pos hu, hu]
    rfl
  · rw [if_neg hu, if_neg hu, h u]

theorem Keeps.set (now : Instant) (t : ConditionType) (status : ConditionStatus)
    (reason message : Option String) :
    (m.set now t status reason message).Keeps (c.set now t status reason message) := by
  unfold ConditionMap.set Conditions.set
  rw [h.get_eq]
  exact h.put t _

theorem Keeps.clear (now : Instant) (t : ConditionType) :
    (m.clear now t).Keeps (c.clear now t) := by
  unfold ConditionMap.clear Conditions.clear
  rw [h t]
  cases c.get t with
  | none => exact h
  | some r => exact h.set now t .no none none

/-- **Every move keeps it,** since it puts a record nowhere but under the type it writes into it. -/
theorem Keeps.move (now : Instant) (x : ConditionMove) : (m.move now x).Keeps (c.move now x) := by
  cases x with
  | set type status reason message => exact h.set now type status reason message
  | clear type => exact h.clear now type

theorem Keeps.foldl_move (now : Instant) (l : List ConditionMove) :
    (l.foldl (ConditionMap.move now) m).Keeps (l.foldl (Conditions.move now) c) := by
  induction l generalizing m c with
  | nil => exact h
  | cons x rest ih => exact ih (h.move now x)

theorem Keeps.edit (now : Instant) (e : ConditionEdit) : (m.edit now e).Keeps (c.edit now e) := by
  rw [Conditions.edit_eq]
  exact h.foldl_move now e.moves

theorem Keeps.run (edits : List (Instant × ConditionEdit)) : (m.run edits).Keeps (c.run edits) := by
  induction edits generalizing m c with
  | nil => exact h
  | cons e rest ih => exact ih (h.edit e.1 e.2)

theorem Keeps.foldl_put (l : List Condition) :
    (l.foldl (fun m x => m.put x.1 x) m).Keeps (l.foldl (fun c x => c.put x.1 x.2) c) := by
  induction l generalizing m c with
  | nil => exact h
  | cons x rest ih => exact ih (h.put x.1 x.2)

end Keeps

theorem keeps_ofList (l : List Condition) : (ofList l).Keeps (Conditions.ofList l) :=
  keeps_empty.foldl_put l

/-- No other map has the same records in this way. -/
theorem Keeps.unique {m n : ConditionMap} {c : Conditions} (hm : m.Keeps c) (hn : n.Keeps c) :
    m = n := ext_get fun t => (hm t).trans (hn t).symm

/-- What can be said of a map that has the records of `c`. -/
structure Coherent (m : ConditionMap) (c : Conditions) : Prop where
  /-- Every condition is under the type it carries. -/
  keyed : ∀ t x, m.get t = some x → x.1 = t
  /-- No two conditions have one type. -/
  distinct : (m.toList.map Prod.fst).Nodup
  /-- It is the map of its own list. -/
  restored : ofList m.toList = m
  /-- Under each type it has the record of this type. -/
  get_eq : ∀ t, (m.get t).map Prod.snd = c.get t
  toList_eq : m.toList = c.toList

theorem Keeps.coherent {m : ConditionMap} {c : Conditions} (h : m.Keeps c) : Coherent m c := by
  have hlist : m.toList = c.toList := by
    rw [toList_eq, Conditions.toList]
    exact List.filterMap_congr fun t _ => h t
  refine ⟨fun t x hx => ?_, ?_, ?_, h.get_eq, hlist⟩
  · rw [h t, Option.map_eq_some_iff] at hx
    obtain ⟨r, -, rfl⟩ := hx
    rfl
  · rw [hlist]
    exact c.nodup_types
  · have hlisted := keeps_ofList m.toList
    rw [hlist, Conditions.ofList_toList] at hlisted
    rw [hlist]
    exact hlisted.unique h

end ConditionMap

namespace Conditions

open ConditionMap

/-- A list of conditions in normal form, through any operations that follow. -/
structure NormalForm (l : List Condition) (edits : List (Instant × ConditionEdit)) : Prop where
  /-- The last condition of each type is kept, in the order of the types. -/
  lasts : (ofList l).toList = lastOfEach l
  /-- The same is left of it by way of the map. -/
  lasts_map : (ConditionMap.ofList l).toList = lastOfEach l
  /-- What is in normal form stays as it is. -/
  idempotent : (ofList (ofList l).toList).toList = (ofList l).toList
  /-- From their list the conditions come back, also after the operations. -/
  restored : ofList ((ofList l).run edits).toList = (ofList l).run edits
  /-- In a map that went through the same, every condition is under its own type, and the map tells
  what the conditions tell. -/
  coherent : Coherent ((ConditionMap.ofList l).run edits) ((ofList l).run edits)
  /-- One operation more leaves alone the types it does not name. -/
  unnamed : ∀ now e t, t ∉ e.names →
    (((ofList l).run edits).edit now e).get t = ((ofList l).run edits).get t ∧
      (((ConditionMap.ofList l).run edits).edit now e).get t
        = ((ConditionMap.ofList l).run edits).get t

/-- **Conditions are the normal form of the lists of conditions,** and stay so whatever is done with
them. -/
theorem normalForm_run (l : List Condition) (edits : List (Instant × ConditionEdit)) :
    NormalForm l edits := by
  have hkeeps := (keeps_ofList l).run edits
  refine ⟨toList_ofList l, ?_, ?_, ofList_toList _, hkeeps.coherent, fun now e t ht => ?_⟩
  · rw [(keeps_ofList l).coherent.toList_eq, toList_ofList]
  · rw [ofList_toList]
  · have hsame := get_edit_of_not_mem now ((ofList l).run edits) ht
    refine ⟨hsame, ?_⟩
    rw [hkeeps t, hkeeps.edit now e t, hsame]

end Conditions

end ShareKeeper
