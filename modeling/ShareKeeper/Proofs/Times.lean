import ShareKeeper.Resource.Codec

/-!
# The times of an object

An object is written down with times of any kind that have a text. What can be told of it then depends on
these texts alone: to put other times in their place that have the same texts makes no difference to what
is written (`Resource.encode_mapTimes`). The object itself stays the same only if each of its times does
(`Resource.mapTimes_eq_self_iff`).
-/

namespace ShareKeeper

open Json

variable {T U V : Type}

theorem option_map_eq_self_iff {f : T → T} {o : Option T} : o.map f = o ↔ ∀ t ∈ o, f t = t := by
  cases o <;> simp

theorem ofOption_ofTime_map [ToString T] [ToString U] {f : T → U}
    (hf : ∀ t, toString (f t) = toString t) (o : Option T) :
    ofOption ofTime (o.map f) = ofOption ofTime o := by
  cases o with
  | none => rfl
  | some t => exact congrArg Json.string (hf t)

/-! ## Conditions -/

namespace ConditionRecord

def mapTime (f : T → U) (r : ConditionRecord T) : ConditionRecord U :=
  ⟨r.status, f r.since, r.reason, r.message⟩

theorem mapTime_eq_self_iff {f : T → T} {r : ConditionRecord T} :
    r.mapTime f = r ↔ f r.since = r.since := by
  cases r
  simp [mapTime]

end ConditionRecord

namespace Conditions

/-- Changes the times and nothing else. -/
def mapTimes (f : T → U) (c : Conditions T) : Conditions U :=
  ⟨c.terminal.map (.mapTime f), c.recoverable.map (.mapTime f), c.synced.map (.mapTime f)⟩

def times (c : Conditions T) : List T := c.toList.map fun r => r.2.since

theorem mapTimes_mapTimes (f : T → U) (g : U → V) (c : Conditions T) :
    (c.mapTimes f).mapTimes g = c.mapTimes (g ∘ f) := by
  simp only [mapTimes, Option.map_map]
  rfl

theorem mapTimes_eq_self_iff {f : T → T} {c : Conditions T} :
    c.mapTimes f = c ↔ ∀ t ∈ c.times, f t = t := by
  obtain ⟨terminal, recoverable, synced⟩ := c
  cases terminal <;> cases recoverable <;> cases synced <;>
    simp [mapTimes, times, toList, get, ConditionType.all, ConditionRecord.mapTime_eq_self_iff]

theorem toList_mapTimes (f : T → U) (c : Conditions T) :
    (c.mapTimes f).toList = c.toList.map fun r => (r.1, r.2.mapTime f) := by
  obtain ⟨terminal, recoverable, synced⟩ := c
  cases terminal <;> cases recoverable <;> cases synced <;> rfl

theorem encode_mapTimes [ToString T] [ToString U] {f : T → U}
    (hf : ∀ t, toString (f t) = toString t) (c : Conditions T) : (c.mapTimes f).encode = c.encode := by
  have hrecord : ∀ r : Condition T, Condition.encode (r.1, r.2.mapTime f) = r.encode := by
    intro r
    have htime : ofTime (f r.2.since) = ofTime r.2.since := congrArg Json.string (hf _)
    simp only [Condition.encode, ConditionRecord.mapTime, htime]
  rw [encode, toList_mapTimes, List.map_map, encode]
  exact congrArg Json.array (List.map_congr_left fun r _ => hrecord r)

end Conditions

/-! ## Status -/

namespace Status

variable {Facts : Type}

/-- Changes the times and nothing else. -/
def mapTimes (f : T → U) (s : Status Facts T) : Status Facts U where
  identity := s.identity
  conditions := s.conditions.mapTimes f
  creationTime := s.creationTime.map f
  lastUpdatedTime := s.lastUpdatedTime.map f
  featureSet := s.featureSet
  state := s.state
  facts := s.facts

def times (s : Status Facts T) : List T :=
  s.conditions.times ++ (s.creationTime.toList ++ s.lastUpdatedTime.toList)

theorem mapTimes_mapTimes (f : T → U) (g : U → V) (s : Status Facts T) :
    (s.mapTimes f).mapTimes g = s.mapTimes (g ∘ f) := by
  simp only [mapTimes, Conditions.mapTimes_mapTimes, Option.map_map]

theorem mapTimes_eq_self_iff {f : T → T} {s : Status Facts T} :
    s.mapTimes f = s ↔ ∀ t ∈ s.times, f t = t := by
  cases s
  simp [mapTimes, times, Conditions.mapTimes_eq_self_iff, option_map_eq_self_iff, or_imp, forall_and]

end Status

theorem Kind.encodeStatus_mapTimes [ToString T] [ToString U] {k : Kind} {f : T → U}
    (hf : ∀ t, toString (f t) = toString t) (s : Status k.Facts T) :
    k.encodeStatus (s.mapTimes f) = k.encodeStatus s := by
  have hconditions := s.conditions.encode_mapTimes hf
  have hcreated := ofOption_ofTime_map hf s.creationTime
  have hupdated := ofOption_ofTime_map hf s.lastUpdatedTime
  cases k with
  | permission =>
    simp only [encodeStatus, Status.encodePermission, Status.mapTimes, hconditions, hcreated, hupdated]
  | share =>
    simp only [encodeStatus, Status.encodeShare, Status.mapTimes, hconditions, hcreated, hupdated]

/-! ## Objects -/

namespace Resource

variable {k : Kind}

/-- Changes the times of the status and nothing else. -/
def mapTimes (f : T → U) (r : Resource k T) : Resource k U :=
  ⟨r.metadata, r.spec, r.status.map (.mapTimes f)⟩

/-- The times of the status; those of the metadata are of whole seconds. -/
def times (r : Resource k T) : List T := r.status.elim [] Status.times

theorem mapTimes_mapTimes (f : T → U) (g : U → V) (r : Resource k T) :
    (r.mapTimes f).mapTimes g = r.mapTimes (g ∘ f) := by
  simp only [mapTimes, Option.map_map, mk.injEq, true_and]
  exact congrArg (r.status.map ·) (funext fun s => s.mapTimes_mapTimes f g)

/-- **An object stays the same** if each of its times does. -/
theorem mapTimes_eq_self_iff {f : T → T} {r : Resource k T} :
    r.mapTimes f = r ↔ ∀ t ∈ r.times, f t = t := by
  obtain ⟨metadata, spec, status⟩ := r
  cases status with
  | none => simp [mapTimes, times]
  | some s => simp [mapTimes, times, Status.mapTimes_eq_self_iff]

/-- **What is written of an object** depends on the texts of its times only. -/
theorem encode_mapTimes [ToString T] [ToString U] {f : T → U}
    (hf : ∀ t, toString (f t) = toString t) (r : Resource k T) : (r.mapTimes f).encode = r.encode := by
  obtain ⟨metadata, spec, status⟩ := r
  cases status with
  | none => rfl
  | some s => simp only [encode, mapTimes, Option.map_some, may, Kind.encodeStatus_mapTimes hf]

end Resource

end ShareKeeper
