import ShareKeeper.Failure
import ShareKeeper.Json.Decode

/-!
# Conditions

What a managed object reports about itself: whether its desired state can be reached at all, whether
the last pass failed in a way that a retry may mend, and whether the remote entity matches. There is
at most one record of each type, and on the wire the records are a list, in the order of the types.

## Transitions

A record carries the time since which it has its present status. `Conditions.set` keeps that time as
long as the status stays, and takes the given time when it changes or the record is new. The time is
a parameter: nothing here looks at a clock.
-/

namespace ShareKeeper

/-- What a condition is about, in the order of the list. -/
inductive ConditionType where
  /-- The desired state cannot be reached until it changes. -/
  | terminal
  /-- The last pass failed and is retried. -/
  | recoverable
  /-- The remote entity matches the desired state. -/
  | synced
  deriving DecidableEq, Repr

inductive ConditionStatus where
  | yes
  | no
  | unknown
  deriving DecidableEq, Repr

namespace ConditionType

def all : List ConditionType := [.terminal, .recoverable, .synced]

def name : ConditionType → String
  | .terminal => "Terminal"
  | .recoverable => "Recoverable"
  | .synced => "Synced"

def decode : Json → Except DecodeFault ConditionType :=
  Json.asVariant (all.map fun t => (t.name, t))

end ConditionType

namespace ConditionStatus

def all : List ConditionStatus := [.yes, .no, .unknown]

def name : ConditionStatus → String
  | .yes => "True"
  | .no => "False"
  | .unknown => "Unknown"

def decode : Json → Except DecodeFault ConditionStatus :=
  Json.asVariant (all.map fun s => (s.name, s))

def ofBool (b : Bool) : ConditionStatus := if b then .yes else .no

end ConditionStatus

/-! ## Records -/

/-- What is recorded under a condition type, with times of one kind. -/
structure ConditionRecord (T : Type := Instant) where
  status : ConditionStatus
  /-- Since when the status is what it is. -/
  since : T
  reason : Option String
  message : Option String
  deriving DecidableEq

/-- A record with its type, as it stands in a list. -/
abbrev Condition (T : Type := Instant) := ConditionType × ConditionRecord T

namespace Condition

def encode {T : Type} [ToString T] (c : Condition T) : Json :=
  .object (Json.must "lastTransitionTime" (Json.ofTime c.2.since)
    ++ (Json.may "message" .string c.2.message
    ++ (Json.may "reason" .string c.2.reason
    ++ (Json.must "status" (.string c.2.status.name)
    ++ Json.must "type" (.string c.1.name)))))

def decode : Json → Except DecodeFault Condition :=
  Json.asStructure "Condition" 5
    (fun ms => do
      let since ← Json.field "lastTransitionTime" Json.asInstant ms
      let message ← Json.optional "message" Json.asText ms
      let reason ← Json.optional "reason" Json.asText ms
      let status ← Json.field "status" ConditionStatus.decode ms
      let type ← Json.field "type" ConditionType.decode ms
      let type ← Json.require "type" type
      let status ← Json.require "status" status
      let since ← Json.require "lastTransitionTime" since
      return (type, ⟨status, since, reason, message⟩))
    (fun e => do
      let type ← e.get 0 ConditionType.decode
      let status ← e.get 1 ConditionStatus.decode
      let since ← e.get 2 Json.asInstant
      let reason ← e.get 3 (Json.asOption Json.asText)
      let message ← e.get 4 (Json.asOption Json.asText)
      return (type, ⟨status, since, reason, message⟩))

end Condition

/-! ## At most one record of each type -/

structure Conditions (T : Type := Instant) where
  terminal : Option (ConditionRecord T)
  recoverable : Option (ConditionRecord T)
  synced : Option (ConditionRecord T)
  deriving DecidableEq

namespace Conditions

variable {T : Type}

def empty : Conditions := ⟨none, none, none⟩

instance : Inhabited Conditions := ⟨empty⟩

/-- The record of a type. -/
def get (c : Conditions T) : ConditionType → Option (ConditionRecord T)
  | .terminal => c.terminal
  | .recoverable => c.recoverable
  | .synced => c.synced

/-- Puts a record in the place of the one of its type. -/
def put (c : Conditions) (type : ConditionType) (r : ConditionRecord) : Conditions :=
  match type with
  | .terminal => { c with terminal := some r }
  | .recoverable => { c with recoverable := some r }
  | .synced => { c with synced := some r }

theorem get_put (c : Conditions) (t u : ConditionType) (r : ConditionRecord) :
    (c.put t r).get u = if u = t then some r else c.get u := by
  cases t <;> cases u <;> rfl

@[ext] theorem ext_get {c d : Conditions T} (h : ∀ t, c.get t = d.get t) : c = d := by
  cases c; cases d
  have h1 := h .terminal
  have h2 := h .recoverable
  have h3 := h .synced
  simp_all [get]

/-! ### Lists -/

/-- The records with their types, in the order of the types. -/
def toList (c : Conditions T) : List (Condition T) :=
  ConditionType.all.filterMap fun t => (c.get t).map fun r => (t, r)

/-- The records of a list; of two with one type the later counts. -/
def ofList (l : List Condition) : Conditions := l.foldl (fun c r => c.put r.1 r.2) empty

/-- **The list of the records holds all of them.** -/
theorem ofList_toList (c : Conditions) : ofList c.toList = c := by
  obtain ⟨t, r, s⟩ := c
  cases t <;> cases r <;> cases s <;> rfl

def encode [ToString T] (c : Conditions T) : Json := .array (c.toList.map Condition.encode)

def decode (j : Json) : Except DecodeFault Conditions := (Json.asList Condition.decode j).map ofList

/-! ### Questions -/

def size (c : Conditions) : Nat := c.toList.length

def isEmpty (c : Conditions) : Bool := c.toList.isEmpty

/-- Whether the condition is recorded, and as true. -/
def isTrue (c : Conditions) (type : ConditionType) : Bool :=
  (c.get type).any fun r => r.status = .yes

/-! ### Changes -/

/-- Since when a record that is set now has its status. -/
def sinceOf (now : Instant) (status : ConditionStatus) : Option ConditionRecord → Instant
  | some r => if r.status = status then r.since else now
  | none => now

/-- Sets a condition. -/
def set (now : Instant) (c : Conditions) (type : ConditionType) (status : ConditionStatus)
    (reason message : Option String) : Conditions :=
  c.put type ⟨status, sinceOf now status (c.get type), reason, message⟩

/-- Sets a condition that is recorded to false; one that is not stays so. -/
def clear (now : Instant) (c : Conditions) (type : ConditionType) : Conditions :=
  match c.get type with
  | some _ => c.set now type .no none none
  | none => c

/-- Records how a pass ended. A terminal failure leaves the recoverable condition alone; any other
end clears the terminal one. -/
def recordOutcome (now : Instant) (c : Conditions) : Option Failure → Conditions
  | none => (c.clear now .terminal).clear now .recoverable
  | some e =>
    match e.severity with
    | .terminal => c.set now .terminal .yes (some "TerminalError") (some e.message)
    | .recoverable =>
      (c.clear now .terminal).set now .recoverable .yes (some "RecoverableError") (some e.message)

/-- Records whether the remote entity matches. -/
def setSynced (now : Instant) (c : Conditions) (synced : Bool) (message : Option String) : Conditions :=
  c.set now .synced (.ofBool synced) (some (if synced then "Synced" else "Pending")) message

theorem get_set (now : Instant) (c : Conditions) (t u : ConditionType) (status : ConditionStatus)
    (reason message : Option String) :
    (c.set now t status reason message).get u
      = if u = t then some ⟨status, sinceOf now status (c.get t), reason, message⟩ else c.get u :=
  get_put ..

theorem get_clear (now : Instant) (c : Conditions) (t u : ConditionType) :
    (c.clear now t).get u
      = if u = t then (c.get t).map fun r => ⟨.no, sinceOf now .no (some r), none, none⟩
        else c.get u := by
  unfold clear
  cases h : c.get t with
  | none => by_cases hu : u = t <;> simp [hu, h]
  | some r => simp [get_set, h]

end Conditions

end ShareKeeper
