import ShareKeeper.Conditions

/-!
# Operations on conditions, record by record

What is done to the conditions of an object, by a pass or otherwise, is a list of moves, each of which
sets or clears the record of one type (`Conditions.edit_eq`). A move leaves the other types alone, and
so an operation leaves alone all that it does not name (`Conditions.get_edit_of_not_mem`). No operation
moves a record twice, so a law of one move is a law of what the operation does to a record.
-/

namespace ShareKeeper

/-! ## Moves and operations -/

/-- A change of the record of one type. -/
inductive ConditionMove where
  | set (type : ConditionType) (status : ConditionStatus) (reason message : Option String)
  | clear (type : ConditionType)

def ConditionMove.type : ConditionMove → ConditionType
  | .set type .. => type
  | .clear type => type

/-- An operation on conditions. -/
inductive ConditionEdit where
  | set (type : ConditionType) (status : ConditionStatus) (reason message : Option String)
  | setSynced (synced : Bool) (message : Option String)
  | recordOutcome (outcome : Option Failure)

namespace ConditionEdit

/-- The types that an operation names. -/
def names : ConditionEdit → List ConditionType
  | set type .. => [type]
  | setSynced .. => [.synced]
  | recordOutcome none => [.terminal, .recoverable]
  | recordOutcome (some e) =>
    match e.severity with
    | .terminal => [.terminal]
    | .recoverable => [.terminal, .recoverable]

/-- What an operation does, record by record. -/
def moves : ConditionEdit → List ConditionMove
  | set type status reason message => [.set type status reason message]
  | setSynced synced message =>
    [.set .synced (.ofBool synced) (some (if synced then "Synced" else "Pending")) message]
  | recordOutcome none => [.clear .terminal, .clear .recoverable]
  | recordOutcome (some e) =>
    match e.severity with
    | .terminal => [.set .terminal .yes (some "TerminalError") (some e.message)]
    | .recoverable =>
      [.clear .terminal, .set .recoverable .yes (some "RecoverableError") (some e.message)]

theorem map_type_moves (e : ConditionEdit) : e.moves.map ConditionMove.type = e.names := by
  cases e with
  | set type status reason message => rfl
  | setSynced synced message => rfl
  | recordOutcome outcome =>
    cases outcome with
    | none => rfl
    | some e => cases he : e.severity <;> simp [moves, names, he, ConditionMove.type]

end ConditionEdit

namespace Conditions

/-- One record is changed. -/
def move (now : Instant) (c : Conditions) : ConditionMove → Conditions
  | .set type status reason message => c.set now type status reason message
  | .clear type => c.clear now type

/-- An operation is carried out. -/
def edit (now : Instant) (c : Conditions) : ConditionEdit → Conditions
  | .set type status reason message => c.set now type status reason message
  | .setSynced synced message => c.setSynced now synced message
  | .recordOutcome outcome => c.recordOutcome now outcome

/-- Operations one after another, each at its time. -/
def run (c : Conditions) (edits : List (Instant × ConditionEdit)) : Conditions :=
  edits.foldl (fun c e => c.edit e.1 e.2) c

/-- Every operation comes down to its moves. -/
theorem edit_eq (now : Instant) (c : Conditions) (e : ConditionEdit) :
    c.edit now e = e.moves.foldl (move now) c := by
  cases e with
  | set type status reason message => rfl
  | setSynced synced message => rfl
  | recordOutcome outcome =>
    cases outcome with
    | none => rfl
    | some e => cases he : e.severity <;> simp [edit, recordOutcome, ConditionEdit.moves, move, he]

/-! ## What is left alone -/

section Frame

variable (now : Instant) (c : Conditions)

theorem get_move_of_ne {x : ConditionMove} {t : ConditionType} (h : t ≠ x.type) :
    (c.move now x).get t = c.get t := by
  cases x with
  | set type status reason message => exact (get_set ..).trans (if_neg h)
  | clear type => exact (get_clear ..).trans (if_neg h)

theorem get_foldl_move_of_not_mem {l : List ConditionMove} {t : ConditionType}
    (h : t ∉ l.map ConditionMove.type) : (l.foldl (move now) c).get t = c.get t := by
  induction l generalizing c with
  | nil => rfl
  | cons x rest ih =>
    rw [List.map_cons, List.mem_cons, not_or] at h
    rw [List.foldl_cons, ih _ h.2, get_move_of_ne now c h.1]

/-- **An operation changes no record of a type that it does not name.** -/
theorem get_edit_of_not_mem {e : ConditionEdit} {t : ConditionType} (h : t ∉ e.names) :
    (c.edit now e).get t = c.get t := by
  rw [edit_eq]
  rw [← e.map_type_moves] at h
  exact get_foldl_move_of_not_mem now c h

end Frame

/-! ## The end of a pass -/

/-- The moves by which a pass records how it ended, and then whether the entity matches. -/
def passMoves (outcome : Option Failure) (synced : Bool) (message : Option String) :
    List ConditionMove :=
  (ConditionEdit.recordOutcome outcome).moves ++ (ConditionEdit.setSynced synced message).moves

theorem recorded_eq (c : Conditions) (now : Instant) (outcome : Option Failure) (synced : Bool)
    (message : Option String) :
    (c.recordOutcome now outcome).setSynced now synced message
      = (passMoves outcome synced message).foldl (move now) c := by
  rw [passMoves, List.foldl_append, ← edit_eq, ← edit_eq]
  rfl

/-- A pass moves no record twice. -/
theorem nodup_passMoves (outcome : Option Failure) (synced : Bool) (message : Option String) :
    ((passMoves outcome synced message).map ConditionMove.type).Nodup := by
  rw [passMoves, List.map_append, ConditionEdit.map_type_moves, ConditionEdit.map_type_moves]
  cases outcome with
  | none => simp [ConditionEdit.names]
  | some e => cases he : e.severity <;> simp [ConditionEdit.names, he]

end Conditions

end ShareKeeper
