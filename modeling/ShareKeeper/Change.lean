import ShareKeeper.Roster

/-!
# Changes of a roster

What has to be added to and removed from an observed roster to arrive at a desired one. For sets of
identifiers the change is the difference in both directions.
-/

namespace ShareKeeper

/-- Values to add and values to remove. -/
structure Change {α : Type} (key : α → String) where
  toAdd : Roster key
  toRemove : Roster key

namespace Change

variable {α : Type} {key : α → String}

/-- Whether there is nothing to do. -/
def isEmpty (c : Change key) : Bool := c.toAdd.isEmpty && c.toRemove.isEmpty

end Change

namespace NameSet

/-- The set of a list of identifiers. -/
def ofNames (l : List String) : NameSet := Roster.ofList l

/-- The change from observed to desired identifiers; order and repetition play no part. -/
def change (desired observed : List String) : Change (id : String → String) :=
  let desired := ofNames desired
  let observed := ofNames observed
  { toAdd := desired.filter (fun a => !observed.contains a)
    toRemove := observed.filter (fun a => !desired.contains a) }

/-- Whether two lists hold the same identifiers, in whatever order and however often. -/
def sameElements (a b : List String) : Bool := ofNames a = ofNames b

end NameSet

end ShareKeeper
