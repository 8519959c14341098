/-!
# Where the service is reached

The host of the service in a region. Regions belong to partitions, told apart by how the name of the
region begins, and each partition has a domain of its own. A name that fits no partition is taken
for one of the largest.
-/

namespace ShareKeeper.Wire

/-- Whether a part of a region's name is a word. -/
def isWord (cs : List Char) : Bool :=
  !cs.isEmpty && cs.all fun c => c.isAlphanum || c = '_'

/-- Whether a part of a region's name is a number. -/
def isNumber (cs : List Char) : Bool := !cs.isEmpty && cs.all Char.isDigit

/-- The parts of a text between hyphens. -/
def hyphenated : List Char → List (List Char)
  | [] => [[]]
  | c :: rest =>
    if c = '-' then [] :: hyphenated rest
    else
      match hyphenated rest with
      | [] => [[c]]
      | part :: parts => (c :: part) :: parts

/-- Whether a region's name is a stem, a word and a number between hyphens. -/
def isRegionOf (stem : List String) (region : String) : Bool :=
  let parts := hyphenated region.toList
  match parts.drop stem.length with
  | [word, number] => parts.take stem.length = stem.map String.toList && isWord word && isNumber number
  | _ => false

/-- The partitions with a domain of their own: how their regions begin, and the domain. -/
def partitions : List (List String × String) :=
  [(["cn"], "amazonaws.com.cn"), (["us", "iso"], "c2s.ic.gov"), (["us", "isob"], "sc2s.sgov.gov"),
   (["eu", "isoe"], "cloud.adc-e.uk"), (["us", "isof"], "csp.hci.ic.gov")]

/-- The domain of a region. -/
def domain (region : String) : String :=
  ((partitions.find? fun p => isRegionOf p.1 region).map Prod.snd).getD "amazonaws.com"

/-- The host of the service in a region. -/
def host (region : String) : String := "ram." ++ region ++ "." ++ domain region

end ShareKeeper.Wire
