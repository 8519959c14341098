import ShareKeeper.Permission.Rotation
import ShareKeeper.Power
import ShareKeeper.Proofs.Text.Integer

/-!
# The text of a version

A version is deleted by its number, and its number is read off its text: an integer of 32 bits in decimal
form, with or without a sign, with any zeros in front and any blanks around it. Exactly these texts have a
number (`parseVersion_eq_ok_iff`), and all others are refused for good.
-/

namespace ShareKeeper.Rotation

variable {version : String} {n : Int}

/-- Whether a number has 32 bits, one of them for the sign. -/
def Fits (n : Int) : Prop := -(twoTo 31 : Int) ≤ n ∧ n ≤ (twoTo 31 : Int) - 1

/-- What number a text stands for as a version. -/
def Denotes (version : String) (n : Int) : Prop :=
  Text.Padded (Text.Integer · n) version ∧ Fits n

theorem fits_iff : Fits n ↔ -((2147483648 : Nat) : Int) ≤ n ∧ n ≤ (2147483647 : Nat) := Iff.rfl

theorem parseVersion_eq_ok_iff : parseVersion version = .ok n ↔ Denotes version n := by
  have hread : parseVersion version = .ok n ↔ Text.readInt32 (Text.trim version.toList) = .ok n := by
    unfold parseVersion
    cases Text.readInt32 (Text.trim version.toList) <;> simp
  have htrim : Text.Integer (Text.trim version.toList) n ↔ Text.Padded (Text.Integer · n) version :=
    Text.trim_iff_padded fun _ => Text.Integer.isSolid
  rw [hread, Text.readInt32, Text.readInteger_eq_ok_iff, htrim, ← fits_iff, Denotes]

/-- There is one way in which a text can be refused. -/
theorem parseVersion_of_not_denotes (h : ¬ ∃ n, Denotes version n) :
    parseVersion version = .error (.validation (.version version)) := by
  cases hread : Text.readInt32 (Text.trim version.toList) with
  | error e => rw [parseVersion, hread]
  | ok n =>
    refine absurd ⟨n, parseVersion_eq_ok_iff.1 ?_⟩ h
    rw [parseVersion, hread]

theorem denotes_toString {before after : List Char} (hbefore : Text.AllBlank before)
    (hafter : Text.AllBlank after) (hversion : version.toList = before ++ (toString n).toList ++ after)
    (hn : Fits n) : Denotes version n :=
  ⟨⟨before, _, after, hbefore, hafter, hversion, Text.integer_toString n⟩, hn⟩

/-- How the text of a version is read. -/
structure Parses (version : String) (outcome : Except Failure Int) : Prop where
  accepts : ∀ n, outcome = .ok n ↔ Denotes version n
  refuses : (¬ ∃ n, Denotes version n) → outcome = .error (.validation (.version version)) ∧
    (Failure.validation (.version version)).isTerminal = true
  /-- What was printed is read back, whatever blanks are around it. -/
  printed : ∀ (n : Int) (before after : List Char), Fits n → Text.AllBlank before →
    Text.AllBlank after → version.toList = before ++ (toString n).toList ++ after → outcome = .ok n

/-- **Exactly the decimal integers of 32 bits are versions,** and every other text is refused with a failure
that no retry can help. -/
theorem parses_parseVersion (version : String) : Parses version (parseVersion version) where
  accepts := fun _ => parseVersion_eq_ok_iff
  refuses := fun h => ⟨parseVersion_of_not_denotes h, rfl⟩
  printed := fun _ _ _ hn hbefore hafter hversion =>
    parseVersion_eq_ok_iff.2 (denotes_toString hbefore hafter hversion hn)

end ShareKeeper.Rotation
