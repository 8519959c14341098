import ShareKeeper.Power
import ShareKeeper.Proofs.Text.Integer
import ShareKeeper.Settings

/-!
# What the variables may say

Two of the four variables have a grammar: the port is a natural number of 16 bits, the period between passes
one of 64 bits other than zero. Both may have a plus sign, zeros in front, and blanks around them. The two
names are taken as they stand. A variable that is not set or blank stands for its default.

There are settings exactly if both numbers are well-formed (`ofVariables_eq_ok_iff`), and each of them is
what its own variable gives. Otherwise the port is the one that is complained about, unless only the period
is wrong.
-/

namespace ShareKeeper

/-- Whether a fault tells what a variable must be. -/
def ConfigFault.Names (f : ConfigFault) (setting : String) : Prop :=
  ∃ demand, f.message = setting ++ " must be " ++ demand

section Names

variable (setting : String) (e : Text.IntegerFault)

theorem names_port : (ConfigFault.port setting e).Names setting := by
  have h : " must be a port number: " = " must be " ++ "a port number: " := rfl
  exact ⟨"a port number: " ++ e.message, by
    rw [ConfigFault.message, h, ← String.append_assoc, String.append_assoc]⟩

theorem names_seconds : (ConfigFault.seconds setting e).Names setting := by
  have h : " must be a number of seconds: " = " must be " ++ "a number of seconds: " := rfl
  exact ⟨"a number of seconds: " ++ e.message, by
    rw [ConfigFault.message, h, ← String.append_assoc, String.append_assoc]⟩

theorem names_zeroSeconds : (ConfigFault.zeroSeconds setting).Names setting := by
  have h : " must be greater than zero" = " must be " ++ "greater than zero" := rfl
  exact ⟨"greater than zero", by rw [ConfigFault.message, h, ← String.append_assoc]⟩

end Names

namespace Settings

/-! ## One variable -/

/-- What a variable gives: the default if it is not set or blank, or what its text is read as. -/
inductive Gives {α : Type} (reads : String → α → Prop) (default : α) : Option String → α → Prop
  | unset : Gives reads default none default
  | blank {text : String} (h : Text.AllBlank text.toList) : Gives reads default (some text) default
  | set {text : String} {a : α} (hfull : ¬ Text.AllBlank text.toList) (h : reads text a) :
    Gives reads default (some text) a

/-- Whether a variable is not set, or blank, or something that can be read. -/
def Accepts {α : Type} (reads : String → α → Prop) (value : Option String) : Prop :=
  ∀ text ∈ value, Text.AllBlank text.toList ∨ ∃ a, reads text a

section Variable

variable {α : Type} {reads : String → α → Prop} {default a : α} {value : Option String}

theorem accepts_of_gives (h : Gives reads default value a) : Accepts reads value := by
  rintro text ⟨⟩
  cases h with
  | blank h => exact .inl h
  | set _ h => exact .inr ⟨a, h⟩

theorem exists_gives (default : α) (h : Accepts reads value) : ∃ a, Gives reads default value a := by
  cases value with
  | none => exact ⟨default, .unset⟩
  | some text =>
    by_cases hblank : Text.AllBlank text.toList
    · exact ⟨default, .blank hblank⟩
    · obtain ⟨a, ha⟩ := (h text rfl).resolve_left hblank
      exact ⟨a, .set hblank ha⟩

/-- A text that can be read in one way only gives one value. -/
theorem Gives.unique {value' : Option String} {b : α}
    (hreads : ∀ text a b, reads text a → reads text b → a = b) (ha : Gives reads default value a)
    (hb : Gives reads default value' b) (h : value = value') : a = b := by
  subst h
  cases ha with
  | unset =>
    cases hb
    rfl
  | blank hblank =>
    cases hb with
    | blank => rfl
    | set hfull _ => exact absurd hblank hfull
  | set hfull ha =>
    cases hb with
    | blank hblank => exact absurd hblank hfull
    | set _ hb => exact hreads _ _ _ ha hb

/-- What a reader accepts can be read in one way only. -/
theorem unique_of_read {read : String → Except ConfigFault α}
    (hread : ∀ text a, read text = .ok a ↔ reads text a) (text : String) (a b : α) (ha : reads text a)
    (hb : reads text b) : a = b :=
  Except.ok.inj (((hread text a).2 ha).symm.trans ((hread text b).2 hb))

variable {lookup : String → Option String} {setting : String}

theorem present_of_unset (h : lookup setting = none) : present lookup setting = none := by
  rw [present, h]
  rfl

theorem present_of_blank {text : String} (h : lookup setting = some text)
    (hblank : Text.AllBlank text.toList) : present lookup setting = none := by
  rw [present, h, Option.filter_some, Text.allBlank_iff.1 hblank]
  rfl

theorem present_of_full {text : String} (h : lookup setting = some text)
    (hfull : ¬ Text.AllBlank text.toList) : present lookup setting = some text := by
  rw [Text.allBlank_iff, Bool.not_eq_true] at hfull
  rw [present, h, Option.filter_some, hfull]
  rfl

/-- A variable is read as what it gives. -/
theorem readOr_present_eq_ok_iff {read : String → Except ConfigFault α}
    (hread : ∀ text a, read text = .ok a ↔ reads text a) :
    readOr read default (present lookup setting) = .ok a ↔ Gives reads default (lookup setting) a := by
  cases h : lookup setting with
  | none =>
    rw [present_of_unset h, readOr, Except.ok.injEq]
    exact ⟨fun h => h ▸ .unset, fun | .unset => rfl⟩
  | some text =>
    by_cases hblank : Text.AllBlank text.toList
    · rw [present_of_blank h hblank, readOr, Except.ok.injEq]
      refine ⟨fun h => h ▸ .blank hblank, fun h => ?_⟩
      cases h with
      | blank => rfl
      | set hfull _ => exact absurd hblank hfull
    · rw [present_of_full h hblank, readOr, hread]
      refine ⟨.set hblank, fun h => ?_⟩
      cases h with
      | blank h => exact absurd h hblank
      | set _ h => exact h

/-- A name is what stands in its variable. -/
theorem gives_present : Gives (fun text name => name = some text) none (lookup setting)
    (present lookup setting) := by
  cases h : lookup setting with
  | none =>
    rw [present_of_unset h]
    exact .unset
  | some text =>
    by_cases hblank : Text.AllBlank text.toList
    · rw [present_of_blank h hblank]
      exact .blank hblank
    · exact .set hblank (present_of_full h hblank)

end Variable

/-! ## The two numbers -/

/-- What the text of a port is. -/
def IsPort (text : String) (n : Nat) : Prop := Text.Padded (Text.Natural · n) text ∧ n ≤ 65535

/-- What the text of a period is, in seconds. -/
def IsPeriod (text : String) (n : Nat) : Prop :=
  Text.Padded (Text.Natural · n) text ∧ 1 ≤ n ∧ n ≤ twoTo 64 - 1

section Numbers

variable {text : String} {n limit : Nat} {f : ConfigFault}

theorem readNatural_trim_eq_ok_iff : Text.readNatural limit (Text.trim text.toList) = .ok n ↔
    Text.Padded (Text.Natural · n) text ∧ n ≤ limit := by
  have htrim : Text.Natural (Text.trim text.toList) n ↔ Text.Padded (Text.Natural · n) text :=
    Text.trim_iff_padded fun _ => Text.Natural.isSolid
  rw [Text.readNatural_eq_ok_iff, htrim]

theorem mapError_eq_ok_iff {ε ε' α : Type} {g : ε → ε'} {x : Except ε α} {a : α} :
    x.mapError g = .ok a ↔ x = .ok a := by
  cases x with
  | error e => exact iff_of_false (fun h => nomatch h) fun h => nomatch h
  | ok b =>
    show Except.ok b = .ok a ↔ _
    rw [Except.ok.injEq, Except.ok.injEq]

theorem readPort_eq_ok_iff : readPort text = .ok n ↔ IsPort text n := by
  rw [readPort, mapError_eq_ok_iff, readNatural_trim_eq_ok_iff, IsPort]

/-- A period is read, and then asked whether it is zero. -/
theorem readSeconds_eq (text : String) : readSeconds text =
    match Text.readNatural 18446744073709551615 (Text.trim text.toList) with
    | .error e => .error (.seconds secondsVariable e)
    | .ok n => if n = 0 then .error (.zeroSeconds secondsVariable) else .ok n := by
  unfold readSeconds
  cases Text.readNatural 18446744073709551615 (Text.trim text.toList) <;> rfl

theorem readSeconds_eq_ok_iff : readSeconds text = .ok n ↔ IsPeriod text n := by
  have hperiod : IsPeriod text n ↔
      Text.readNatural 18446744073709551615 (Text.trim text.toList) = .ok n ∧ n ≠ 0 := by
    rw [readNatural_trim_eq_ok_iff, IsPeriod, Nat.one_le_iff_ne_zero, and_assoc, and_comm (a := n ≠ 0)]
    exact Iff.rfl
  rw [hperiod, readSeconds_eq]
  cases Text.readNatural 18446744073709551615 (Text.trim text.toList) with
  | error e => exact iff_of_false (fun h => nomatch h) fun h => nomatch h.1
  | ok m =>
    simp only [Except.ok.injEq]
    split
    · next hzero => exact iff_of_false (fun h => nomatch h) fun h => h.2 (h.1 ▸ hzero)
    · next hsome =>
      rw [Except.ok.injEq]
      exact ⟨fun h => ⟨h, h ▸ hsome⟩, And.left⟩

theorem names_of_readPort (h : readPort text = .error f) : f.Names portVariable := by
  rw [readPort] at h
  cases hread : Text.readNatural 65535 (Text.trim text.toList) with
  | ok n =>
    rw [hread] at h
    cases h
  | error e =>
    rw [hread] at h
    cases h
    exact names_port _ e

theorem names_of_readSeconds (h : readSeconds text = .error f) : f.Names secondsVariable := by
  rw [readSeconds_eq] at h
  split at h
  · next e _ =>
    cases h
    exact names_seconds _ e
  · split at h
    · cases h
      exact names_zeroSeconds _
    · cases h

end Numbers

/-! ## All of them -/

/-- What the settings are by the variables: each field is what its own variable gives. -/
structure Describes (lookup : String → Option String) (s : Settings) : Prop where
  port : Gives IsPort 8080 (lookup portVariable) s.metricsPort
  period : Gives IsPeriod 600 (lookup secondsVariable) s.resyncSeconds
  watched : Gives (fun text name => name = some text) none (lookup namespaceVariable) s.watchNamespace
  region : Gives (fun text name => name = some text) none (lookup regionVariable) s.region

variable {lookup : String → Option String} {s : Settings} {f : ConfigFault}

/-- The settings, as they come of the two numbers one after the other. -/
theorem ofVariables_eq (lookup : String → Option String) : ofVariables lookup =
    match readOr readPort 8080 (present lookup portVariable) with
    | .error f => .error f
    | .ok port =>
      match readOr readSeconds 600 (present lookup secondsVariable) with
      | .error f => .error f
      | .ok seconds =>
        .ok ⟨port, present lookup namespaceVariable, seconds, present lookup regionVariable⟩ := by
  unfold ofVariables
  show (readOr readPort 8080 (present lookup portVariable) >>= _) = _
  cases readOr readPort 8080 (present lookup portVariable) with
  | error f => rfl
  | ok port =>
    show (readOr readSeconds 600 (present lookup secondsVariable) >>= _) = _
    cases readOr readSeconds 600 (present lookup secondsVariable) <;> rfl

/-- A fault is a fault of the text. -/
theorem exists_of_readOr_error {α : Type} {read : String → Except ConfigFault α} {default : α}
    {value : Option String} (h : readOr read default value = .error f) :
    ∃ text, read text = .error f := by
  cases value with
  | none => cases h
  | some text => exact ⟨text, h⟩

theorem readOr_port_eq_ok_iff {n : Nat} :
    readOr readPort 8080 (present lookup portVariable) = .ok n ↔
      Gives IsPort 8080 (lookup portVariable) n :=
  readOr_present_eq_ok_iff fun _ _ => readPort_eq_ok_iff

theorem readOr_seconds_eq_ok_iff {n : Nat} :
    readOr readSeconds 600 (present lookup secondsVariable) = .ok n ↔
      Gives IsPeriod 600 (lookup secondsVariable) n :=
  readOr_present_eq_ok_iff fun _ _ => readSeconds_eq_ok_iff

theorem describes_of_ok (h : ofVariables lookup = .ok s) : Describes lookup s := by
  rw [ofVariables_eq] at h
  split at h
  · cases h
  · next port hport =>
    split at h
    · cases h
    · next seconds hseconds =>
      cases h
      exact ⟨readOr_port_eq_ok_iff.1 hport, readOr_seconds_eq_ok_iff.1 hseconds, gives_present,
        gives_present⟩

theorem exists_settings (hport : Accepts IsPort (lookup portVariable))
    (hperiod : Accepts IsPeriod (lookup secondsVariable)) : ∃ s, ofVariables lookup = .ok s := by
  obtain ⟨port, hport⟩ := exists_gives 8080 hport
  obtain ⟨seconds, hseconds⟩ := exists_gives 600 hperiod
  refine ⟨⟨port, present lookup namespaceVariable, seconds, present lookup regionVariable⟩, ?_⟩
  rw [ofVariables_eq, readOr_port_eq_ok_iff.2 hport, readOr_seconds_eq_ok_iff.2 hseconds]

/-- The port is looked at first. -/
theorem error_of_bad_port (h : ¬ Accepts IsPort (lookup portVariable)) :
    ∃ f, ofVariables lookup = .error f ∧ f.Names portVariable := by
  cases hport : readOr readPort 8080 (present lookup portVariable) with
  | ok n => exact absurd (accepts_of_gives (readOr_port_eq_ok_iff.1 hport)) h
  | error f =>
    obtain ⟨text, htext⟩ := exists_of_readOr_error hport
    exact ⟨f, by rw [ofVariables_eq, hport], names_of_readPort htext⟩

theorem error_of_bad_period (hport : Accepts IsPort (lookup portVariable))
    (h : ¬ Accepts IsPeriod (lookup secondsVariable)) :
    ∃ f, ofVariables lookup = .error f ∧ f.Names secondsVariable := by
  obtain ⟨port, hport⟩ := exists_gives 8080 hport
  cases hseconds : readOr readSeconds 600 (present lookup secondsVariable) with
  | ok n => exact absurd (accepts_of_gives (readOr_seconds_eq_ok_iff.1 hseconds)) h
  | error f =>
    obtain ⟨text, htext⟩ := exists_of_readOr_error hseconds
    refine ⟨f, ?_, names_of_readSeconds htext⟩
    rw [ofVariables_eq, readOr_port_eq_ok_iff.2 hport, hseconds]

/-- What settings have in common if their variables have. -/
structure AgreeWhere (lookup lookup' : String → Option String) (s s' : Settings) : Prop where
  port : lookup portVariable = lookup' portVariable → s.metricsPort = s'.metricsPort
  period : lookup secondsVariable = lookup' secondsVariable → s.resyncSeconds = s'.resyncSeconds
  watched : lookup namespaceVariable = lookup' namespaceVariable → s.watchNamespace = s'.watchNamespace
  region : lookup regionVariable = lookup' regionVariable → s.region = s'.region

theorem agreeWhere_of_describes {lookup' : String → Option String} {s' : Settings}
    (h : Describes lookup s) (h' : Describes lookup' s') : AgreeWhere lookup lookup' s s' where
  port := h.port.unique (unique_of_read fun _ _ => readPort_eq_ok_iff) h'.port
  period := h.period.unique (unique_of_read fun _ _ => readSeconds_eq_ok_iff) h'.period
  watched := h.watched.unique (fun _ _ _ ha hb => ha.trans hb.symm) h'.watched
  region := h.region.unique (fun _ _ _ ha hb => ha.trans hb.symm) h'.region

/-- How settings come of the variables. -/
structure Follows (lookup : String → Option String) (outcome : Except ConfigFault Settings) : Prop where
  accepts : (∃ s, outcome = .ok s) ↔
    Accepts IsPort (lookup portVariable) ∧ Accepts IsPeriod (lookup secondsVariable)
  describes : ∀ s, outcome = .ok s → Describes lookup s
  /-- What the other variables say makes no difference to a field. -/
  alone : ∀ lookup' s s', outcome = .ok s → ofVariables lookup' = .ok s' →
    AgreeWhere lookup lookup' s s'
  /-- A wrong port is complained about, whatever the period is. -/
  badPort : ¬ Accepts IsPort (lookup portVariable) →
    ∃ f, outcome = .error f ∧ f.Names portVariable ∧ (Failure.config f).isTerminal = true
  badPeriod : Accepts IsPort (lookup portVariable) → ¬ Accepts IsPeriod (lookup secondsVariable) →
    ∃ f, outcome = .error f ∧ f.Names secondsVariable ∧ (Failure.config f).isTerminal = true

theorem isTerminal_config (f : ConfigFault) : (Failure.config f).isTerminal = true := rfl

/-- **There are settings exactly if both numbers are well-formed.** Then each field is what its own variable
gives; otherwise there is a failure that names the first wrong variable and that no retry can help. -/
theorem follows_ofVariables (lookup : String → Option String) : Follows lookup (ofVariables lookup) where
  accepts := by
    constructor
    · rintro ⟨s, h⟩
      obtain ⟨hport, hperiod, -, -⟩ := describes_of_ok h
      exact ⟨accepts_of_gives hport, accepts_of_gives hperiod⟩
    · rintro ⟨hport, hperiod⟩
      exact exists_settings hport hperiod
  describes := fun _ h => describes_of_ok h
  alone := fun _ _ _ h h' => agreeWhere_of_describes (describes_of_ok h) (describes_of_ok h')
  badPort := by
    intro h
    obtain ⟨f, hf, hnames⟩ := error_of_bad_port h
    exact ⟨f, hf, hnames, isTerminal_config f⟩
  badPeriod := by
    intro hport h
    obtain ⟨f, hf, hnames⟩ := error_of_bad_period hport h
    exact ⟨f, hf, hnames, isTerminal_config f⟩

end Settings

end ShareKeeper
