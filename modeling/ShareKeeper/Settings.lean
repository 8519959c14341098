import ShareKeeper.Failure

/-!
# Settings

What the controller is told through four variables. A variable that is missing or blank is not set.
Numbers may have blanks around them; the names of the watched namespace and of the region are taken
as they stand.
-/

namespace ShareKeeper

structure Settings where
  metricsPort : Nat
  /-- The only namespace to watch; all of them if there is none. -/
  watchNamespace : Option String
  /-- The time between passes over an object that is in step, in seconds. -/
  resyncSeconds : Nat
  region : Option String
  deriving DecidableEq, Repr

namespace Settings

def default : Settings := ⟨8080, none, 600, none⟩

instance : Inhabited Settings := ⟨default⟩

def portVariable : String := "RAM_CONTROLLER_METRICS_PORT"

def namespaceVariable : String := "RAM_CONTROLLER_WATCH_NAMESPACE"

def secondsVariable : String := "RAM_CONTROLLER_RESYNC_SECONDS"

def regionVariable : String := "AWS_REGION"

/-- The value of a variable that is set. -/
def present (lookup : String → Option String) (setting : String) : Option String :=
  (lookup setting).filter fun v => !Text.isBlankText v

/-- A port number. -/
def readPort (text : String) : Except ConfigFault Nat :=
  (Text.readNatural 65535 (Text.trim text.toList)).mapError (.port portVariable)

/-- A number of seconds, not zero. -/
def readSeconds (text : String) : Except ConfigFault Nat := do
  let n ← (Text.readNatural 18446744073709551615 (Text.trim text.toList)).mapError
    (.seconds secondsVariable)
  if n = 0 then .error (.zeroSeconds secondsVariable) else return n

/-- The value that a variable is read as, or its default. -/
def readOr {α : Type} (read : String → Except ConfigFault α) (default : α) :
    Option String → Except ConfigFault α
  | some text => read text
  | none => .ok default

/-- The settings that the variables give; the port is looked at before the seconds. -/
def ofVariables (lookup : String → Option String) : Except ConfigFault Settings := do
  let port ← readOr readPort default.metricsPort (present lookup portVariable)
  let seconds ← readOr readSeconds default.resyncSeconds (present lookup secondsVariable)
  return ⟨port, present lookup namespaceVariable, seconds, present lookup regionVariable⟩

end Settings

end ShareKeeper
