import ShareKeeper.Binary64.Shortest
import ShareKeeper.Metrics

/-!
# The text in which metrics are exposed

Families in ascending order of their names, each with two lines that describe it and then its
samples in ascending order of their label values. Labels stand in ascending order of their names. A
family without samples is left out. Numbers are written positionally, whatever their size.
-/

namespace ShareKeeper.Metrics

/-! ## Numbers and labels -/

/-- How numbers are laid out in the exposition. -/
def numberLayout : Binary64.Layout := ⟨none, none, false⟩

def renderTotal : Total → String
  | .finite x => numberLayout.render x
  | .infinite negative => if negative then "-inf" else "inf"

/-- One character of a label value. -/
def escapeLabelChar (c : Char) : List Char :=
  if c = '\\' then ['\\', '\\']
  else if c = '"' then ['\\', '"']
  else if c = '\n' then ['\\', 'n']
  else [c]

/-- A label and its value. -/
def renderLabel (l : String × String) : String :=
  l.1 ++ "=\"" ++ String.ofList (l.2.toList.flatMap escapeLabelChar) ++ "\""

def renderLabels (labels : List (String × String)) : String :=
  if labels.isEmpty then "" else "\x7b" ++ ",".intercalate (labels.map renderLabel) ++ "\x7d"

/-- One line of samples. -/
def renderLine (name : String) (labels : List (String × String)) (value : String) : String :=
  name ++ renderLabels labels ++ " " ++ value ++ "\n"

/-! ## Families -/

/-- A family ready to be written: name, description, type and samples. -/
structure Exposed where
  name : String
  help : String
  type : String
  lines : List String

/-- What all names begin with. -/
def stem : String := "ram_controller_"

/-- Pairs label values with their names, in ascending order of the names. -/
def label (names values : List String) : List (String × String) :=
  (names.zip values).foldl (fun done l => insertByKey Prod.fst l done) []

/-- The samples with their named labels, in the order in which they are written. -/
def arranged {α : Type} (names : List String) (f : Family α) : List (List (String × String) × α) :=
  (f.samples.map fun s => (label names s.labels, s.value)).mergeSort fun a b =>
    !decide (b.1.map Prod.snd < a.1.map Prod.snd)

def exposeCounter (name help : String) (labelNames : List String) (f : Family Nat) : Exposed where
  name := stem ++ name
  help := help
  type := "counter"
  lines := (arranged labelNames f).map fun s => renderLine (stem ++ name) s.1 (toString s.2)

/-- The lines of a histogram. -/
def histogramLines (name : String) (labels : List (String × String)) (h : Histogram) : List String :=
  (Histogram.bounds.zip h.upTo).map (fun b =>
      renderLine (name ++ "_bucket") (labels ++ [("le", numberLayout.render b.1)]) (toString b.2))
    ++ [renderLine (name ++ "_bucket") (labels ++ [("le", "+Inf")]) (toString h.count),
        renderLine (name ++ "_sum") labels (renderTotal h.total),
        renderLine (name ++ "_count") labels (toString h.count)]

def exposeHistogram (name help : String) (labelNames : List String) (f : Family Histogram) :
    Exposed where
  name := stem ++ name
  help := help
  type := "histogram"
  lines := (arranged labelNames f).flatMap fun s => histogramLines (stem ++ name) s.1 s.2

def exposeGauge (name help : String) (x : Binary64) : Exposed where
  name := stem ++ name
  help := help
  type := "gauge"
  lines := [renderLine (stem ++ name) [] (numberLayout.render x)]

/-- All families, in ascending order of their names. -/
def exposed (m : Metrics) : List Exposed :=
  [exposeCounter "aws_api_calls_total" "Number of calls made to the RAM API"
      ["op_type", "op_id", "outcome"] m.calls,
    exposeGauge "health" "Controller health status (1 = healthy, 0 = unhealthy)" m.health,
    exposeHistogram "reconcile_duration_seconds" "Duration of reconciliations in seconds" ["kind"]
      m.durations,
    exposeCounter "reconciliation_errors_total" "Total number of reconciliation errors" ["kind"]
      m.failures,
    exposeCounter "reconciliations_total" "Total number of reconciliations" ["kind"] m.reconciliations]

def renderFamily (e : Exposed) : String :=
  if e.lines.isEmpty then ""
  else
    "# HELP " ++ e.name ++ " " ++ e.help ++ "\n# TYPE " ++ e.name ++ " " ++ e.type ++ "\n"
      ++ String.join e.lines

/-- The text of all metrics. -/
def render (m : Metrics) : String := String.join (m.exposed.map renderFamily)

end ShareKeeper.Metrics
