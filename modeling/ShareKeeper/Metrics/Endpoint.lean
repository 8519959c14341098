import ShareKeeper.Metrics.Exposition

/-!
# The endpoint that is asked for metrics and health

Only the path decides; any method gets the same answer.
-/

namespace ShareKeeper.Metrics

/-- A page as it is served. -/
structure Page where
  status : Nat
  contentType : Option String
  body : String
  deriving DecidableEq, Repr

/-- The page under a path. -/
def page (m : Metrics) (path : String) : Page :=
  if path = "/metrics" then ⟨200, some "text/plain; version=0.0.4", m.render⟩
  else if path ∈ ["/healthz", "/health", "/readyz", "/ready"] then ⟨200, none, "ok"⟩
  else ⟨404, none, "Not Found"⟩

/-- The metrics once the endpoint is open. -/
def opened (m : Metrics) : Metrics := m.setHealth (Histogram.thousandths 1000)

end ShareKeeper.Metrics
