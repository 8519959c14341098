import ShareKeeper.Metrics
import ShareKeeper.Pass

/-!
# Sessions

A session stands between the controller and the sharing service. It keeps a journal of the requests,
and it counts the calls: not those that it sends, but those that the passes note.
-/

namespace ShareKeeper

structure Session (σ : Type) where
  /-- The service behind the session. -/
  backend : σ
  /-- The requests so far, in their order. -/
  journal : List Request
  metrics : Metrics

namespace Session

variable {σ : Type}

def start (backend : σ) : Session σ := ⟨backend, [], .empty⟩

/-- Whether an answer is a reply. -/
def succeeded {r : Request} : Answer r → Bool
  | .ok _ => true
  | .error _ => false

/-- Passes a request on and journals it. -/
def send (service : Service σ) (r : Request) (s : Session σ) : Answer r × Session σ :=
  let (answer, backend) := service r s.backend
  (answer, { s with backend, journal := s.journal ++ [r] })

/-- Counts a call that was noted. -/
def count (s : Session σ) (c : CallRecord) : Session σ :=
  { s with metrics := s.metrics.countCall c.label.purpose c.label.operation c.succeeded }

/-- Runs a pass in a session: what it asks for is sent, and what it notes is counted. -/
def run {α : Type} (service : Service σ) : Pass α → Session σ → Except Failure α × Session σ
  | .done a, s => (.ok a, s)
  | .fail e, s => (.error e, s)
  | .call r next, s =>
    let (answer, s) := s.send service r
    run service (next answer) s
  | .note c next, s => run service next (s.count c)

end Session

end ShareKeeper
