import Mathlib.Data.List.Forall2
import ShareKeeper.Permission.Rotation
import ShareKeeper.Proofs.Dialogue

/-!
# How far a rotation goes

A rotation asks for three things in turn, and before two of them it has to read a version as a number.
So there are six ways for it to go, whatever the service answers (`Trace`), and which one it went can be
told from what was asked and answered: a request that was refused is the last one, and the state of the
rotation counts the requests that were granted (`Follows`).

A rotation may be run again, with another version to leave and another policy. It starts over each time
and owes nothing to the runs before (`follows_runs`).
-/

namespace ShareKeeper

open Pass

/-- The state of a rotation to a version after some of its steps. -/
def RotationState.after (version : String) : Nat → RotationState
  | 0 => .noVersion
  | 1 => .versionCreated version
  | 2 => .oldVersionDeleted version
  | _ + 3 => .defaultVersionSet version

namespace Rotation

/-! ## What is told in a rotation -/

/-- The number of a version, if there is a version and it is a number. -/
def number? (version : Option String) : Option Int :=
  version.bind fun text => (parseVersion text).toOption

/-- The version that was created, as the service told of it. -/
def created? (heard : List Exchange) : Option PermissionDetail :=
  heard.findSome? fun
    | ⟨.createPermissionVersion .., .ok d⟩ => some d
    | _ => none

/-- The text of the version that was created, empty if none was told. -/
def newVersion (heard : List Exchange) : String :=
  ((created? heard).bind PermissionDetail.version).getD ""

/-- The number of requests that were granted. -/
def granted (heard : List Exchange) : Nat := heard.countP fun x => Session.succeeded x.2

variable (arn : String) (previous : Option String) (policy : String)

/-- What was asked and answered in a rotation, and what came of it. -/
structure Follows (heard : List Exchange) (rotation : Rotation) : Prop where
  /-- The steps are taken in their order. -/
  asked : ∃ p n, heard.map Sigma.fst <+: [.createPermissionVersion arn policy,
    .deletePermissionVersion arn p, .setDefaultPermissionVersion arn n]
  /-- A rotation begins if the previous version is a number. -/
  begun : .createPermissionVersion arn policy ∈ heard.map Sigma.fst ↔
    (number? previous).isSome = true
  /-- Once there is a new version, the previous one is to be deleted. -/
  deleted : ∀ p, .deletePermissionVersion arn p ∈ heard.map Sigma.fst ↔
    (∃ d, ⟨.createPermissionVersion arn policy, .ok d⟩ ∈ heard) ∧ number? previous = some p
  /-- Once the previous version is gone, the new one is to be the default if it is a number. -/
  promoted : ∀ n, .setDefaultPermissionVersion arn n ∈ heard.map Sigma.fst ↔
    (∃ p, ⟨.deletePermissionVersion arn p, .ok ()⟩ ∈ heard) ∧
      number? (some (newVersion heard)) = some n
  state : rotation.state = .after (newVersion heard) (granted heard)
  /-- It takes all three steps to succeed. -/
  result : ∀ d, rotation.result = .ok d ↔
    granted heard = 3 ∧ ∃ c, created? heard = some c ∧ d = { c with defaultVersion := some true }
  /-- A refusal is what the rotation fails with. -/
  refused : ∀ x ∈ heard, ∀ e, x.refusal? = some e → rotation.result = .error (.api e)

/-! ## The ways of a rotation -/

/-- The ways in which a rotation can go. -/
inductive Trace : List Exchange → Rotation → Prop
  /-- The previous version is missing, or it is no number. -/
  | idle {f : Failure} (hp : number? previous = none) : Trace [] ⟨.noVersion, .error f⟩
  | uncreated {p : Int} {e : ApiError} (hp : number? previous = some p) :
      Trace [⟨.createPermissionVersion arn policy, .error e⟩] ⟨.noVersion, .error (.api e)⟩
  | undeleted {p : Int} {d : PermissionDetail} {e : ApiError} (hp : number? previous = some p) :
      Trace [⟨.createPermissionVersion arn policy, .ok d⟩,
          ⟨.deletePermissionVersion arn p, .error e⟩]
        ⟨.versionCreated (d.version.getD ""), .error (.api e)⟩
  /-- The new version is no number. -/
  | unnumbered {p : Int} {d : PermissionDetail} {f : Failure} (hp : number? previous = some p)
      (hn : number? (some (d.version.getD "")) = none) :
      Trace [⟨.createPermissionVersion arn policy, .ok d⟩,
          ⟨.deletePermissionVersion arn p, .ok ()⟩]
        ⟨.oldVersionDeleted (d.version.getD ""), .error f⟩
  | unpromoted {p n : Int} {d : PermissionDetail} {e : ApiError} (hp : number? previous = some p)
      (hn : number? (some (d.version.getD "")) = some n) :
      Trace [⟨.createPermissionVersion arn policy, .ok d⟩,
          ⟨.deletePermissionVersion arn p, .ok ()⟩,
          ⟨.setDefaultPermissionVersion arn n, .error e⟩]
        ⟨.oldVersionDeleted (d.version.getD ""), .error (.api e)⟩
  | complete {p n : Int} {d : PermissionDetail} (hp : number? previous = some p)
      (hn : number? (some (d.version.getD "")) = some n) :
      Trace [⟨.createPermissionVersion arn policy, .ok d⟩,
          ⟨.deletePermissionVersion arn p, .ok ()⟩,
          ⟨.setDefaultPermissionVersion arn n, .ok ()⟩]
        ⟨.defaultVersionSet (d.version.getD ""), .ok { d with defaultVersion := some true }⟩

variable {arn previous policy}

theorem number?_of_ok {text : String} {n : Int} (h : parseVersion text = .ok n) :
    number? (some text) = some n := by
  rw [number?, Option.bind_some, h]
  rfl

theorem number?_of_error {text : String} {f : Failure} (h : parseVersion text = .error f) :
    number? (some text) = none := by
  rw [number?, Option.bind_some, h]
  rfl

section Trace

variable {heard : List Exchange} {rotation : Rotation}
  (h : Trace arn previous policy heard rotation)
include h

theorem Trace.asked : ∃ p n, heard.map Sigma.fst <+: [.createPermissionVersion arn policy,
    .deletePermissionVersion arn p, .setDefaultPermissionVersion arn n] := by
  cases h with
  | idle => exact ⟨0, 0, List.nil_prefix⟩
  | uncreated => exact ⟨0, 0, _, rfl⟩
  | undeleted | unnumbered => exact ⟨_, 0, _, rfl⟩
  | unpromoted | complete => exact ⟨_, _, _, rfl⟩

theorem Trace.begun : .createPermissionVersion arn policy ∈ heard.map Sigma.fst ↔
    (number? previous).isSome = true := by
  cases h with
  | idle hp | uncreated hp | undeleted hp | unnumbered hp | unpromoted hp | complete hp =>
    simp [hp]

theorem Trace.deleted (p : Int) : .deletePermissionVersion arn p ∈ heard.map Sigma.fst ↔
    (∃ d, ⟨.createPermissionVersion arn policy, .ok d⟩ ∈ heard) ∧ number? previous = some p := by
  cases h with
  | idle hp | uncreated hp | undeleted hp | unnumbered hp | unpromoted hp | complete hp =>
    simp [hp, eq_comm]

theorem Trace.promoted (n : Int) : .setDefaultPermissionVersion arn n ∈ heard.map Sigma.fst ↔
    (∃ p, ⟨.deletePermissionVersion arn p, .ok ()⟩ ∈ heard) ∧
      number? (some (newVersion heard)) = some n := by
  cases h with
  | idle | uncreated | undeleted => simp
  | unnumbered _ hn => simp [newVersion, created?, hn]
  | unpromoted _ hn | complete _ hn => simp [newVersion, created?, hn, eq_comm]

theorem Trace.result (d : PermissionDetail) : rotation.result = .ok d ↔
    granted heard = 3 ∧ ∃ c, created? heard = some c ∧ d = { c with defaultVersion := some true } := by
  cases h with
  | idle | uncreated | undeleted | unnumbered | unpromoted =>
    simp [granted, Session.succeeded]
  | complete => simp [granted, created?, Session.succeeded, eq_comm]

/-- **Which way a rotation went can be told** from what was asked and answered. -/
theorem Trace.follows : Follows arn previous policy heard rotation where
  asked := h.asked
  begun := h.begun
  deleted := h.deleted
  promoted := h.promoted
  state := by cases h <;> rfl
  result := h.result
  refused := by cases h <;> simp [Exchange.refusal?]

end Trace

section Service

variable {σ : Type} {service : Service σ} {s s' : σ} {heard : List Exchange}
  {out : Except Failure Rotation}

/-- A rotation goes one of its ways, and it always tells how far it came. -/
theorem trace_of_dialogue (h : Dialogue service (run arn previous policy) s heard out s') :
    ∃ rotation, out = .ok rotation ∧ Trace arn previous policy heard rotation := by
  cases previous with
  | none =>
    obtain ⟨rfl, rfl, -⟩ := h.done_inv
    exact ⟨_, rfl, .idle rfl⟩
  | some text =>
    rw [run] at h
    split at h
    · next f hold =>
      obtain ⟨rfl, rfl, -⟩ := h.done_inv
      exact ⟨_, rfl, .idle (number?_of_error hold)⟩
    · next p hold =>
      have hp := number?_of_ok hold
      rw [replace] at h
      obtain ⟨e, s₁, rest, rfl, hend⟩ | ⟨d, s₁, rest, rfl, hcreated⟩ := h.attempt_recorded_cases
      · obtain ⟨rfl, rfl, -⟩ := hend.done_inv
        exact ⟨_, rfl, .uncreated hp⟩
      obtain ⟨e, s₂, rest, rfl, hend⟩ | ⟨⟨⟩, s₂, rest, rfl, hdeleted⟩ := hcreated.attempt_recorded_cases
      · obtain ⟨rfl, rfl, -⟩ := hend.done_inv
        exact ⟨_, rfl, .undeleted hp⟩
      dsimp only at hdeleted
      rw [promote] at hdeleted
      split at hdeleted
      · next f hnew =>
        obtain ⟨rfl, rfl, -⟩ := hdeleted.done_inv
        exact ⟨_, rfl, .unnumbered hp (number?_of_error hnew)⟩
      · next n hnew =>
        have hn := number?_of_ok hnew
        obtain ⟨e, s₃, rest, rfl, hend⟩ | ⟨⟨⟩, s₃, rest, rfl, hend⟩ := hdeleted.attempt_recorded_cases
        · obtain ⟨rfl, rfl, -⟩ := hend.done_inv
          exact ⟨_, rfl, .unpromoted hp hn⟩
        · obtain ⟨rfl, rfl, -⟩ := hend.done_inv
          exact ⟨_, rfl, .complete hp hn⟩

end Service

/-! ## Rotations that are run again -/

/-- The rotation of a permission, run time after time. Each run has a version to leave and a policy of
its own. -/
def runs (arn : String) : List (Option String × String) → Pass (List Rotation)
  | [] => pure []
  | (previous, policy) :: rest => do
    let rotation ← run arn previous policy
    let later ← runs arn rest
    return rotation :: later

/-- **Every run of a rotation goes one of its ways,** whatever came of the runs before it. -/
theorem follows_runs {σ : Type} (service : Service σ) (s : σ) (arn : String)
    (l : List (Option String × String)) :
    ∃ (parts : List (List Exchange × Rotation)) (s' : σ),
      Dialogue service (runs arn l) s (parts.flatMap Prod.fst) (.ok (parts.map Prod.snd)) s' ∧
      List.Forall₂ (fun q part => Follows arn q.1 q.2 part.1 part.2) l parts := by
  induction l generalizing s with
  | nil => exact ⟨[], s, .done [], .nil⟩
  | cons q rest ih =>
    obtain ⟨previous, policy⟩ := q
    cases hrun : Pass.run service (run arn previous policy) s with
    | mk out s₁ =>
      obtain ⟨rotation, rfl, htrace⟩ := trace_of_dialogue (.of_run hrun)
      obtain ⟨parts, s₂, hrest, hall⟩ := ih s₁
      refine ⟨(_, rotation) :: parts, s₂, ?_, .cons htrace.follows hall⟩
      have hlater : Dialogue service (runs arn rest >>= fun later => .done (rotation :: later)) s₁
          (parts.flatMap Prod.fst ++ []) (.ok (rotation :: parts.map Prod.snd)) s₂ :=
        hrest.bind (.done _)
      rw [List.append_nil] at hlater
      exact (Dialogue.of_run hrun).bind hlater

end Rotation

end ShareKeeper
