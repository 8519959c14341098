import ShareKeeper.Proofs.Controller
import ShareKeeper.Proofs.Ledger
import ShareKeeper.Proofs.Record

/-!
# What is left when an object goes

The only link from an object to its entity is the ARN in the stored status, and a patch that may be
refused puts it there. So every entity that was created is recorded (`Linked`) as long as no patch
after a creation is refused (`CreationRecorded`). Each turn of a run keeps this (`linked_turn`), and
once the finalizer is taken off, what is left are exactly the entities that the object does not name
(`alive_of_released`).

An object whose creation was never recorded is let go with its entity left behind (`left_behind`).
-/

namespace ShareKeeper

open Pass

variable {k : Kind}

/-! ## Runs -/

/-- What happens to an object. -/
inductive Turn where
  /-- Somebody sets a member of the stored object, though not the status. -/
  | edit (name : String) (value : Json) (h : name ≠ "status")
  | pass

namespace World

/-- One turn. A pass is over the object as it is stored, if that can be read. -/
def turn (c : Controller k) (w : World Ledger) : Turn → World Ledger
  | .edit name value _ =>
    { w with cluster := { w.cluster with object := w.cluster.object.setMember name value } }
  | .pass =>
    match Resource.decode k w.cluster.object with
    | .ok r => (c.pass Ledger.serve r w).2
    | .error _ => w

def turns (c : Controller k) (w : World Ledger) (l : List Turn) : World Ledger := l.foldl (turn c) w

/-- The service and what was created there. -/
abbrev ledger (w : World Ledger) : Ledger := w.session.backend

/-- If an entity is created in a turn, the patch of the status after it is accepted. -/
def CreationRecorded (c : Controller k) (w : World Ledger) (t : Turn) : Prop :=
  (w.turn c t).ledger.created ≠ w.ledger.created → w.cluster.nextRefusal.1 = none

/-- Every turn of a run is of a certain sort. -/
def Along (c : Controller k) (P : World Ledger → Turn → Prop) (w : World Ledger) : List Turn → Prop
  | [] => True
  | t :: rest => P w t ∧ Along c P (w.turn c t) rest

end World

/-! ## Entities that are recorded -/

/-- The stored object names every entity that was created and is still there. -/
def Linked (k : Kind) (l : Ledger) (b : Cluster) : Prop :=
  ∀ arn ∈ l.created, l.Alive k arn → b.object.Names arn

variable {c : Controller k} {r : Resource k} {l l' : Ledger} {b b' : Cluster}
  {out : Except Failure Action}

/-- Work against the service that creates nothing, whatever is patched then. -/
theorem Linked.mono (h : Linked k l b) (hcreated : l'.created = l.created)
    (halive : ∀ arn, l'.Alive k arn → l.Alive k arn)
    (hnames : ∀ arn, b.object.Names arn → b'.object.Names arn) : Linked k l' b' := by
  intro arn harn hlive
  rw [hcreated] at harn
  exact hnames arn (h arn harn (halive arn hlive))

namespace Controller

/-- The service stays sound whatever a pass does. -/
theorem Effect.sound (h : Effect c Ledger.serve r l b out l' b') (hl : l.Sound) : l'.Sound := by
  cases h with
  | idle | held => exact hl
  | reconciled _ _ hrun | failed _ _ hrun | kept hrun | released _ hrun =>
    exact (hl.accounts (Dialogue.of_run hrun)).sound

/-- **A pass keeps the entities recorded,** if a creation in it can be. -/
theorem Effect.linked (h : Effect c Ledger.serve r l b out l' b') (hc : c.manager = k.manager)
    (hr : Resource.decode k b.object = .ok r) (hl : l.Sound) (hlinked : Linked k l b)
    (hrecorded : l'.created ≠ l.created → b.nextRefusal.1 = none) : Linked k l' b' := by
  have hname : ∀ arn, b.object.Names arn → r.arn = some arn := fun arn hnames =>
    arn_of_decode hnames hr
  cases h with
  | idle => exact hlinked
  | held p => exact hlinked.mono rfl (fun _ => id) fun _ h => Cluster.names_patchFinalizers h p
  | @reconciled _ o _ now hlive hrun =>
    rw [hc] at hrun
    cases hl.settled (Dialogue.of_run hrun) with
    | kept hcreated halive harn =>
      refine hlinked.mono hcreated halive fun arn hnames => ?_
      exact Cluster.names_patchStatus hnames ((harn o rfl).trans (hname arn hnames))
    | @created _ _ new hcreated halive harn habsent =>
      have hgrown : l'.created ≠ l.created := by simp [hcreated]
      intro arn hmem hlive
      rw [hcreated, List.mem_append, List.mem_singleton] at hmem
      rcases hmem with hmem | rfl
      · rcases halive arn hlive with hold | rfl
        · -- what was recorded before would have been found by the look
          exact absurd hold (habsent arn (hname arn (hlinked arn hmem hold)))
        · exact Cluster.names_of_accepted harn (hrecorded hgrown)
      · exact Cluster.names_of_accepted harn (hrecorded hgrown)
  | @failed _ e _ now hlive hrun =>
    rw [hc] at hrun
    cases hl.settled (Dialogue.of_run hrun) with
    | kept hcreated halive harn =>
      refine hlinked.mono hcreated halive fun arn hnames => ?_
      exact Cluster.names_patchStatus hnames
        ((arn_recordFailure now r e).trans (hname arn hnames))
  | kept hrun =>
    rw [hc] at hrun
    obtain ⟨-, hcreated, halive, -⟩ := hl.deleted (Dialogue.of_run hrun)
    exact hlinked.mono hcreated halive fun _ => id
  | released p hrun =>
    rw [hc] at hrun
    obtain ⟨-, hcreated, halive, -⟩ := hl.deleted (Dialogue.of_run hrun)
    exact hlinked.mono hcreated halive fun _ h => Cluster.names_patchFinalizers h p

/-- A pass over an object that is going away takes the finalizer off only after a deletion. -/
theorem Effect.deleted_of_ok {σ : Type} {service : Service σ} {s s' : σ} {action : Action}
    (h : Effect c service r s b (.ok action) s' b')
    (hdeleting : r.metadata.deletionTimestamp ≠ none) (hheld : IsHeld r) :
    Pass.run service (deleteEntity c.manager r) s = (.ok (), s') := by
  cases h with
  | idle h =>
    rcases h with hfree | ⟨e, he⟩
    · exact absurd hheld hfree
    · cases he
  | held p hfree => exact absurd hheld hfree
  | reconciled now hlive | failed now hlive => exact absurd hlive hdeleting
  | released p hrun => exact hrun

end Controller

/-! ## Turns -/

namespace World

variable {w : World Ledger}

theorem sound_turn (h : w.ledger.Sound) (t : Turn) : (w.turn c t).ledger.Sound := by
  cases t with
  | edit => exact h
  | pass =>
    rw [turn]
    split
    · next r hr => exact (Controller.effect_pass (c := c) (r := r) rfl).sound h
    · exact h

/-- **A turn keeps the entities recorded.** -/
theorem linked_turn (hc : c.manager = k.manager) (hsound : w.ledger.Sound)
    (h : Linked k w.ledger w.cluster) {t : Turn} (ht : CreationRecorded c w t) :
    Linked k (w.turn c t).ledger (w.turn c t).cluster := by
  cases t with
  | edit name value hname =>
    exact h.mono rfl (fun _ => id) fun _ hnames => hnames.setMember hname value
  | pass =>
    rw [CreationRecorded, turn] at ht
    rw [turn]
    split at ht
    · next r hr =>
      exact (Controller.effect_pass rfl).linked hc hr hsound h ht
    · exact h

theorem sound_turns (h : w.ledger.Sound) (turns : List Turn) : (w.turns c turns).ledger.Sound := by
  induction turns generalizing w with
  | nil => exact h
  | cons t rest ih => exact ih (sound_turn h t)

/-- **A run keeps the entities recorded.** -/
theorem linked_turns (hc : c.manager = k.manager) (hsound : w.ledger.Sound)
    (h : Linked k w.ledger w.cluster) {turns : List Turn}
    (hturns : Along c (CreationRecorded c) w turns) :
    Linked k (w.turns c turns).ledger (w.turns c turns).cluster := by
  induction turns generalizing w with
  | nil => exact h
  | cons t rest ih => exact ih (sound_turn hsound t) (linked_turn hc hsound h hturns.1) hturns.2

end World

/-- **What is left when an object goes.** When the finalizer is taken off an object, its entity is
gone and all others are left. None that was created on the way is among them, if the ARN of each could
be recorded at once. -/
theorem alive_of_released (hc : c.manager = k.manager) {w w' : World Ledger} (hsound : w.ledger.Sound)
    (hnew : w.ledger.created = []) {turns : List Turn} {action : Action}
    (hr : Resource.decode k (w.turns c turns).cluster.object = .ok r)
    (hdeleting : r.metadata.deletionTimestamp ≠ none) (hheld : Controller.IsHeld r)
    (hpass : c.pass Ledger.serve r (w.turns c turns) = (.ok action, w')) (arn : String) :
    (w'.ledger.Alive k arn ↔ (w.turns c turns).ledger.Alive k arn ∧ r.arn ≠ some arn) ∧
      (World.Along c (World.CreationRecorded c) w turns → arn ∈ (w.turns c turns).ledger.created →
        ¬ w'.ledger.Alive k arn) := by
  have hdeleted := (Controller.effect_pass hpass).deleted_of_ok hdeleting hheld
  rw [hc] at hdeleted
  obtain ⟨-, -, -, hleft⟩ := (World.sound_turns hsound turns).deleted (Dialogue.of_run hdeleted)
  refine ⟨hleft rfl arn, fun hrecorded hcreated halive => ?_⟩
  have hlinked : Linked k w.ledger w.cluster := by
    intro x hx
    rw [hnew] at hx
    exact absurd hx List.not_mem_nil
  obtain ⟨hbefore, hother⟩ := (hleft rfl arn).1 halive
  have hnames := World.linked_turns hc hsound hlinked hrecorded arn hcreated hbefore
  exact hother (arn_of_decode hnames hr)

/-! ## A permission and its end -/

namespace Permission

/-- A controller of permissions. -/
def keeper : Controller .permission where
  manager := Kind.manager .permission
  settings := .default
  region := none
  clock := ⟨fun _ => .epoch, fun _ => .zero false⟩

/-- The metadata of a permission with the finalizer on, and more. -/
def heldMetadata (more : List (String × Json)) : Json :=
  .object (more ++ [("finalizers", .array [.string Controller.finalizerName]),
    ("name", .string "reader")])

def heldPermission : Json :=
  .object [("metadata", heldMetadata []),
    ("spec", .object [("name", .string "reader"), ("policyTemplate", .string "\x7b\x7d"),
      ("resourceType", .string "ec2:Subnet"), ("tags", .array [])])]

/-- The permission with an account that is empty; the patches to come are prepared. -/
def heldWorld (prepared : List (Option Refusal)) : World Ledger :=
  .start (.start heldPermission prepared) ⟨.genuine .empty, []⟩

/-- A pass creates the permission, and then it is to be deleted. -/
def lifetime : List Turn :=
  [.pass, .edit "metadata"
    (heldMetadata [("deletionTimestamp", .string "2024-01-01T00:00:00Z")]) (by decide)]

/-- The patch of the status is refused. -/
def refusal : Refusal := ⟨"Failure", "the server is overloaded", "InternalError", 500⟩

/-- What can be seen of a pass over an object that is going away under the finalizer: whether it
lets the object go, and whether the permission is there afterwards. -/
def seenAtEnd (w : World Ledger) : Option (Bool × Bool) :=
  match Resource.decode .permission w.cluster.object with
  | .error _ => none
  | .ok r =>
    if r.metadata.deletionTimestamp ≠ none ∧ Controller.finalizerName ∈ r.metadata.finalizers.getD []
    then
      let (out, w') := keeper.pass Ledger.serve r w
      some (out.isOk, w'.ledger.stage.account.permissions.contains (Account.permissionArn "reader"))
    else none

theorem exists_of_seenAtEnd (w : World Ledger) (left : Bool) (h : seenAtEnd w = some (true, left)) :
    ∃ r action w', Resource.decode .permission w.cluster.object = .ok r ∧
      r.metadata.deletionTimestamp ≠ none ∧ Controller.IsHeld r ∧
      keeper.pass Ledger.serve r w = (.ok action, w') ∧
      (w'.ledger.Alive .permission (Account.permissionArn "reader") ↔ left = true) := by
  unfold seenAtEnd at h
  split at h
  · cases h
  · next r hr =>
    split at h
    · next hgoing =>
      cases hpass : keeper.pass Ledger.serve r w with
      | mk out w' =>
        rw [hpass] at h
        obtain ⟨hout, hleft⟩ := Prod.mk.inj (Option.some.inj h)
        cases out with
        | error e => cases hout
        | ok action =>
          refine ⟨r, action, w', hr, hgoing.1, hgoing.2, hpass, ?_⟩
          rw [← hleft, Roster.contains, Option.isSome_iff_exists]
          rfl
    · cases h

theorem sound_heldWorld (prepared : List (Option Refusal)) : (heldWorld prepared).ledger.Sound :=
  ⟨Script.harmless_none, Account.byArn_empty⟩

/-- The permission is gone with its object. -/
theorem alive_of_lifetime :
    ∃ r action w',
      Resource.decode .permission ((heldWorld []).turns keeper lifetime).cluster.object = .ok r ∧
      r.metadata.deletionTimestamp ≠ none ∧ Controller.IsHeld r ∧
      keeper.pass Ledger.serve r ((heldWorld []).turns keeper lifetime) = (.ok action, w') ∧
      (w'.ledger.Alive .permission (Account.permissionArn "reader") ↔
        ((heldWorld []).turns keeper lifetime).ledger.Alive .permission
            (Account.permissionArn "reader") ∧
          r.arn ≠ some (Account.permissionArn "reader")) ∧
      Account.permissionArn "reader" ∈ ((heldWorld []).turns keeper lifetime).ledger.created ∧
      ¬ w'.ledger.Alive .permission (Account.permissionArn "reader") := by
  obtain ⟨r, action, w', hr, hdeleting, hheld, hpass, -⟩ :=
    exists_of_seenAtEnd ((heldWorld []).turns keeper lifetime) false (by decide +kernel)
  have hcreated : Account.permissionArn "reader"
      ∈ ((heldWorld []).turns keeper lifetime).ledger.created := by decide +kernel
  have hrecorded : World.Along keeper (World.CreationRecorded keeper) (heldWorld []) lifetime :=
    ⟨fun _ => rfl, fun _ => by decide +kernel, trivial⟩
  obtain ⟨hiff, hgone⟩ := alive_of_released rfl (sound_heldWorld []) rfl hr hdeleting hheld hpass
    (Account.permissionArn "reader")
  exact ⟨r, action, w', hr, hdeleting, hheld, hpass, hiff, hcreated, hgone hrecorded hcreated⟩

/-- **A permission that is left behind.** It was created, the patch that should have recorded its ARN
was refused, and then its object is let go. -/
theorem left_behind :
    (heldWorld [some refusal]).ledger.Sound ∧ (heldWorld [some refusal]).ledger.created = [] ∧
      ∃ r action w',
        Resource.decode .permission ((heldWorld [some refusal]).turns keeper lifetime).cluster.object
          = .ok r ∧
        r.metadata.deletionTimestamp ≠ none ∧ Controller.IsHeld r ∧
        keeper.pass Ledger.serve r ((heldWorld [some refusal]).turns keeper lifetime)
          = (.ok action, w') ∧
        Account.permissionArn "reader"
          ∈ ((heldWorld [some refusal]).turns keeper lifetime).ledger.created ∧
        w'.ledger.Alive .permission (Account.permissionArn "reader") := by
  refine ⟨sound_heldWorld _, rfl, ?_⟩
  obtain ⟨r, action, w', hr, hdeleting, hheld, hpass, hleft⟩ :=
    exists_of_seenAtEnd ((heldWorld [some refusal]).turns keeper lifetime) true (by decide +kernel)
  exact ⟨r, action, w', hr, hdeleting, hheld, hpass, by decide +kernel, hleft.2 rfl⟩

end Permission

end ShareKeeper
