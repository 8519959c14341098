import ShareKeeper.Proofs.Permission.Plan
import ShareKeeper.Proofs.Share.Plan

/-!
# The exact plan of a pass

As long as nothing is refused, what a pass asks for after its looks is settled by what these were
answered: `Resource.plan` lists it, for objects of either kind. Nothing of the list is left out and
nothing is added, whatever else the service tells (`changes_eq_plan`).
-/

namespace ShareKeeper

open Pass

/-- What the looks of a pass were answered. -/
abbrev Kind.View : Kind → Type
  | .permission => PermissionDetail
  | .share => ShareView

namespace Resource

/-- The looks of a pass at the entity under an ARN, with their answers. -/
def looks : {k : Kind} → Resource k → String → k.View → List Exchange
  | .permission, _, arn, d => [⟨.getPermission arn none, .ok d⟩]
  | .share, r, arn, v => Share.looks r arn v

/-- The object with the entity as the looks tell of it. -/
def told : {k : Kind} → Resource k → String → k.View → Resource k
  | .permission, r, arn, d => Permission.seen r ⟨arn, d⟩
  | .share, r, _, v => Share.told r v

/-- Whether the policy is another one, so that a rotation is due. -/
def rotationDue : {k : Kind} → Resource k → k.View → Bool
  | .permission, r, d => Permission.policyDiffers r d
  | .share, _, _ => false

/-- **The plan of a pass,** addressed to the ARN that was told, or else to the recorded one. A rotation
leads away from version `m` and to version `n`. -/
def plan : {k : Kind} → Resource k → String → k.View → (m n : Int) → List Request
  | .permission, r, arn, d, m, n => Permission.plan r (d.arn.getD arn) d m n
  | .share, r, arn, v, _, _ => Share.plan r (v.detail.arn.getD arn) v

end Resource

/-- The version that is told of has the number `m`, and the one that is created the number `n`. -/
def Numbered : {k : Kind} → k.View → List Exchange → (m n : Int) → Prop
  | .permission, d, changes, m, n =>
    d.version.map Rotation.parseVersion = some (.ok m) ∧ ∀ x ∈ changes, x.Numbers n
  | .share, _, _, _, _ => True

section Plan

variable {k : Kind} {σ : Type} {service : Service σ} {region : Option String} {now : Instant}
  {r latest : Resource k} {arn : String} {s s' : σ}

/-- A look that succeeds. -/
theorem looks_inv {heard : List Exchange} (harn : r.arn = some arn)
    (h : Dialogue service (k.manager.readOne r) s heard (.ok latest) s') :
    ∃ v, heard = r.looks arn v ∧ latest = r.told arn v := by
  cases k with
  | permission =>
    obtain ⟨arn', d, harn', rfl, rfl⟩ := Permission.readOne_inv h
    cases harn.symm.trans harn'
    exact ⟨d, rfl, rfl⟩
  | share =>
    obtain ⟨arn', v, harn', rfl, rfl⟩ := Share.readOne_inv h
    cases harn.symm.trans harn'
    exact ⟨v, rfl, rfl⟩

/-- A look that is granted finds the entity, unless it is a share that is only still listed. -/
theorem exists_of_granted {heard : List Exchange} {x : Except Failure (Resource k)}
    (harn : r.arn = some arn) (h : Dialogue service (k.manager.readOne r) s heard x s')
    (hgranted : ∀ y ∈ heard, y.refusal? = none) (hlive : ∀ y ∈ heard, ¬ y.ListsDeleted) :
    ∃ latest, x = .ok latest := by
  cases x with
  | ok latest => exact ⟨latest, rfl⟩
  | error e =>
    rcases (raises_readOne r).dialogue_cases h with rfl | ⟨y, hy, a, ha, -⟩
    · rcases (readOne_eq_notFound_iff h).1 rfl with hnone | ⟨y, hy, hdeleted⟩
      · cases harn.symm.trans hnone
      · exact absurd hdeleted (hlive y hy)
    · cases (hgranted y hy).symm.trans ha

/-- What is asked of an entity of either kind. -/
theorem requests_bringInLine {v : k.View} {said : List Exchange}
    {out : Except Failure (Resource k × Bool)} {m n : Int} (harn : r.arn = some arn)
    (h : Dialogue service (bringInLine k.manager r (r.told arn v)) s said out s')
    (hgranted : ∀ x ∈ said, x.refusal? = none)
    (hnumbered : r.rotationDue v = true → Numbered v said m n) :
    said.map Sigma.fst = r.plan arn v m n := by
  cases k with
  | permission =>
    exact Permission.requests_of_granted harn h hgranted (fun hdue => (hnumbered hdue).1)
      fun x hx hdue => (hnumbered hdue).2 x hx
  | share => exact Share.requests_of_granted harn h hgranted

/-- **The exact plan of a pass.** An object that is valid and names its entity is looked at, and if
nothing is refused and the share is not only still listed, the requests that follow are those of the
plan; the versions of a rotation have to be numbers. -/
theorem changes_eq_plan (hvalid : k.manager.validate r = .ok ()) (harn : r.arn = some arn)
    (hgranted : ∀ x ∈ transcript service (reconcile k.manager region now r) s, x.refusal? = none)
    (hlive : ∀ x ∈ transcript service (reconcile k.manager region now r) s, ¬ x.ListsDeleted) :
    ∃ v changes,
      transcript service (reconcile k.manager region now r) s = r.looks arn v ++ changes ∧
        ∀ m n, (r.rotationDue v = true → Numbered v changes m n) →
          changes.map Sigma.fst = r.plan arn v m n := by
  have hdialogue : Dialogue service (reconcile k.manager region now r) s
      (transcript service (reconcile k.manager region now r) s)
      (run service (reconcile k.manager region now r) s).1
      (run service (reconcile k.manager region now r) s).2 := ⟨rfl, rfl⟩
  have hwalk := walk_of_dialogue hdialogue
  clear hdialogue
  generalize transcript service (reconcile k.manager region now r) s = heard at hwalk hgranted hlive ⊢
  generalize (run service (reconcile k.manager region now r) s).1 = out at hwalk
  generalize (run service (reconcile k.manager region now r) s).2 = s' at hwalk
  cases hwalk with
  | rejected hrejected => cases hvalid.symm.trans hrejected
  | lost _ hlook _ =>
    obtain ⟨latest, hfound⟩ := exists_of_granted harn hlook hgranted hlive
    cases hfound
  | created _ hlook _ _ =>
    obtain ⟨latest, hfound⟩ := exists_of_granted harn hlook
      (fun x hx => hgranted x (List.mem_append_left _ hx))
      fun x hx => hlive x (List.mem_append_left _ hx)
    cases hfound
  | found _ hlook hline =>
    obtain ⟨v, rfl, rfl⟩ := looks_inv harn hlook
    exact ⟨v, _, rfl, fun m n hnumbered => requests_bringInLine harn hline
      (fun x hx => hgranted x (List.mem_append_right _ hx)) hnumbered⟩

end Plan

/-- An account in which the permission has another policy, and no tag. -/
def Permission.unlabelled : Account :=
  Account.empty.putPermission (Account.newPermission ⟨"reader", "ec2:Subnet", "\x7b\x7d", []⟩)

/-- A permission that gets a tag and another policy. -/
theorem Permission.changes_of_unlabelled :
    requests Account.serve (reconcile (Kind.manager .permission) none .epoch labelled) unlabelled
        = [.getPermission (Account.permissionArn "reader") none,
          .tag (.resource (Account.permissionArn "reader")) [⟨"stage", "prod"⟩],
          .createPermissionVersion (Account.permissionArn "reader") "[]",
          .deletePermissionVersion (Account.permissionArn "reader") 1,
          .setDefaultPermissionVersion (Account.permissionArn "reader") 2] ∧
      ∃ v changes, transcript Account.serve
          (reconcile (Kind.manager .permission) none .epoch labelled) unlabelled
          = Resource.looks labelled (Account.permissionArn "reader") v ++ changes ∧
        ∀ m n, (Resource.rotationDue labelled v = true → Numbered v changes m n) →
          changes.map Sigma.fst
            = Resource.plan labelled (Account.permissionArn "reader") v m n := by
  have hshareless : ∀ x ∈ transcript Account.serve
      (reconcile (Kind.manager .permission) none .epoch labelled) unlabelled,
      x.1.operation ≠ .getResourceShares := by
    decide +kernel
  have hok : (run Account.serve (reconcile (Kind.manager .permission) none .epoch labelled)
      unlabelled).1.isOk = true := by
    decide +kernel
  obtain ⟨out, a', hrun⟩ := exists_of_isOk hok
  refine ⟨by decide +kernel, changes_eq_plan (validate_of_ok hrun) rfl (by decide +kernel)
    fun x hx => Exchange.not_listsDeleted fun arn hq => hshareless x hx (by rw [hq])⟩

end ShareKeeper
