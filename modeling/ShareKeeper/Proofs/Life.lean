import ShareKeeper.Proofs.Permission.Course
import ShareKeeper.Proofs.Share.Sources
import ShareKeeper.Proofs.Walk

/-!
# Which entities are there

A permission is there as long as the account has it, a share as long as it is not deleted
(`Account.Alive`). Nothing comes to life but by the request that creates it, and the answer tells its
ARN (`alive_serve`). A look finds exactly what is there (`course_look`), and the deletion of an entity
that gets through leaves everything alive but the one that is recorded (`deleteEntity_alive_iff`).
-/

namespace ShareKeeper

open Pass

/-- There is an entity with an ARN. -/
def Account.Alive (a : Account) : Kind → String → Prop
  | .permission, arn => ∃ p, a.permissions.find? arn = some p
  | .share, arn => ∃ s, a.shares.find? arn = some s ∧ s.detail.status ≠ some Share.deletedState

/-- The request that deletes an entity. -/
def Kind.deletion : Kind → String → Request
  | .permission => .deletePermission
  | .share => .deleteShare

namespace Account

variable {a : Account} {q : Request} {arn : String}

/-! ## Coming to life -/

theorem permissions_withPermission_none {β : Type} (h : a.permissions.find? arn = none)
    (o : Operation) (x : String) {f : PermissionRecord → β × PermissionRecord}
    (harn : ∀ p, (f p).2.arn = p.arn) :
    (a.withPermission o x f).2.permissions.find? arn = none := by
  cases hp : a.permissions.find? x with
  | none =>
    rw [withPermission, hp]
    exact h
  | some p =>
    rw [withPermission_of_find? hp]
    have hne : arn ≠ (f p).2.arn := by
      rw [harn p, Roster.key_of_find? hp]
      rintro rfl
      cases h.symm.trans hp
    rw [find?_putPermission, if_neg hne, h]

theorem permissions_changeTags_none (h : a.permissions.find? arn = none) (x : String)
    (f : List Tag → List Tag) : (a.changeTags x f).permissions.find? arn = none := by
  cases hs : a.shares.find? x with
  | some s =>
    rw [changeTags_share hs]
    exact h
  | none =>
    cases hp : a.permissions.find? x with
    | none =>
      rw [changeTags, hs]
      dsimp only
      rw [hp]
      exact h
    | some p =>
      rw [changeTags_permission hs hp]
      have hkey : p.arn = x := Roster.key_of_find? hp
      have hne : arn ≠ p.arn := by
        rw [hkey]
        rintro rfl
        cases h.symm.trans hp
      exact (find?_putPermission a _ arn).trans ((if_neg hne).trans h)

/-- A permission that was not there is created by the request. -/
theorem permissions_serve (h : a.permissions.find? arn = none) :
    (serve q a).2.permissions.find? arn = none ∨
      Exchange.createdArn? ⟨q, (serve q a).1⟩ = some arn := by
  cases q with
  | createPermission i =>
    by_cases harn : arn = permissionArn i.name
    · exact .inr (congrArg some harn.symm)
    · exact .inl ((find?_putPermission a (newPermission i) arn).trans ((if_neg harn).trans h))
  | deletePermission x =>
    refine .inl ?_
    simp only [serve]
    split
    · rw [Roster.find?_erase, h, ite_self]
    · exact h
  | getPermission x | createPermissionVersion x | setDefaultPermissionVersion x =>
    exact .inl (permissions_withPermission_none h _ x fun _ => rfl)
  | tag target | untag target => exact .inl (permissions_changeTags_none h target.arn _)
  | createShare | deletePermissionVersion => exact .inl h
  | deleteShare | getShare | updateShare | associate | disassociate | attachPermission
  | detachPermission | listPermissions | listAssociations =>
    refine .inl ?_
    simp only [serve, changeShare, withShare_permissions]
    exact h

/-- What is left alive by the deletion of a share. -/
theorem alive_deleteShare_iff (a : Account) (x arn : String) :
    (serve (.deleteShare x) a).2.Alive .share arn ↔ a.Alive .share arn ∧ arn ≠ x := by
  cases hs : a.shares.find? x with
  | none =>
    rw [serve, changeShare, withShare, hs]
    refine ⟨fun h => ⟨h, ?_⟩, fun h => h.1⟩
    rintro rfl
    obtain ⟨s, hfound, -⟩ := h
    cases hs.symm.trans hfound
  | some s =>
    have hkey : s.arn = x := Roster.key_of_find? hs
    rw [serve, changeShare_of_find? hs, Alive, find?_putShare, Alive]
    by_cases harn : arn = x
    · subst harn
      rw [if_pos hkey.symm]
      refine iff_of_false ?_ fun h => h.2 rfl
      rintro ⟨t, ht, hlive⟩
      cases ht
      exact hlive rfl
    · rw [if_neg (by simpa [hkey] using harn)]
      simp [harn]

theorem serve_deletePermission {p : PermissionRecord} (h : a.permissions.find? arn = some p) :
    serve (.deletePermission arn) a = (.ok (), { a with permissions := a.permissions.erase arn }) := by
  have hfound : a.permissions.contains arn = true := by rw [Roster.contains, h, Option.isSome_some]
  rw [serve, if_pos hfound]

theorem serve_deletePermission_absent (h : a.permissions.find? arn = none) :
    serve (.deletePermission arn) a = (.error (Operation.deletePermission.missing arn), a) := by
  have hfound : ¬ a.permissions.contains arn = true := by simp [Roster.contains, h]
  rw [serve, if_neg hfound]

/-- What is left alive by the deletion of a permission. -/
theorem alive_deletePermission_iff (a : Account) (x arn : String) :
    (serve (.deletePermission x) a).2.Alive .permission arn ↔ a.Alive .permission arn ∧ arn ≠ x := by
  cases hp : a.permissions.find? x with
  | none =>
    rw [serve_deletePermission_absent hp]
    refine ⟨fun h => ⟨h, ?_⟩, fun h => h.1⟩
    rintro rfl
    obtain ⟨p, hfound⟩ := h
    cases hp.symm.trans hfound
  | some p =>
    rw [serve_deletePermission hp, Alive, Roster.find?_erase, Alive]
    by_cases harn : arn = x <;> simp [harn]

/-- **Nothing comes to life but by a creation that tells its ARN.** -/
theorem alive_serve {k : Kind} (h : (serve q a).2.Alive k arn) :
    a.Alive k arn ∨ Exchange.createdArn? ⟨q, (serve q a).1⟩ = some arn := by
  cases k with
  | permission =>
    obtain ⟨p, hp⟩ := h
    cases hold : a.permissions.find? arn with
    | some p => exact .inl ⟨p, hold⟩
    | none =>
      rcases permissions_serve (q := q) hold with hnone | hcreated
      · cases hnone.symm.trans hp
      · exact .inr hcreated
  | share =>
    by_cases hcreate : ∃ i, q = .createShare i
    · obtain ⟨i, rfl⟩ := hcreate
      obtain ⟨s, hs, hlive⟩ := h
      by_cases harn : arn = shareArn i.name
      · exact .inr (congrArg some harn.symm)
      · exact .inl ⟨s, ((find?_putShare a (newShare i) arn).trans (if_neg harn)).symm.trans hs, hlive⟩
    · by_cases hdelete : ∃ x, q = .deleteShare x
      · obtain ⟨x, rfl⟩ := hdelete
        exact .inl ((alive_deleteShare_iff a x arn).1 h).1
      · obtain ⟨s, hs, hlive⟩ := h
        exact .inl (Share.noneNew_serve (fun i hi => hcreate ⟨i, hi⟩) (fun x hx => hdelete ⟨x, hx⟩)
          (fun t ht htlive => ⟨t, ht, htlive⟩) s hs hlive)

end Account

/-! ## Looking and deleting -/

section Deleting

variable {k : Kind} {a : Account} {r latest : Resource k} {arn : String}

/-- **A look finds what is there.** -/
theorem course_look (harns : a.ByArn) (harn : r.arn = some arn) (halive : a.Alive k arn) :
    ∃ asked latest, latest.arn = some arn ∧
      Course Account.serve (k.manager.readOne r) a asked (.ok latest) a := by
  cases k with
  | permission =>
    obtain ⟨p, hp⟩ := halive
    exact ⟨_, _, Permission.seen_arn (harns.permissions arn p hp) harn,
      Permission.course_readOne ⟨harn, hp⟩⟩
  | share =>
    obtain ⟨s, hs, hlive⟩ := halive
    exact ⟨_, _, Share.seen_arn (harns.shares arn s hs) harn, Share.course_readOne ⟨harn, hs, hlive⟩⟩

/-- A look finds that there is nothing. -/
theorem course_look_absent (h : ∀ arn, r.arn = some arn → ¬ a.Alive k arn) :
    ∃ e asked, e.isNotFound = true ∧
      Course Account.serve (k.manager.readOne r) a asked (.error e) a := by
  cases k with
  | permission =>
    exact Permission.course_readOne_absent fun arn p hp => h arn hp.recorded ⟨p, hp.found⟩
  | share =>
    exact Share.course_readOne_absent fun arn s hs => h arn hs.recorded ⟨s, hs.found, hs.live⟩

/-- The deletion of what is there. -/
theorem course_delete (harn : latest.arn = some arn) (halive : a.Alive k arn) :
    Course Account.serve (k.manager.delete latest) a [k.deletion arn] (.ok ())
      (Account.serve (k.deletion arn) a).2 := by
  cases k with
  | permission =>
    obtain ⟨p, hp⟩ := halive
    have hserve : Account.serve (.deletePermission arn) a
        = (.ok (), (Account.serve (.deletePermission arn) a).2) := by
      rw [Account.serve_deletePermission hp]
    exact (Course.lift_ok (requireArn_of_arn harn)).bind_quiet (Course.recorded_ok hserve)
  | share =>
    obtain ⟨s, hs, -⟩ := halive
    have hserve : Account.serve (.deleteShare arn) a
        = (.ok (), (Account.serve (.deleteShare arn) a).2) := by
      rw [Account.serve, Account.changeShare_of_find? hs]
    exact (Course.lift_ok (requireArn_of_arn harn)).bind_quiet (Course.recorded_ok hserve)

theorem alive_deletion_iff (k : Kind) (a : Account) (x arn : String) :
    (Account.serve (k.deletion x) a).2.Alive k arn ↔ a.Alive k arn ∧ arn ≠ x := by
  cases k with
  | permission => exact Account.alive_deletePermission_iff a x arn
  | share => exact Account.alive_deleteShare_iff a x arn

/-! ## What a deletion asks for -/

theorem Operation.not_create_of_isRead {o : Operation} (h : o.isRead = true) :
    o.purpose ≠ .create := by
  cases o <;> first | decide | cases h

theorem asks_delete : (k.manager.delete r).Asks fun q => q.operation.purpose ≠ .create := by
  cases k <;> exact (asks_lift _).bind fun _ => asks_recorded (by simp [Operation.purpose])

theorem stopsOn_delete {bad : ApiError → Prop} : (k.manager.delete r).StopsOn bad := by
  cases k <;> exact (stopsOn_lift _).bind fun _ => stopsOn_recorded _

theorem asks_forgiveAbsence (x : Except Failure Unit) {allowed : Request → Prop} :
    (forgiveAbsence x).Asks allowed := by
  unfold forgiveAbsence
  split
  · trivial
  · split <;> trivial

theorem stopsOn_forgiveAbsence (x : Except Failure Unit) {bad : ApiError → Prop} :
    (forgiveAbsence x).StopsOn bad := by
  unfold forgiveAbsence
  split
  · trivial
  · split <;> trivial

/-- Trouble is not forgiven. -/
theorem forgiveAbsence_of_isTrouble {e : ApiError} (he : e.IsTrouble) :
    forgiveAbsence (.error (.api e)) = .fail (.api e) := by
  rw [forgiveAbsence, if_neg (by simp [he.isNotFound_eq])]

/-- A deletion creates nothing. -/
theorem asks_deleteEntity (r : Resource k) :
    (deleteEntity k.manager r).Asks fun q => q.operation.purpose ≠ .create := by
  rw [deleteEntity]
  split
  · trivial
  · refine ((asks_readOne r).mono fun _ => Operation.not_create_of_isRead).attempt.bind fun x => ?_
    cases x with
    | error e => exact asks_forgiveAbsence _
    | ok latest => exact asks_delete.attempt.bind fun x => asks_forgiveAbsence x

/-- A refusal for another reason than absence ends a deletion at once. -/
theorem stopsOn_deleteEntity (r : Resource k) :
    (deleteEntity k.manager r).StopsOn ApiError.IsTrouble := by
  rw [deleteEntity]
  split
  · trivial
  · refine (stopsOn_readOne r).attempt_bind (fun e => forgiveAbsence_of_isTrouble) fun x => ?_
    cases x with
    | error e => exact stopsOn_forgiveAbsence _
    | ok latest =>
      exact stopsOn_delete.attempt_bind (fun e => forgiveAbsence_of_isTrouble)
        fun x => stopsOn_forgiveAbsence x

/-- **A deletion that gets through leaves alive what is not recorded.** -/
theorem deleteEntity_alive_iff {a' : Account} (harns : a.ByArn)
    (h : run Account.serve (deleteEntity k.manager r) a = (.ok (), a')) (x : String) :
    a'.Alive k x ↔ a.Alive k x ∧ r.arn ≠ some x := by
  cases harn : r.arn with
  | none =>
    rw [deleteEntity, harn] at h
    cases h
    simp
  | some arn =>
    rw [deleteEntity, harn] at h
    obtain ⟨seen, a₁, looks, said, hlook, hnext, -⟩ := (Dialogue.of_run h).attempt_bind_inv
    by_cases halive : a.Alive k arn
    · obtain ⟨asked, latest, hlatest, hfound⟩ := course_look harns harn halive
      cases hlook.run_eq.symm.trans hfound.run_eq
      obtain ⟨result, a₂, l, l', hdelete, hforgive, -⟩ := hnext.attempt_bind_inv
      cases hdelete.run_eq.symm.trans (course_delete hlatest halive).run_eq
      obtain ⟨-, -, rfl⟩ := hforgive.done_inv
      rw [alive_deletion_iff]
      simp [eq_comm]
    · -- there is nothing to delete, and this is forgiven
      have hnone : ∀ y, r.arn = some y → ¬ a.Alive k y := by
        intro y hy
        cases harn.symm.trans hy
        exact halive
      obtain ⟨e, asked, he, habsent⟩ := course_look_absent hnone
      cases hlook.run_eq.symm.trans habsent.run_eq
      dsimp only at hnext
      rw [forgiveAbsence, if_pos he] at hnext
      obtain ⟨-, -, rfl⟩ := hnext.done_inv
      refine ⟨fun hx => ⟨hx, fun hrecorded => ?_⟩, fun hx => hx.1⟩
      cases hrecorded
      exact halive hx

end Deleting

end ShareKeeper
