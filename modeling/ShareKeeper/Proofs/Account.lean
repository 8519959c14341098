import ShareKeeper.Proofs.Roster

/-!
# How the account answers

One equation for each request that finds its entity, the refusals of those that look for one in
vain, and what a request can do to the account at all (`serve_shares`, `serve_permissions`).

An account holds every entity under the ARN that the entity reports (`Account.ByArn`). The empty
account does, every request keeps it (`byArn_serve`), and so it is true of every account that comes
about.
-/

namespace ShareKeeper

/-- The record with other tags. -/
def ShareRecord.withTags (s : ShareRecord) (tags : List Tag) : ShareRecord :=
  { s with detail := { s.detail with tags } }

/-- The record with other tags. -/
def PermissionRecord.withTags (p : PermissionRecord) (tags : List Tag) : PermissionRecord :=
  { p with detail := { p.detail with tags } }

namespace Account

/-- No permission is held under another ARN than the one it reports. -/
def PermissionsByArn (l : Roster PermissionRecord.arn) : Prop :=
  ∀ arn p, l.find? arn = some p → ∀ x ∈ p.detail.arn, x = arn

/-- No share is held under another ARN than the one it reports. -/
def SharesByArn (l : Roster ShareRecord.arn) : Prop :=
  ∀ arn s, l.find? arn = some s → ∀ x ∈ s.detail.arn, x = arn

/-- No entity is held under another ARN than the one it reports. -/
structure ByArn (a : Account) : Prop where
  permissions : PermissionsByArn a.permissions
  shares : SharesByArn a.shares

/-- No ARN names both a permission and a share. -/
def Disjoint (a : Account) : Prop :=
  ∀ arn, a.permissions.find? arn = none ∨ a.shares.find? arn = none

theorem byArn_empty : ByArn .empty where
  permissions := fun _ _ h => by cases h
  shares := fun _ _ h => by cases h

/-! ## Putting records -/

section Put

variable {a : Account} {arn : String} {s : ShareRecord} {p : PermissionRecord}

theorem find?_putShare (a : Account) (s : ShareRecord) (arn : String) :
    (a.putShare s).shares.find? arn = if arn = s.arn then some s else a.shares.find? arn :=
  Roster.find?_insert a.shares s arn

/-- The share that was put is found. -/
theorem putShare_find? (h : s.arn = arn) : (a.putShare s).shares.find? arn = some s := by
  rw [find?_putShare, if_pos h.symm]

theorem find?_putPermission (a : Account) (p : PermissionRecord) (arn : String) :
    (a.putPermission p).permissions.find? arn
      = if arn = p.arn then some p else a.permissions.find? arn :=
  Roster.find?_insert a.permissions p arn

/-- The permission that was put is found. -/
theorem putPermission_find? (h : p.arn = arn) :
    (a.putPermission p).permissions.find? arn = some p := by
  rw [find?_putPermission, if_pos h.symm]

theorem putShare_self (h : a.shares.find? arn = some s) : a.putShare s = a := by
  rw [putShare, Roster.insert_self h]

theorem putPermission_self (h : a.permissions.find? arn = some p) : a.putPermission p = a := by
  rw [putPermission, Roster.insert_self h]

theorem putShare_putShare {t : ShareRecord} (h : s.arn = t.arn) :
    (a.putShare s).putShare t = a.putShare t := by
  simp only [putShare, Roster.insert_insert a.shares h]

theorem putPermission_putPermission {q : PermissionRecord} (h : p.arn = q.arn) :
    (a.putPermission p).putPermission q = a.putPermission q := by
  simp only [putPermission, Roster.insert_insert a.permissions h]

end Put

/-! ## Requests that find their share -/

section Share

variable {a : Account} {arn : String} {s : ShareRecord}

theorem withShare_of_find? {β : Type} (h : a.shares.find? arn = some s) (o : Operation)
    (f : ShareRecord → β × ShareRecord) :
    a.withShare o arn f = (.ok (f s).1, a.putShare (f s).2) := by
  rw [withShare, h]

theorem serve_getShare (h : a.shares.find? arn = some s) :
    serve (.getShare arn) a = (.ok s.detail, a) := by
  rw [serve, withShare_of_find? h, putShare_self h]

theorem serve_listAssociations (h : a.shares.find? arn = some s) (type : AssociationType) :
    serve (.listAssociations arn type) a = (.ok (associations s type).toList, a) := by
  rw [serve, withShare_of_find? h, putShare_self h]

theorem serve_listPermissions (h : a.shares.find? arn = some s) :
    serve (.listPermissions arn) a = (.ok s.permissions.toList, a) := by
  rw [serve, withShare_of_find? h, putShare_self h]

theorem serve_updateShare (h : a.shares.find? arn = some s) (name : Option String)
    (allow : Option Bool) :
    serve (.updateShare arn name allow) a
      = (.ok (updateDetail name allow s).detail, a.putShare (updateDetail name allow s)) := by
  rw [serve, withShare_of_find? h]

theorem changeTags_share (h : a.shares.find? arn = some s) (f : List Tag → List Tag) :
    a.changeTags arn f = a.putShare (s.withTags (f s.detail.tags)) := by
  rw [changeTags, h, ShareRecord.withTags]

theorem changeShare_of_find? (h : a.shares.find? arn = some s) (o : Operation)
    (f : ShareRecord → ShareRecord) : a.changeShare o arn f = (.ok (), a.putShare (f s)) := by
  rw [changeShare, withShare_of_find? h]

theorem serve_getShare_absent (h : a.shares.find? arn = none) :
    serve (.getShare arn) a = (.error (Operation.getResourceShares.missing arn), a) := by
  rw [serve, withShare, h]

end Share

/-! ## Requests that find their permission -/

section Permission

variable {a : Account} {arn : String} {p : PermissionRecord}

theorem withPermission_of_find? {β : Type} (h : a.permissions.find? arn = some p) (o : Operation)
    (f : PermissionRecord → β × PermissionRecord) :
    a.withPermission o arn f = (.ok (f p).1, a.putPermission (f p).2) := by
  rw [withPermission, h]

theorem serve_getPermission (h : a.permissions.find? arn = some p) (version : Option Int) :
    serve (.getPermission arn version) a = (.ok p.detail, a) := by
  rw [serve, withPermission_of_find? h, putPermission_self h]

theorem changeTags_permission (hs : a.shares.find? arn = none)
    (h : a.permissions.find? arn = some p) (f : List Tag → List Tag) :
    a.changeTags arn f = a.putPermission (p.withTags (f p.detail.tags)) := by
  rw [changeTags, hs]
  dsimp only
  rw [h, PermissionRecord.withTags]

theorem serve_getPermission_absent (h : a.permissions.find? arn = none) (version : Option Int) :
    serve (.getPermission arn version) a
      = (.error (Operation.getPermission.missing arn), a) := by
  rw [serve, withPermission, h]

end Permission

/-! ## Requests that only look -/

/-- A look changes nothing. -/
theorem serve_look {q : Request} (h : q.operation.isRead = true) (a : Account) :
    (serve q a).2 = a := by
  have hshare : ∀ {β : Type} (o : Operation) (arn : String) (f : ShareRecord → β × ShareRecord),
      (∀ s, (f s).2 = s) → (a.withShare o arn f).2 = a := by
    intro β o arn f hf
    cases hs : a.shares.find? arn with
    | none => rw [withShare, hs]
    | some s =>
      rw [withShare_of_find? hs, hf]
      exact putShare_self hs
  cases q with
  | getPermission arn version =>
    cases hp : a.permissions.find? arn with
    | none => rw [serve_getPermission_absent hp]
    | some p => rw [serve_getPermission hp]
  | getShare arn => exact hshare _ _ _ fun _ => rfl
  | listPermissions arn => exact hshare _ _ _ fun _ => rfl
  | listAssociations arn type => exact hshare _ _ _ fun _ => rfl
  | _ => cases h

/-! ## What a request can do -/

/-- What becomes of the shares by a request: nothing, or one is made anew, or one is found and put
back under the ARN that it reports. Its lifecycle state changes only when it is deleted. -/
inductive ShareEffect (r : Request) (shares : Roster ShareRecord.arn) :
    Roster ShareRecord.arn → Prop
  | none : ShareEffect r shares shares
  | created (i : ShareInput) (h : r = .createShare i) :
      ShareEffect r shares (shares.insert (newShare i))
  | changed {s t : ShareRecord} (hs : shares.find? t.arn = some s)
      (harn : t.detail.arn = s.detail.arn)
      (hstatus : t.detail.status = s.detail.status ∨ r = .deleteShare t.arn) :
      ShareEffect r shares (shares.insert t)

/-- What becomes of the permissions by a request. -/
inductive PermissionEffect (permissions : Roster PermissionRecord.arn) :
    Roster PermissionRecord.arn → Prop
  | none : PermissionEffect permissions permissions
  | erased (arn : String) : PermissionEffect permissions (permissions.erase arn)
  | created (i : PermissionInput) :
      PermissionEffect permissions (permissions.insert (newPermission i))
  | changed {p q : PermissionRecord} (hp : permissions.find? q.arn = some p)
      (harn : q.detail.arn = p.detail.arn) : PermissionEffect permissions (permissions.insert q)

section Effects

variable {r : Request} {a : Account}

theorem withShare_effect {β : Type} (o : Operation) (arn : String)
    {f : ShareRecord → β × ShareRecord} (harn : ∀ s, (f s).2.arn = s.arn)
    (hdetail : ∀ s, (f s).2.detail.arn = s.detail.arn)
    (hstatus : ∀ s, (f s).2.detail.status = s.detail.status ∨ r = .deleteShare arn) :
    ShareEffect r a.shares (a.withShare o arn f).2.shares := by
  cases h : a.shares.find? arn with
  | none =>
    rw [withShare, h]
    exact .none
  | some s =>
    rw [withShare_of_find? h]
    have hkey : (f s).2.arn = arn := (harn s).trans (Roster.key_of_find? h)
    exact .changed (hkey ▸ h) (hdetail s) (hkey ▸ hstatus s)

theorem withPermission_effect {β : Type} (o : Operation) (arn : String)
    {f : PermissionRecord → β × PermissionRecord} (harn : ∀ p, (f p).2.arn = p.arn)
    (hdetail : ∀ p, (f p).2.detail.arn = p.detail.arn) :
    PermissionEffect a.permissions (a.withPermission o arn f).2.permissions := by
  cases h : a.permissions.find? arn with
  | none =>
    rw [withPermission, h]
    exact .none
  | some p =>
    rw [withPermission_of_find? h]
    have hkey : (f p).2.arn = arn := (harn p).trans (Roster.key_of_find? h)
    exact .changed (hkey ▸ h) (hdetail p)

theorem withShare_permissions {β : Type} (o : Operation) (arn : String)
    (f : ShareRecord → β × ShareRecord) :
    (a.withShare o arn f).2.permissions = a.permissions := by
  rw [withShare]
  split <;> rfl

theorem withPermission_shares {β : Type} (o : Operation) (arn : String)
    (f : PermissionRecord → β × PermissionRecord) :
    (a.withPermission o arn f).2.shares = a.shares := by
  rw [withPermission]
  split <;> rfl

theorem changeTags_effect (arn : String) (f : List Tag → List Tag) :
    ShareEffect r a.shares (a.changeTags arn f).shares ∧
      PermissionEffect a.permissions (a.changeTags arn f).permissions := by
  cases h : a.shares.find? arn with
  | some s =>
    rw [changeTags_share h]
    have hkey : s.arn = arn := Roster.key_of_find? h
    exact ⟨.changed (s := s) (t := s.withTags (f s.detail.tags)) (hkey ▸ h) rfl (.inl rfl), .none⟩
  | none =>
    cases hp : a.permissions.find? arn with
    | none =>
      rw [changeTags, h]
      dsimp only
      rw [hp]
      exact ⟨.none, .none⟩
    | some p =>
      rw [changeTags_permission h hp]
      have hkey : p.arn = arn := Roster.key_of_find? hp
      exact ⟨.none, .changed (p := p) (q := p.withTags (f p.detail.tags)) (hkey ▸ hp) rfl⟩

/-- **What a request does to the shares.** -/
theorem serve_shares (r : Request) (a : Account) : ShareEffect r a.shares (serve r a).2.shares := by
  cases r with
  | createShare i => exact .created i rfl
  | deleteShare arn => exact withShare_effect _ arn (fun _ => rfl) (fun _ => rfl) fun _ => .inr rfl
  | getShare arn | updateShare arn | associate arn | disassociate arn | attachPermission arn
  | detachPermission arn | listPermissions arn | listAssociations arn =>
    exact withShare_effect _ arn (fun _ => rfl) (fun _ => rfl) fun _ => .inl rfl
  | tag target | untag target => exact (changeTags_effect target.arn _).1
  | createPermission | deletePermissionVersion => exact .none
  | deletePermission arn =>
    simp only [serve]
    split <;> exact .none
  | getPermission | createPermissionVersion | setDefaultPermissionVersion =>
    simp only [serve, withPermission_shares]
    exact .none

/-- **What a request does to the permissions.** -/
theorem serve_permissions (r : Request) (a : Account) :
    PermissionEffect a.permissions (serve r a).2.permissions := by
  cases r with
  | createPermission i => exact .created i
  | deletePermission arn =>
    simp only [serve]
    split
    · exact .erased arn
    · exact .none
  | getPermission arn | createPermissionVersion arn | setDefaultPermissionVersion arn =>
    exact withPermission_effect _ arn (fun _ => rfl) fun _ => rfl
  | tag target | untag target => exact (changeTags_effect (r := .getShare "") target.arn _).2
  | createShare | deletePermissionVersion => exact .none
  | deleteShare | getShare | updateShare | associate | disassociate | attachPermission
  | detachPermission | listPermissions | listAssociations =>
    simp only [serve, changeShare, withShare_permissions]
    exact .none

theorem SharesByArn.effect {l l' : Roster ShareRecord.arn} (h : SharesByArn l)
    (heffect : ShareEffect r l l') : SharesByArn l' := by
  cases heffect with
  | none => exact h
  | created i =>
    refine Roster.forall_insert h fun x hx => ?_
    cases hx
    rfl
  | changed hold harn => exact Roster.forall_insert h fun x hx => h _ _ hold x (harn ▸ hx)

theorem PermissionsByArn.effect {l l' : Roster PermissionRecord.arn} (h : PermissionsByArn l)
    (heffect : PermissionEffect l l') : PermissionsByArn l' := by
  cases heffect with
  | none => exact h
  | erased gone =>
    intro arn p hp
    rw [Roster.find?_erase] at hp
    split at hp
    · cases hp
    · exact h arn p hp
  | created i =>
    refine Roster.forall_insert h fun x hx => ?_
    cases hx
    rfl
  | changed hold harn => exact Roster.forall_insert h fun x hx => h _ _ hold x (harn ▸ hx)

/-- **Every request keeps the entities under the ARNs that they report.** -/
theorem byArn_serve (r : Request) (h : a.ByArn) : (serve r a).2.ByArn :=
  ⟨h.permissions.effect (serve_permissions r a), h.shares.effect (serve_shares r a)⟩

end Effects

end Account

end ShareKeeper
