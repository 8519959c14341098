import ShareKeeper.Proofs.Ledger

/-!
# What a pass touches

Every request is about the entities under one ARN, its address, and about nothing else: it leaves what is
held under other ARNs alone, and neither its answer nor what it does depends on them (`Account.ActsAt`).
So a pass that asks only for addresses of a certain set stays in that set (`Pass.StaysIn`). It leaves what
lies outside as it is, and it goes on in the same way on any account that holds the same inside.

A pass over an object, be it made to reconcile or to delete it, stays with the ARN that is recorded and
the one that the account derives from the name (`Resource.Owns`).
-/

namespace ShareKeeper

open Pass

/-- The ARN of what a request is about. -/
def Request.address : Request → String
  | .createPermission i => Account.permissionArn i.name
  | .createShare i => Account.shareArn i.name
  | .tag target _ | .untag target _ => target.arn
  | .getPermission arn _ | .deletePermission arn | .createPermissionVersion arn _
  | .deletePermissionVersion arn _ | .setDefaultPermissionVersion arn _ | .getShare arn
  | .updateShare arn _ _ | .deleteShare arn | .associate arn _ | .disassociate arn _
  | .attachPermission arn _ | .detachPermission arn _ | .listPermissions arn
  | .listAssociations arn _ => arn

/-! ## One request -/

namespace Account

variable {a b : Account} {arn x : String} {β : Type}

/-- What is held under an ARN. -/
def entries (a : Account) (arn : String) : Option PermissionRecord × Option ShareRecord :=
  (a.permissions.find? arn, a.shares.find? arn)

/-- Accounts that hold the same under all ARNs are the same. -/
theorem ext_entries (h : ∀ x, a.entries x = b.entries x) : a = b := by
  obtain ⟨permissions, shares⟩ := a
  obtain ⟨permissions', shares'⟩ := b
  have hpermissions : permissions = permissions' :=
    Roster.ext_find? fun x => congrArg Prod.fst (h x)
  have hshares : shares = shares' := Roster.ext_find? fun x => congrArg Prod.snd (h x)
  rw [hpermissions, hshares]

theorem permissions_eq_of_entries (h : a.entries x = b.entries x) :
    a.permissions.find? x = b.permissions.find? x := congrArg Prod.fst h

theorem shares_eq_of_entries (h : a.entries x = b.entries x) :
    a.shares.find? x = b.shares.find? x := congrArg Prod.snd h

/-- What is done concerns only what is held under one ARN. -/
structure ActsAt (arn : String) (f : Account → β × Account) : Prop where
  /-- Everything else is left alone. -/
  frame : ∀ a x, x ≠ arn → (f a).2.entries x = a.entries x
  /-- Nothing else makes a difference. -/
  congr : ∀ a b, a.entries arn = b.entries arn →
    (f a).1 = (f b).1 ∧ (f a).2.entries arn = (f b).2.entries arn

theorem actsAt_pure (arn : String) (v : β) : ActsAt arn fun a => (v, a) := by
  constructor
  · intro a x _
    rfl
  · intro a b h
    exact ⟨rfl, h⟩

theorem actsAt_putPermission (v : β) {p : PermissionRecord} (harn : p.arn = arn) :
    ActsAt arn fun a => (v, a.putPermission p) := by
  constructor
  · intro a x hx
    rw [entries, find?_putPermission, harn, if_neg hx]
    rfl
  · intro a b h
    have hshares := shares_eq_of_entries h
    refine ⟨rfl, ?_⟩
    rw [entries, entries, putPermission_find? harn, putPermission_find? harn]
    exact congrArg (Prod.mk (some p)) hshares

theorem actsAt_putShare (v : β) {s : ShareRecord} (harn : s.arn = arn) :
    ActsAt arn fun a => (v, a.putShare s) := by
  constructor
  · intro a x hx
    rw [entries, find?_putShare, harn, if_neg hx]
    rfl
  · intro a b h
    have hpermissions := permissions_eq_of_entries h
    refine ⟨rfl, ?_⟩
    rw [entries, entries, putShare_find? harn, putShare_find? harn]
    exact congrArg (fun held => (held, some s)) hpermissions

theorem actsAt_erasePermission (v : β) (arn : String) :
    ActsAt arn fun a => (v, { a with permissions := a.permissions.erase arn }) := by
  constructor
  · intro a x hx
    rw [entries, Roster.find?_erase, if_neg hx]
    rfl
  · intro a b h
    have hshares := shares_eq_of_entries h
    refine ⟨rfl, ?_⟩
    rw [entries, entries, Roster.find?_erase, Roster.find?_erase, if_pos rfl, if_pos rfl]
    exact congrArg (Prod.mk none) hshares

/-- What is done may depend on what is held under the ARN. -/
theorem ActsAt.of_entries {f : Account → β × Account}
    (h : ∀ a : Account, ∃ g, ActsAt arn g ∧ ∀ b, a.entries arn = b.entries arn → f b = g b) : ActsAt arn f := by
  constructor
  · intro a x hx
    obtain ⟨g, hg, hsame⟩ := h a
    rw [hsame a rfl]
    exact hg.frame a x hx
  · intro a b hab
    obtain ⟨g, hg, hsame⟩ := h a
    rw [hsame a rfl, hsame b hab]
    exact hg.congr a b hab

theorem actsAt_withPermission (o : Operation) (arn : String)
    {f : PermissionRecord → β × PermissionRecord} (harn : ∀ p, (f p).2.arn = p.arn) :
    ActsAt arn fun a => a.withPermission o arn f := by
  refine .of_entries fun a => ?_
  cases hp : a.permissions.find? arn with
  | none =>
    refine ⟨_, actsAt_pure arn (.error (o.missing arn)), fun b hb => ?_⟩
    rw [withPermission, ← permissions_eq_of_entries hb, hp]
  | some p =>
    have hkey : (f p).2.arn = arn := (harn p).trans (Roster.key_of_find? hp)
    refine ⟨_, actsAt_putPermission (.ok (f p).1) hkey, fun b hb => ?_⟩
    rw [withPermission_of_find? ((permissions_eq_of_entries hb).symm.trans hp)]

theorem actsAt_withShare (o : Operation) (arn : String) {f : ShareRecord → β × ShareRecord}
    (harn : ∀ s, (f s).2.arn = s.arn) : ActsAt arn fun a => a.withShare o arn f := by
  refine .of_entries fun a => ?_
  cases hs : a.shares.find? arn with
  | none =>
    refine ⟨_, actsAt_pure arn (.error (o.missing arn)), fun b hb => ?_⟩
    rw [withShare, ← shares_eq_of_entries hb, hs]
  | some s =>
    have hkey : (f s).2.arn = arn := (harn s).trans (Roster.key_of_find? hs)
    refine ⟨_, actsAt_putShare (.ok (f s).1) hkey, fun b hb => ?_⟩
    rw [withShare_of_find? ((shares_eq_of_entries hb).symm.trans hs)]

theorem actsAt_changeTags (v : β) (arn : String) (f : List Tag → List Tag) :
    ActsAt arn fun a => (v, a.changeTags arn f) := by
  refine .of_entries fun a => ?_
  cases hs : a.shares.find? arn with
  | some s =>
    have harn : s.arn = arn := Roster.key_of_find? hs
    have hkey : (s.withTags (f s.detail.tags)).arn = arn := harn
    refine ⟨_, actsAt_putShare v hkey, fun b hb => ?_⟩
    rw [changeTags_share ((shares_eq_of_entries hb).symm.trans hs)]
  | none =>
    cases hp : a.permissions.find? arn with
    | some p =>
      have harn : p.arn = arn := Roster.key_of_find? hp
      have hkey : (p.withTags (f p.detail.tags)).arn = arn := harn
      refine ⟨_, actsAt_putPermission v hkey, fun b hb => ?_⟩
      rw [changeTags_permission ((shares_eq_of_entries hb).symm.trans hs)
        ((permissions_eq_of_entries hb).symm.trans hp)]
    | none =>
      refine ⟨_, actsAt_pure arn v, fun b hb => ?_⟩
      rw [changeTags, ← shares_eq_of_entries hb, hs]
      dsimp only
      rw [← permissions_eq_of_entries hb, hp]

theorem actsAt_deletePermission (arn : String) : ActsAt arn (serve (.deletePermission arn)) := by
  refine .of_entries fun a => ?_
  cases hp : a.permissions.find? arn with
  | none =>
    refine ⟨_, actsAt_pure arn (.error (Operation.deletePermission.missing arn)), fun b hb => ?_⟩
    exact serve_deletePermission_absent ((permissions_eq_of_entries hb).symm.trans hp)
  | some p =>
    refine ⟨_, actsAt_erasePermission (.ok ()) arn, fun b hb => ?_⟩
    exact serve_deletePermission ((permissions_eq_of_entries hb).symm.trans hp)

/-- **A request concerns only what is held under its address.** -/
theorem actsAt_serve (q : Request) : ActsAt q.address (serve q) := by
  cases q with
  | createPermission i => exact actsAt_putPermission _ rfl
  | createShare i => exact actsAt_putShare _ rfl
  | deletePermission arn => exact actsAt_deletePermission arn
  | deletePermissionVersion arn n => exact actsAt_pure arn _
  | tag target tags => exact actsAt_changeTags _ target.arn _
  | untag target keys => exact actsAt_changeTags _ target.arn _
  | getPermission arn | createPermissionVersion arn | setDefaultPermissionVersion arn =>
    exact actsAt_withPermission _ arn fun _ => rfl
  | getShare arn | updateShare arn | deleteShare arn | associate arn | disassociate arn
  | attachPermission arn | detachPermission arn | listPermissions arn | listAssociations arn =>
    exact actsAt_withShare _ arn fun _ => rfl

/-- Accounts that hold the same under the ARNs of a set. -/
def AgreeOn (F : String → Prop) (a b : Account) : Prop := ∀ x, F x → a.entries x = b.entries x

/-- A request about an ARN of the set. -/
theorem AgreeOn.serve {F : String → Prop} (h : AgreeOn F a b) {q : Request} (hq : F q.address) :
    (Account.serve q a).1 = (Account.serve q b).1 ∧
      AgreeOn F (Account.serve q a).2 (Account.serve q b).2 := by
  obtain ⟨hanswer, hentries⟩ := (actsAt_serve q).congr a b (h q.address hq)
  refine ⟨hanswer, ?_⟩
  intro x hx
  by_cases haddress : x = q.address
  · rw [haddress]
    exact hentries
  · rw [(actsAt_serve q).frame a x haddress, (actsAt_serve q).frame b x haddress]
    exact h x hx

end Account

/-! ## Passes -/

namespace Pass

variable {α σ : Type} {F : String → Prop} {p : Pass α} {a b : Account}

/-- All that a pass asks for on an account has its address in a set. -/
def StaysIn (F : String → Prop) (p : Pass α) (a : Account) : Prop :=
  ∀ x ∈ transcript Account.serve p a, F x.1.address

theorem staysIn_call {q : Request} {next : Answer q → Pass α} :
    StaysIn F (.call q next) a ↔ F q.address ∧
      StaysIn F (next (Account.serve q a).1) (Account.serve q a).2 := List.forall_mem_cons

theorem StaysIn.mono {G : String → Prop} (h : p.StaysIn F a) (hFG : ∀ x, F x → G x) :
    p.StaysIn G a := fun x hx => hFG _ (h x hx)

/-- To make something of the result asks for nothing. -/
theorem StaysIn.map {β : Type} (h : p.StaysIn F a) (f : α → β) :
    (p >>= fun v => pure (f v)).StaysIn F a := by
  intro x hx
  rw [bind_eq, transcript_bind] at hx
  rcases List.mem_append.1 hx with hx | hx
  · exact h x hx
  · split at hx <;> cases hx

/-- **What a pass does not ask for it leaves alone.** -/
theorem StaysIn.entries_run (h : p.StaysIn F a) {x : String} (hx : ¬ F x) :
    (run Account.serve p a).2.entries x = a.entries x := by
  induction p generalizing a with
  | done v => rfl
  | fail e => rfl
  | call q next ih =>
    obtain ⟨haddress, hrest⟩ := staysIn_call.1 h
    have hne : x ≠ q.address := by
      rintro rfl
      exact hx haddress
    rw [run_call, ih _ hrest, (Account.actsAt_serve q).frame a x hne]
  | note c next ih => exact ih h

/-- **What a pass does not ask for makes no difference to it.** -/
theorem StaysIn.congr (h : p.StaysIn F a) (hagree : Account.AgreeOn F a b) :
    transcript Account.serve p b = transcript Account.serve p a ∧
      (run Account.serve p b).1 = (run Account.serve p a).1 ∧
      Account.AgreeOn F (run Account.serve p a).2 (run Account.serve p b).2 := by
  induction p generalizing a b with
  | done v => exact ⟨rfl, rfl, hagree⟩
  | fail e => exact ⟨rfl, rfl, hagree⟩
  | call q next ih =>
    obtain ⟨haddress, hrest⟩ := staysIn_call.1 h
    obtain ⟨hanswer, hnext⟩ := hagree.serve haddress
    obtain ⟨htranscript, hout, hstate⟩ := ih _ hrest hnext
    rw [hanswer] at htranscript hout hstate
    simp only [transcript, run_call, hanswer]
    exact ⟨congrArg _ htranscript, hout, hstate⟩
  | note c next ih => exact ih h hagree

/-- The same of the set in which the pass stays. -/
theorem StaysIn.transfer (h : p.StaysIn F a) (hagree : Account.AgreeOn F a b) : p.StaysIn F b := by
  intro x hx
  rw [(h.congr hagree).1] at hx
  exact h x hx

/-- What every exchange has, if each request keeps an invariant that grants it. -/
theorem transcript_invariant {service : Service σ} {inv : σ → Prop} {fair : Exchange → Prop}
    (hstep : ∀ q s, inv s → inv (service q s).2 ∧ fair ⟨q, (service q s).1⟩) {s : σ} (hs : inv s) :
    ∀ x ∈ transcript service p s, fair x := by
  induction p generalizing s with
  | done v => exact fun x hx => absurd hx List.not_mem_nil
  | fail e => exact fun x hx => absurd hx List.not_mem_nil
  | call q next ih =>
    obtain ⟨hnext, hfair⟩ := hstep q s hs
    intro x hx
    rcases List.mem_cons.1 hx with rfl | hx
    · exact hfair
    · exact ih _ hnext x hx
  | note c next ih => exact ih hs

end Pass

/-- An account that holds its entities under the ARNs that they report answers honestly throughout. -/
theorem Account.honest_transcript {α : Type} {a : Account} (p : Pass α) (h : a.ByArn) :
    ∀ x ∈ transcript Account.serve p a, x.Honest :=
  transcript_invariant (fun q _ h => ⟨Account.byArn_serve q h, Account.honest_serve h q⟩) h

theorem Stage.honest_transcript {α : Type} {s : Stage} (p : Pass α) (hscript : s.script.Harmless)
    (harns : s.account.ByArn) : ∀ x ∈ transcript Stage.serve p s, x.Honest := by
  have hstep : ∀ q (t : Stage), t.script.Harmless ∧ t.account.ByArn →
      ((Stage.serve q t).2.script.Harmless ∧ (Stage.serve q t).2.account.ByArn) ∧
        Exchange.Honest ⟨q, (Stage.serve q t).1⟩ := by
    rintro q t ⟨ht, ht'⟩
    obtain ⟨hharmless, hbyArn, hhonest⟩ := Stage.honest_serve ht ht' q
    exact ⟨⟨hharmless, hbyArn⟩, hhonest⟩
  exact transcript_invariant hstep ⟨hscript, harns⟩

/-! ## Passes over an object -/

namespace Resource

variable {k : Kind}

/-- The ARN that the account derives from the name. -/
def derivedArn : {k : Kind} → Resource k → String
  | .permission, r => Account.permissionArn r.spec.name
  | .share, r => Account.shareArn r.spec.name

/-- The ARNs that belong to an object: the recorded one, and the one that the account derives from the
name. -/
def Owns (r : Resource k) (arn : String) : Prop := r.arn = some arn ∨ arn = r.derivedArn

end Resource

namespace SyncPlan

variable {q : Request}

theorem address_of_mem_tags {target : TagTarget} {desired observed : List Tag}
    (h : q ∈ (SyncPlan.tags target desired observed).requests) : q.address = target.arn := by
  rcases List.mem_append.1 h with h | h <;> exact mem_when h ▸ rfl

theorem address_of_mem_associations {arn : String} {desired observed : ShareSpec}
    (h : q ∈ (SyncPlan.associations arn desired observed).requests) : q.address = arn := by
  rcases List.mem_append.1 h with h | h <;> exact mem_when h ▸ rfl

theorem address_of_mem_permissions {arn : String} {desired observed : List String}
    (h : q ∈ (SyncPlan.permissions arn desired observed).requests) : q.address = arn := by
  rcases List.mem_append.1 h with h | h <;> obtain ⟨name, -, rfl⟩ := List.mem_map.1 h <;> rfl

end SyncPlan

section Managers

variable {k : Kind} (r latest : Resource k) (d : Delta)

theorem address_creation : r.creation.address = r.derivedArn := by
  cases k <;> rfl

theorem address_deletion (k : Kind) (arn : String) : (k.deletion arn).address = arn := by
  cases k <;> rfl

/-- A look is at the recorded entity. -/
theorem addresses_readOne : (k.manager.readOne r).Asks fun q => r.arn = some q.address := by
  cases k with
  | permission => exact Permission.asks_readOne_of r fun arn harn => harn
  | share => exact Share.asks_readOne_of r fun arn harn => ⟨harn, harn, fun _ => harn⟩

/-- An update is about the entity that was looked at. -/
theorem addresses_update : (k.manager.update r latest d).Asks fun q => latest.arn = some q.address := by
  cases k with
  | permission =>
    refine Permission.asks_update_of r latest d ?_ ?_
    · intro arn harn q hq
      rw [SyncPlan.address_of_mem_tags hq]
      exact harn
    · intro arn harn q hq
      cases hq <;> exact harn
  | share =>
    refine Share.asks_update_of r latest d ?_ ?_ ?_ ?_
    · intro arn harn
      exact harn
    · intro arn harn q hq
      rw [SyncPlan.address_of_mem_tags hq]
      exact harn
    · intro arn harn q hq
      rw [SyncPlan.address_of_mem_associations hq]
      exact harn
    · intro arn harn q hq
      rw [SyncPlan.address_of_mem_permissions hq]
      exact harn

theorem addresses_bringInLine :
    (bringInLine k.manager r latest).Asks fun q => latest.arn = some q.address := by
  rw [bringInLine]
  split
  · trivial
  · exact (addresses_update r latest _).bind fun _ => trivial

end Managers

section Object

variable {k : Kind} {σ : Type} {service : Service σ} {s s' : σ} {heard : List Exchange}
  {r : Resource k}

/-- **A pass is about the ARNs that the object owns,** as long as the answers are honest. -/
theorem owns_of_reconcile {region : Option String} {now : Instant}
    {out : Except Failure (Reconciled k)}
    (h : Dialogue service (reconcile k.manager region now r) s heard out s')
    (hhonest : ∀ x ∈ heard, x.Honest) : ∀ x ∈ heard, r.Owns x.1.address := by
  intro x hx
  cases walk_of_dialogue h with
  | rejected => cases hx
  | lost _ hlook => exact .inl (hlook.asked (addresses_readOne r) x hx)
  | created _ hlook _ hcreate =>
    rcases List.mem_append.1 hx with hx | hx
    · exact .inl (hlook.asked (addresses_readOne r) x hx)
    · rw [hcreate.asked (asks_create r) x hx]
      exact .inr (address_creation r)
  | @found looks said latest _ _ _ _ hlook hline =>
    rcases List.mem_append.1 hx with hx | hx
    · exact .inl (hlook.asked (addresses_readOne r) x hx)
    · have hlooks : ∀ y ∈ looks, y.Honest := fun y hy => hhonest y (List.mem_append_left _ hy)
      have hlatest : latest.arn = r.arn := (yields_readOne r).of_dialogue hlook hlooks
      have hsaid := hline.asked (addresses_bringInLine r latest) x hx
      rw [hlatest] at hsaid
      exact .inl hsaid

end Object

end ShareKeeper
