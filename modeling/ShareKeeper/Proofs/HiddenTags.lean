import ShareKeeper.Proofs.Commutation
import ShareKeeper.Proofs.Lockstep
import ShareKeeper.Proofs.Share.Requests
import ShareKeeper.Proofs.Tag

/-!
# Tags under system keys are hidden

Everything that a pass is told comes with the tags of an entity, those under system keys among them. A
pass makes nothing of these. Take two accounts that are the same for the user (`Stage.SameForUser`): the
entities have the same tags of the user in the same order, and among them whatever there may be under
system keys. Every request keeps the accounts the same for the user and is answered alike, and a pass
goes on alike after answers that are alike. So it asks both for the same and comes to the same end
(`sameForUser_reconcile`).
-/

namespace ShareKeeper

open Pass

/-! ## Lists of tags -/

namespace Tags

/-- The tags of a list that are the user's, as they stand. -/
def ofUser (l : List Tag) : List Tag := l.filter fun t => !Tag.isSystem t.key

variable {l m : List Tag}

theorem ofUser_dropTags (l : List Tag) (keys : List String) :
    ofUser (Account.dropTags l keys) = Account.dropTags (ofUser l) keys := by
  simp only [ofUser, Account.dropTags, List.filter_filter, Bool.and_comm]

theorem ofUser_putTag_congr (h : ofUser l = ofUser m) (t : Tag) :
    ofUser (Account.putTag l t) = ofUser (Account.putTag m t) := by
  have hput : ∀ n : List Tag, ofUser (Account.putTag n t)
      = (ofUser n).filter (fun u => u.key ≠ t.key) ++ ofUser [t] := by
    intro n
    simp only [Account.putTag, ofUser, List.filter_append, List.filter_filter, Bool.and_comm]
  rw [hput, hput, h]

theorem ofUser_putTags_congr (h : ofUser l = ofUser m) (new : List Tag) :
    ofUser (Account.putTags l new) = ofUser (Account.putTags m new) := by
  induction new generalizing l m with
  | nil => exact h
  | cons t new ih => exact ih (ofUser_putTag_congr h t)

/-- What is compared with the specification are the tags of the user. -/
theorem visible_eq (l : List Tag) : visible l = (ofTags (ofUser l)).toList := by
  rw [ofUser, ofTags_filter l fun k => !Tag.isSystem k]
  rfl

theorem visible_congr (h : ofUser l = ofUser m) : visible l = visible m := by
  rw [visible_eq, visible_eq, h]

end Tags

/-! ## What there is for the user -/

def PermissionDetail.forUser (d : PermissionDetail) : PermissionDetail :=
  { d with tags := Tags.ofUser d.tags }

def ShareDetail.forUser (d : ShareDetail) : ShareDetail := { d with tags := Tags.ofUser d.tags }

def PermissionRecord.forUser (p : PermissionRecord) : PermissionRecord :=
  { p with detail := p.detail.forUser }

def ShareRecord.forUser (s : ShareRecord) : ShareRecord := { s with detail := s.detail.forUser }

/-- A reply without the tags under system keys. -/
def ReplyKind.forUser : (k : ReplyKind) → k.Value → k.Value
  | .permission, d => d.forUser
  | .share, d => d.forUser
  | .names, l => l
  | .nothing, u => u

/-- Two replies that differ at most in tags under system keys. -/
def Request.SameForUser (r : Request) (v w : r.Reply) : Prop :=
  r.operation.replyKind.forUser v = r.operation.replyKind.forUser w

/-- Two accounts that differ at most in tags under system keys. -/
structure Account.SameForUser (a b : Account) : Prop where
  permissions : ∀ arn, (a.permissions.find? arn).map PermissionRecord.forUser
    = (b.permissions.find? arn).map PermissionRecord.forUser
  shares : ∀ arn, (a.shares.find? arn).map ShareRecord.forUser
    = (b.shares.find? arn).map ShareRecord.forUser

/-- Two stages that differ at most in tags under system keys. -/
structure Stage.SameForUser (s t : Stage) : Prop where
  account : s.account.SameForUser t.account
  script : t.script = s.script

/-! ## What the account answers -/

/-- Where two things look the same, neither is there or both are. -/
theorem cases_of_map_eq {α β : Type} {f : α → β} {x y : Option α} (h : x.map f = y.map f) :
    x = none ∧ y = none ∨ ∃ a b, x = some a ∧ y = some b ∧ f a = f b := by
  cases x with
  | none => exact .inl ⟨rfl, Option.map_eq_none_iff.1 h.symm⟩
  | some a =>
    obtain ⟨b, hb, hab⟩ := Option.map_eq_some_iff.1 h.symm
    exact .inr ⟨a, b, rfl, hb, hab.symm⟩

namespace Account

variable {a b : Account}

/-- Two answers with the accounts after them are the same for the user. -/
structure SameStep (r : Request) (x y : Answer r × Account) : Prop where
  answer : SameAnswer Request.SameForUser x.1 y.1
  account : x.2.SameForUser y.2

theorem SameForUser.putPermission (h : a.SameForUser b) {p q : PermissionRecord}
    (hpq : p.forUser = q.forUser) : (a.putPermission p).SameForUser (b.putPermission q) where
  permissions arn := by
    have harn : p.arn = q.arn := (congrArg PermissionRecord.arn hpq :)
    rw [Account.putPermission, Account.putPermission, Roster.find?_insert, Roster.find?_insert, harn]
    split
    · exact congrArg some hpq
    · exact h.permissions arn
  shares := h.shares

theorem SameForUser.putShare (h : a.SameForUser b) {s t : ShareRecord}
    (hst : s.forUser = t.forUser) : (a.putShare s).SameForUser (b.putShare t) where
  permissions := h.permissions
  shares arn := by
    have harn : s.arn = t.arn := (congrArg ShareRecord.arn hst :)
    rw [Account.putShare, Account.putShare, Roster.find?_insert, Roster.find?_insert, harn]
    split
    · exact congrArg some hst
    · exact h.shares arn

/-- A request to one permission that does with the user's part what it does with the whole. -/
theorem SameForUser.withPermission (h : a.SameForUser b) {r : Request} (o : Operation) (arn : String)
    {f : PermissionRecord → r.Reply × PermissionRecord}
    (hreply : ∀ p, r.operation.replyKind.forUser (f p).1 = (f p.forUser).1)
    (hrecord : ∀ p, (f p).2.forUser = (f p.forUser).2) :
    SameStep r (a.withPermission o arn f) (b.withPermission o arn f) := by
  unfold Account.withPermission
  rcases cases_of_map_eq (h.permissions arn) with ⟨ha, hb⟩ | ⟨p, q, ha, hb, hpq⟩
  · rw [ha, hb]
    exact ⟨.error _, h⟩
  · rw [ha, hb]
    refine ⟨.ok ?_, h.putPermission ?_⟩
    · rw [Request.SameForUser, hreply, hreply, hpq]
    · rw [hrecord, hrecord, hpq]

theorem SameForUser.withShare (h : a.SameForUser b) {r : Request} (o : Operation) (arn : String)
    {f : ShareRecord → r.Reply × ShareRecord}
    (hreply : ∀ s, r.operation.replyKind.forUser (f s).1 = (f s.forUser).1)
    (hrecord : ∀ s, (f s).2.forUser = (f s.forUser).2) :
    SameStep r (a.withShare o arn f) (b.withShare o arn f) := by
  unfold Account.withShare
  rcases cases_of_map_eq (h.shares arn) with ⟨ha, hb⟩ | ⟨s, t, ha, hb, hst⟩
  · rw [ha, hb]
    exact ⟨.error _, h⟩
  · rw [ha, hb]
    refine ⟨.ok ?_, h.putShare ?_⟩
    · rw [Request.SameForUser, hreply, hreply, hst]
    · rw [hrecord, hrecord, hst]

/-- Tags are changed alike for the user where this is so of lists of tags. -/
theorem SameForUser.changeTags (h : a.SameForUser b) (arn : String) {f : List Tag → List Tag}
    (hf : ∀ l m, Tags.ofUser l = Tags.ofUser m → Tags.ofUser (f l) = Tags.ofUser (f m)) :
    (a.changeTags arn f).SameForUser (b.changeTags arn f) := by
  unfold Account.changeTags
  rcases cases_of_map_eq (h.shares arn) with ⟨ha, hb⟩ | ⟨s, t, ha, hb, hst⟩
  · rw [ha, hb]
    rcases cases_of_map_eq (h.permissions arn) with ⟨ha, hb⟩ | ⟨p, q, ha, hb, hpq⟩
    · rw [ha, hb]
      exact h
    · rw [ha, hb]
      have htags := hf _ _ (congrArg (fun p => p.detail.tags) hpq)
      refine h.putPermission ?_
      calc _ = { p.forUser with detail := { p.forUser.detail with
                  tags := Tags.ofUser (f p.detail.tags) } } := rfl
        _ = _ := by rw [htags, hpq]; rfl
  · rw [ha, hb]
    have htags := hf _ _ (congrArg (fun s => s.detail.tags) hst)
    refine h.putShare ?_
    calc _ = { s.forUser with detail := { s.forUser.detail with
                tags := Tags.ofUser (f s.detail.tags) } } := rfl
      _ = _ := by rw [htags, hst]; rfl

theorem SameForUser.erase (h : a.SameForUser b) (arn : String) :
    ({ a with permissions := a.permissions.erase arn } : Account).SameForUser
      { b with permissions := b.permissions.erase arn } where
  permissions x := by
    rw [Roster.find?_erase, Roster.find?_erase]
    split
    · rfl
    · exact h.permissions x
  shares := h.shares

/-- **Accounts that are the same for the user answer alike, and stay so.** -/
theorem SameForUser.serve (h : a.SameForUser b) (r : Request) :
    SameStep r (serve r a) (serve r b) := by
  cases r with
  | getPermission arn version => exact h.withPermission _ arn (fun _ => rfl) fun _ => rfl
  | createPermission i => exact ⟨.ok rfl, h.putPermission rfl⟩
  | deletePermission arn =>
    have hcontains : a.permissions.contains arn = b.permissions.contains arn := by
      simpa [Roster.contains] using congrArg Option.isSome (h.permissions arn)
    have hserve : ∀ c : Account, Account.serve (.deletePermission arn) c
        = if c.permissions.contains arn then (.ok (), { c with permissions := c.permissions.erase arn })
          else (.error (Operation.deletePermission.missing arn), c) := fun _ => rfl
    rw [hserve, hserve, hcontains]
    split
    · exact ⟨.ok rfl, h.erase arn⟩
    · exact ⟨.error _, h⟩
  | createPermissionVersion arn policyTemplate =>
    exact h.withPermission _ arn (fun _ => rfl) fun _ => rfl
  | deletePermissionVersion arn version => exact ⟨.ok rfl, h⟩
  | setDefaultPermissionVersion arn version =>
    exact h.withPermission _ arn (fun _ => rfl) fun _ => rfl
  | getShare arn => exact h.withShare _ arn (fun _ => rfl) fun _ => rfl
  | createShare i => exact ⟨.ok rfl, h.putShare rfl⟩
  | updateShare arn name allow => exact h.withShare _ arn (fun _ => rfl) fun _ => rfl
  | deleteShare arn => exact h.withShare _ arn (fun _ => rfl) fun _ => rfl
  | tag target tags =>
    exact ⟨.ok rfl, h.changeTags target.arn fun _ _ hlm => Tags.ofUser_putTags_congr hlm tags⟩
  | untag target keys =>
    have hdrop : ∀ l m, Tags.ofUser l = Tags.ofUser m →
        Tags.ofUser (dropTags l keys) = Tags.ofUser (dropTags m keys) := fun l m hlm => by
      rw [Tags.ofUser_dropTags, Tags.ofUser_dropTags, hlm]
    exact ⟨.ok rfl, h.changeTags target.arn hdrop⟩
  | associate arn batch => exact h.withShare _ arn (fun _ => rfl) fun _ => rfl
  | disassociate arn batch => exact h.withShare _ arn (fun _ => rfl) fun _ => rfl
  | attachPermission arn permission => exact h.withShare _ arn (fun _ => rfl) fun _ => rfl
  | detachPermission arn permission => exact h.withShare _ arn (fun _ => rfl) fun _ => rfl
  | listPermissions arn => exact h.withShare _ arn (fun _ => rfl) fun _ => rfl
  | listAssociations arn type =>
    refine h.withShare _ arn (fun _ => ?_) fun _ => rfl
    cases type <;> rfl

end Account

namespace Stage

variable {s t : Stage}

theorem SameForUser.serveGenuine (h : s.SameForUser t) (r : Request) :
    SameAnswer Request.SameForUser (serveGenuine r s).1 (serveGenuine r t).1 ∧
      (serveGenuine r s).2.SameForUser (serveGenuine r t).2 :=
  have hstep := h.account.serve r
  ⟨hstep.answer, hstep.account, h.script⟩

/-- The same cue makes the same of stages that are the same for the user. -/
theorem SameForUser.serve (h : s.SameForUser t) (r : Request) :
    SameAnswer Request.SameForUser (serve r s).1 (serve r t).1 ∧
      (serve r s).2.SameForUser (serve r t).2 := by
  unfold Stage.serve
  rw [h.script]
  cases s.script r.operation with
  | nil => exact h.serveGenuine r
  | cons cue rest =>
    have hrest : SameForUser { s with script := s.script.set r.operation rest }
        { t with script := s.script.set r.operation rest } := ⟨h.account, rfl⟩
    cases cue with
    | genuine => exact hrest.serveGenuine r
    | refuse e => exact ⟨.error e, hrest⟩
    | reply v => exact ⟨.ok rfl, hrest⟩

end Stage

/-! ## What a pass makes of the answers -/

/-- A plan is carried out alike. -/
theorem SyncPlan.lockstep_perform (p : SyncPlan) :
    Lockstep Request.SameForUser Eq p.perform p.perform :=
  (lockstep_askAll _).bind fun _ _ _ => lockstep_askAll _

namespace Permission

theorem observe_congr (r : Permission) {d d' : PermissionDetail} (h : d.forUser = d'.forUser) :
    observe r d = observe r d' := by
  have hobserve : ∀ e : PermissionDetail, observe r e = observe r e.forUser := fun _ => rfl
  rw [hobserve, hobserve d', h]

theorem lockstep_readOne (r : Permission) :
    Lockstep Request.SameForUser Eq (readOne r) (readOne r) := by
  refine (lockstep_lift _).bind_same fun arn => (lockstep_recorded (.getPermission arn none)).bind ?_
  intro d d' h
  have htags : Tags.visible d.tags = Tags.visible d'.tags :=
    Tags.visible_congr (congrArg PermissionDetail.tags h)
  rw [observe_congr r h, htags]
  exact .done rfl

theorem lockstep_create (r : Permission) :
    Lockstep Request.SameForUser Eq (create r) (create r) := by
  refine (lockstep_recorded (.createPermission r.input)).bind fun d d' h => ?_
  rw [observe_congr r h]
  exact .done rfl

/-- What comes of two rotations is the same for the user. -/
structure SameRotation (x y : Rotation) : Prop where
  state : x.state = y.state
  result : SameEnd (fun d d' : PermissionDetail => d.forUser = d'.forUser) x.result y.result

theorem lockstep_promote (arn version : String) {d d' : PermissionDetail}
    (h : d.forUser = d'.forUser) : Lockstep Request.SameForUser SameRotation
      (Rotation.promote arn version d) (Rotation.promote arn version d') := by
  unfold Rotation.promote
  cases Rotation.parseVersion version with
  | error e => exact .done ⟨rfl, .error e⟩
  | ok n =>
    refine (lockstep_recorded _).attempt.bind fun x y hxy => ?_
    cases hxy with
    | error e => exact .done ⟨rfl, .error e⟩
    | ok _ =>
      refine .done ⟨rfl, .ok ?_⟩
      exact congrArg (fun e : PermissionDetail => { e with defaultVersion := some true }) h

theorem lockstep_rotation (arn : String) (previous : Option String) (policy : String) :
    Lockstep Request.SameForUser SameRotation (Rotation.run arn previous policy)
      (Rotation.run arn previous policy) := by
  unfold Rotation.run
  cases previous with
  | none => exact .done ⟨rfl, .error _⟩
  | some version =>
    cases hparse : Rotation.parseVersion version with
    | error e => simp only [hparse]; exact .done ⟨rfl, .error e⟩
    | ok previous =>
      simp only [hparse]
      refine (lockstep_recorded _).attempt.bind fun x y hxy => ?_
      cases hxy with
      | error e => exact .done ⟨rfl, .error e⟩
      | @ok d d' h =>
        have hversion : d.version = d'.version := (congrArg PermissionDetail.version h :)
        simp only [hversion]
        refine (lockstep_recorded _).attempt.bind fun x y hxy => ?_
        cases hxy with
        | error e => exact .done ⟨rfl, .error e⟩
        | ok _ => exact lockstep_promote arn _ h

theorem lockstep_update (r latest : Permission) (d : Delta) :
    Lockstep Request.SameForUser Eq (update r latest d) (update r latest d) := by
  refine (lockstep_lift _).bind_same fun _ => (lockstep_lift _).bind_same fun arn => ?_
  refine Lockstep.bind_same ?_ fun _ => ?_
  · unfold syncTags
    split
    · exact SyncPlan.lockstep_perform _
    · exact .done rfl
  · unfold rotatePolicy
    split
    · refine (lockstep_rotation arn _ _).bind fun x y hxy => hxy.result.lockstep_lift.bind ?_
      intro d d' h
      exact .done (observe_congr _ h)
    · exact .done rfl

end Permission

namespace Share

theorem observe_congr (r : Share) {d d' : ShareDetail} (h : d.forUser = d'.forUser) :
    observe r d = observe r d' := by
  have hobserve : ∀ e : ShareDetail, observe r e = observe r e.forUser := fun _ => rfl
  rw [hobserve, hobserve d', h]

theorem lockstep_readLists (r : Share) (arn : String) {d d' : ShareDetail}
    (h : d.forUser = d'.forUser) :
    Lockstep Request.SameForUser Eq (readLists r arn d) (readLists r arn d') := by
  have htags : Tags.visible d.tags = Tags.visible d'.tags :=
    Tags.visible_congr (congrArg ShareDetail.tags h)
  unfold readLists
  rw [observe_congr r h, htags]
  refine Lockstep.bind_same (lockstep_recorded (.listAssociations arn .principal)) fun _ => ?_
  refine Lockstep.bind_same (lockstep_recorded (.listAssociations arn .resource)) fun _ => ?_
  refine Lockstep.bind_same ?_ fun _ => .done rfl
  unfold readPermissions
  split
  · exact .done rfl
  · exact lockstep_recorded (.listPermissions arn)

theorem lockstep_readOne (r : Share) :
    Lockstep Request.SameForUser Eq (readOne r) (readOne r) := by
  rw [readOne_eq]
  refine (lockstep_lift _).bind_same fun arn => (lockstep_recorded (.getShare arn)).bind ?_
  intro d d' h
  have hstatus : d.status = d'.status := (congrArg ShareDetail.status h :)
  rw [hstatus]
  split
  · exact .fail _
  · exact lockstep_readLists r arn h

theorem lockstep_create (r : Share) :
    Lockstep Request.SameForUser Eq (create r) (create r) := by
  refine (lockstep_recorded (.createShare r.input)).bind fun d d' h => ?_
  rw [observe_congr r h]
  exact .done rfl

theorem lockstep_update (r latest : Share) (d : Delta) :
    Lockstep Request.SameForUser Eq (update r latest d) (update r latest d) := by
  refine (lockstep_lift _).bind_same fun arn => ?_
  refine Lockstep.bind_same ?_ fun updated => Lockstep.bind_same ?_ fun _ => ?_
  · unfold updateSettings
    split
    · refine (lockstep_recorded (.updateShare arn _ _)).bind fun e e' h => ?_
      exact .done (observe_congr _ h)
    · exact .done rfl
  · unfold syncTags
    split
    · exact SyncPlan.lockstep_perform _
    · exact .done rfl
  · refine Lockstep.bind_same ?_ fun _ => Lockstep.bind_same ?_ fun _ => .done rfl
    · unfold syncAssociations
      split
      · exact Lockstep.bind_same (SyncPlan.lockstep_perform _) fun _ => .done rfl
      · exact .done rfl
    · unfold syncPermissions
      split
      · exact SyncPlan.lockstep_perform _
      · exact .done rfl

end Share

section Passes

variable {k : Kind}

/-- Brought in line by the same requests. -/
theorem lockstep_bringInLine (r latest : Resource k) :
    Lockstep Request.SameForUser Eq (bringInLine k.manager r latest)
      (bringInLine k.manager r latest) := by
  unfold bringInLine
  dsimp only
  split
  · exact .done rfl
  · refine Lockstep.bind_same ?_ fun _ => .done rfl
    cases k with
    | permission => exact Permission.lockstep_update r latest _
    | share => exact Share.lockstep_update r latest _

theorem lockstep_applyDesired (r : Resource k) :
    Lockstep Request.SameForUser Eq (applyDesired k.manager r) (applyDesired k.manager r) := by
  have hlook : Lockstep Request.SameForUser Eq (k.manager.readOne r) (k.manager.readOne r) := by
    cases k with
    | permission => exact Permission.lockstep_readOne r
    | share => exact Share.lockstep_readOne r
  have hcreate : Lockstep Request.SameForUser Eq (k.manager.create r) (k.manager.create r) := by
    cases k with
    | permission => exact Permission.lockstep_create r
    | share => exact Share.lockstep_create r
  refine hlook.attempt.bind fun x y hxy => ?_
  cases hxy with
  | @ok latest _ h =>
    cases h
    exact lockstep_bringInLine r latest
  | error e =>
    dsimp only
    split
    · exact hcreate.bind_same fun _ => .done rfl
    · exact .fail e

/-- A pass goes on alike after answers that are the same for the user, whatever the time is. -/
theorem lockstep_reconcile (r : Resource k) (region : Option String) (now now' : Instant) :
    Lockstep Request.SameForUser (Reconciled.SameButClock now now')
      (reconcile k.manager region now r) (reconcile k.manager region now' r) := by
  refine (lockstep_lift _).bind_same fun _ => (lockstep_applyDesired r).bind_same fun x => .done ?_
  exact sameButClock_conclude region now now' x.1 x.2

/-- **Tags under system keys are hidden from a pass.** Where the entities of two stages have the same
tags of the user in the same order, and whatever there may be under system keys among them, a pass over
any object asks for the same, comes to the same end up to the times that it records, and leaves stages
that differ again at most in tags under system keys. -/
theorem sameForUser_reconcile (r : Resource k) (region : Option String) (now now' : Instant)
    {s t : Stage} (h : s.SameForUser t) :
    requests Stage.serve (reconcile k.manager region now' r) t
        = requests Stage.serve (reconcile k.manager region now r) s ∧
      SameEnd (Reconciled.SameButClock now now')
        (run Stage.serve (reconcile k.manager region now r) s).1
        (run Stage.serve (reconcile k.manager region now' r) t).1 ∧
      (run Stage.serve (reconcile k.manager region now r) s).2.SameForUser
        (run Stage.serve (reconcile k.manager region now' r) t).2 :=
  (lockstep_reconcile r region now now').run (fun q _ _ hst => hst.serve q) h

end Passes

/-- A stage with a permission that has some tags. -/
def taggedStage (tags : List Tag) : Stage :=
  .genuine (Account.serve (.createPermission ⟨"reader", "ec2:Subnet", "\x7b\x7d", tags⟩) .empty).2

/-- Two tags of the user. -/
def plainTags : List Tag := [⟨"stage", "old"⟩, ⟨"owner", "me"⟩]

/-- The same two among others, some of which are repeated. -/
def crowdedTags : List Tag :=
  [⟨"aws:origin", "a"⟩, ⟨"stage", "old"⟩, ⟨Tag.namespaceKey, "other"⟩, ⟨"aws:origin", "b"⟩,
    ⟨"owner", "me"⟩, ⟨"aws:origin", "a"⟩]

/-- A pass that changes tags and policy does so beside the other tags as it does without them. -/
theorem sameForUser_crowded :
    let pass := reconcile (Kind.manager .permission) none .epoch Permission.reader
    (taggedStage plainTags).SameForUser (taggedStage crowdedTags) ∧
      (requests Stage.serve pass (taggedStage plainTags)).map Request.operation
        = [.getPermission, .untagResource, .tagResource, .createPermissionVersion,
          .deletePermissionVersion, .setDefaultPermissionVersion] ∧
      requests Stage.serve pass (taggedStage crowdedTags)
        = requests Stage.serve pass (taggedStage plainTags) ∧
      SameEnd (Reconciled.SameButClock .epoch .epoch)
        (run Stage.serve pass (taggedStage plainTags)).1
        (run Stage.serve pass (taggedStage crowdedTags)).1 ∧
      (run Stage.serve pass (taggedStage plainTags)).2.SameForUser
        (run Stage.serve pass (taggedStage crowdedTags)).2 := by
  have hempty : Account.empty.SameForUser .empty := ⟨fun _ => rfl, fun _ => rfl⟩
  have hsame : (taggedStage plainTags).SameForUser (taggedStage crowdedTags) :=
    ⟨hempty.putPermission (by decide +kernel), rfl⟩
  exact ⟨hsame, by decide +kernel,
    sameForUser_reconcile Permission.reader none .epoch .epoch hsame⟩

end ShareKeeper
