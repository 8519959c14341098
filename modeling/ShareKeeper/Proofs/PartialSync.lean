import ShareKeeper.Proofs.Locality
import ShareKeeper.Proofs.SystemTags
import ShareKeeper.Proofs.Tag.Patch

/-!
# Syncs that stop half-way

A sync moves one relation of one entity from what is observed to what is desired, whatever the relation
really is (`Sync`). Its requests are known beforehand: those that take away, then those that put. It
stops at the first that is refused, and then the relation has gone through what was granted before and
nothing else has changed (`halfWay_sync`).

That is shown in two steps. Each request of a sync does to the account what the sync is said to do by it
(`serve_part`), and what is done by one request and then by others is done by all of them, as nothing is
put before the last thing is taken away (`applied_cons`).
-/

namespace ShareKeeper

open Account Pass

/-! ## Syncs -/

/-- A relation that is to be moved from what is observed to what is desired. -/
inductive Sync where
  | tags (target : TagTarget) (desired observed : List Tag)
  | associations (arn : String) (desired observed : ShareSpec)
  | permissions (arn : String) (desired observed : List String)

namespace Request

/-- Whether a request takes something from a relation. -/
def takes : Request → Bool
  | .untag .. | .disassociate .. | .detachPermission .. => true
  | _ => false

/-- The associations that a request takes from a share. -/
def taken : Request → AssociationBatch
  | .disassociate _ batch => batch
  | _ => ⟨[], [], []⟩

/-- The associations that a request puts on a share. -/
def given : Request → AssociationBatch
  | .associate _ batch => batch
  | _ => ⟨[], [], []⟩

/-- The permissions that a request detaches from a share. -/
def detached : Request → List String
  | .detachPermission _ permission => [permission]
  | _ => []

/-- The permissions that a request attaches to a share. -/
def attached : Request → List String
  | .attachPermission _ permission => [permission]
  | _ => []

end Request

/-- The desired tags that are not observed, ascending. Reserved ones that are observed stay as they
are. -/
def Tags.unobserved (desired observed : List Tag) : List Tag :=
  (Tags.ofTags desired).toList.filter fun t =>
    (Tags.ofTags observed).find? t.key ≠ some t &&
      !(Tag.isReserved t.key && (Tags.ofTags observed).contains t.key)

namespace Sync

open SyncPlan (lacking superfluousKeys)

def plan : Sync → SyncPlan
  | .tags target desired observed => .tags target desired observed
  | .associations arn desired observed => .associations arn desired observed
  | .permissions arn desired observed => .permissions arn desired observed

/-- The ARN of the entity. -/
def arn : Sync → String
  | .tags target _ _ => target.arn
  | .associations arn _ _ => arn
  | .permissions arn _ _ => arn

/-- The requests that take away: one for all, but one for each permission, and none for nothing. -/
def removals : Sync → List Request
  | .tags target desired observed =>
    let keys := superfluousKeys desired observed
    SyncPlan.when (!keys.isEmpty) (.untag target keys)
  | .associations arn desired observed =>
    let batch : AssociationBatch :=
      ⟨lacking observed.principals desired.principals, lacking observed.resourceArns desired.resourceArns,
        lacking observed.sources desired.sources⟩
    SyncPlan.when (!batch.isEmpty) (.disassociate arn batch)
  | .permissions arn desired observed => (lacking observed desired).map (.detachPermission arn)

/-- The requests that put. -/
def additions : Sync → List Request
  | .tags target desired observed =>
    let tags := Tags.unobserved desired observed
    SyncPlan.when (!tags.isEmpty) (.tag target tags)
  | .associations arn desired observed =>
    let batch : AssociationBatch :=
      ⟨lacking desired.principals observed.principals, lacking desired.resourceArns observed.resourceArns,
        lacking desired.sources observed.sources⟩
    SyncPlan.when (!batch.isEmpty) (.associate arn batch)
  | .permissions arn desired observed => (lacking desired observed).map (.attachPermission arn)

/-- What some requests of a sync make of a share. -/
def onShare (y : Sync) (done : List Request) (s : ShareRecord) : ShareRecord :=
  match y with
  | .tags .. =>
    s.withTags (putTags (dropTags s.detail.tags (done.flatMap Request.droppedKeys))
      (done.flatMap Request.sentTags))
  | .associations .. =>
    { s with
      principals := addNames (dropNames s.principals (done.flatMap fun q => q.taken.principals))
        (done.flatMap fun q => q.given.principals)
      resources := addNames (dropNames s.resources (done.flatMap fun q => q.taken.resourceArns))
        (done.flatMap fun q => q.given.resourceArns)
      sources := addNames (dropNames s.sources (done.flatMap fun q => q.taken.sources))
        (done.flatMap fun q => q.given.sources) }
  | .permissions .. =>
    { s with
      permissions := addNames (dropNames s.permissions (done.flatMap Request.detached))
        (done.flatMap Request.attached) }

/-- What some requests of a sync make of a permission. -/
def onPermission (y : Sync) (done : List Request) (p : PermissionRecord) : PermissionRecord :=
  match y with
  | .tags .. =>
    p.withTags (putTags (dropTags p.detail.tags (done.flatMap Request.droppedKeys))
      (done.flatMap Request.sentTags))
  | _ => p

/-- What some requests of a sync make of an account: they change the share with the ARN, or else the
permission with it. -/
def applied (y : Sync) (done : List Request) (a : Account) : Account :=
  match a.shares.find? y.arn with
  | some s => a.putShare (y.onShare done s)
  | none =>
    match a.permissions.find? y.arn with
    | some p => a.putPermission (y.onPermission done p)
    | none => a

end Sync

/-- The requests that were granted. -/
def granted (heard : List Exchange) : List Request :=
  (heard.filter fun x => x.refusal? = none).map Sigma.fst

/-- How far a sync came, from an account to another one, with refusals that were prepared. -/
structure HalfWay (y : Sync) (prepared : Operation → ApiError → Prop) (a : Account)
    (heard : List Exchange) (out : Except Failure Unit) (a' : Account) : Prop where
  /-- The planned requests are made in their order. -/
  asked : heard.map Sigma.fst <+: y.removals ++ y.additions
  /-- Nothing follows a request that is refused. -/
  stops : heard.Pairwise fun x _ => x.refusal? = none
  /-- If none is refused, all are made. -/
  complete : (∀ x ∈ heard, x.refusal? = none) → heard.map Sigma.fst = y.removals ++ y.additions
  succeeds : out = .ok () ↔ ∀ x ∈ heard, x.refusal? = none
  fails : ∀ x ∈ heard, ∀ e, x.refusal? = some e → out = .error (.api e)
  /-- Nothing is put after something could not be taken away. -/
  unadded : ∀ x ∈ heard, x.1 ∈ y.removals → x.refusal? ≠ none → ∀ z ∈ heard, z.1 ∉ y.additions
  /-- A refusal is one of those that were prepared, or there is no share to change. -/
  refused : ∀ x ∈ heard, ∀ e, x.refusal? = some e →
    prepared x.1.operation e ∨ x.1.operation.isTagging = false ∧ a.shares.find? y.arn = none ∧
      e = x.1.operation.missing y.arn
  /-- The relation has gone through what was granted. -/
  moved : a' = y.applied (granted heard) a
  /-- Whatever is under another ARN is as it was. -/
  elsewhere : ∀ arn, arn ≠ y.arn → a'.entries arn = a.entries arn

/-! ## The plan -/

namespace Tags

theorem keys_toRemove (desired observed : List Tag) :
    (change desired observed).toRemove.keys = SyncPlan.superfluousKeys desired observed := by
  have hroster : (change desired observed).toRemove
      = (ofTags observed).withoutSystem.filter fun t => !(ofTags desired).contains t.key := by
    refine Roster.ext_find? fun k => ?_
    rw [find?_removed, Roster.find?_filter, find?_withoutSystem]
    cases ho : (ofTags observed).find? k with
    | none => simp
    | some t =>
      have ht : t.key = k := Roster.key_of_find? ho
      cases hsystem : Tag.isSystem k <;> cases hd : (ofTags desired).contains k <;>
        simp [Option.filter_some, ht, hsystem, hd]
  rw [hroster, SyncPlan.superfluousKeys, Roster.keys, Roster.keys, List.filter_map,
    Roster.toList_filter]
  rfl

theorem toList_toAdd (desired observed : List Tag) :
    (change desired observed).toAdd.toList = unobserved desired observed := by
  have hroster : (change desired observed).toAdd
      = (ofTags desired).filter fun t => (ofTags observed).find? t.key ≠ some t &&
          !(Tag.isReserved t.key && (ofTags observed).contains t.key) := by
    refine Roster.ext_find? fun k => ?_
    rw [find?_added, find?_withReserved, Roster.find?_filter]
    cases hreserved : Tag.isReserved k with
    | true =>
      -- what is observed has the place of what is desired, so nothing is added over it
      cases ho : (ofTags observed).find? k with
      | none =>
        cases hd : (ofTags desired).find? k with
        | none => rfl
        | some t => simp [Option.filter_some, Roster.key_of_find? hd, ho, Roster.contains]
      | some u =>
        cases hd : (ofTags desired).find? k with
        | none => simp
        | some t => simp [Option.filter_some, Roster.key_of_find? hd, hreserved, ho, Roster.contains]
    | false =>
      cases hd : (ofTags desired).find? k with
      | none => rfl
      | some t => simp [Option.filter_some, Roster.key_of_find? hd, hreserved]
  rw [hroster, Roster.toList_filter, unobserved]

end Tags

namespace Sync

variable {y : Sync} {q : Request} {a : Account}

theorem requests_plan (y : Sync) : y.plan.requests = y.removals ++ y.additions := by
  cases y with
  | tags target desired observed =>
    have hkeys := Tags.keys_toRemove desired observed
    have htags := Tags.toList_toAdd desired observed
    rw [removals, additions, ← hkeys, ← htags]
    simp [plan, SyncPlan.requests, SyncPlan.tags, Roster.isEmpty, Roster.keys]
  | associations arn desired observed =>
    simp only [plan, SyncPlan.requests, SyncPlan.associations, SyncPlan.associationsToAdd,
      SyncPlan.associationsToRemove, SyncPlan.toAdd_eq_lacking, SyncPlan.toRemove_eq_lacking]
    rfl
  | permissions arn desired observed =>
    simp only [plan, SyncPlan.requests, SyncPlan.permissions, SyncPlan.toAdd_eq_lacking,
      SyncPlan.toRemove_eq_lacking]
    rfl

/-- The requests of which syncs consist: about the relation that is moved, of the entity with the
ARN. -/
inductive Part : Sync → Request → Prop
  | untag {target : TagTarget} {desired observed : List Tag} (keys : List String) :
      Part (.tags target desired observed) (.untag target keys)
  | tag {target : TagTarget} {desired observed : List Tag} (tags : List Tag) :
      Part (.tags target desired observed) (.tag target tags)
  | disassociate {arn : String} {desired observed : ShareSpec} (batch : AssociationBatch) :
      Part (.associations arn desired observed) (.disassociate arn batch)
  | associate {arn : String} {desired observed : ShareSpec} (batch : AssociationBatch) :
      Part (.associations arn desired observed) (.associate arn batch)
  | detach {arn : String} {desired observed : List String} (permission : String) :
      Part (.permissions arn desired observed) (.detachPermission arn permission)
  | attach {arn : String} {desired observed : List String} (permission : String) :
      Part (.permissions arn desired observed) (.attachPermission arn permission)

theorem part_of_mem_removals (h : q ∈ y.removals) : y.Part q ∧ q.takes = true := by
  cases y with
  | tags => cases SyncPlan.mem_when h; exact ⟨.untag _, rfl⟩
  | associations => cases SyncPlan.mem_when h; exact ⟨.disassociate _, rfl⟩
  | permissions =>
    obtain ⟨permission, -, rfl⟩ := List.mem_map.1 h
    exact ⟨.detach permission, rfl⟩

theorem part_of_mem_additions (h : q ∈ y.additions) : y.Part q ∧ q.takes = false := by
  cases y with
  | tags => cases SyncPlan.mem_when h; exact ⟨.tag _, rfl⟩
  | associations => cases SyncPlan.mem_when h; exact ⟨.associate _, rfl⟩
  | permissions =>
    obtain ⟨permission, -, rfl⟩ := List.mem_map.1 h
    exact ⟨.attach permission, rfl⟩

theorem part_of_mem (h : q ∈ y.removals ++ y.additions) : y.Part q :=
  (List.mem_append.1 h).elim (fun h => (part_of_mem_removals h).1) fun h => (part_of_mem_additions h).1

/-- Nothing is taken away after something was put. -/
theorem pairwise_takes (y : Sync) :
    (y.removals ++ y.additions).Pairwise fun q r => r.takes = true → q.takes = true := by
  refine List.pairwise_append.2 ⟨?_, ?_, ?_⟩
  · exact List.pairwise_of_forall_mem_list fun q hq _ _ _ => (part_of_mem_removals hq).2
  · refine List.pairwise_of_forall_mem_list fun q _ r hr htakes => ?_
    rw [(part_of_mem_additions hr).2] at htakes
    cases htakes
  · exact fun q hq _ _ _ => (part_of_mem_removals hq).2

/-! ## What requests do -/

theorem applied_of_share {s : ShareRecord} (hs : a.shares.find? y.arn = some s)
    (done : List Request) : y.applied done a = a.putShare (y.onShare done s) := by
  rw [applied, hs]

theorem applied_of_permission {p : PermissionRecord} (hs : a.shares.find? y.arn = none)
    (hp : a.permissions.find? y.arn = some p) (done : List Request) :
    y.applied done a = a.putPermission (y.onPermission done p) := by
  simp only [applied, hs, hp]

theorem applied_of_absent (hs : a.shares.find? y.arn = none) (hp : a.permissions.find? y.arn = none)
    (done : List Request) : y.applied done a = a := by
  simp only [applied, hs, hp]

/-- A share that is not there is not changed. -/
theorem changeShare_of_absent {arn : String} (hs : a.shares.find? arn = none) (o : Operation)
    (f : ShareRecord → ShareRecord) : a.changeShare o arn f = (.error (o.missing arn), a) := by
  rw [changeShare, withShare, hs]

@[simp] theorem dropTags_nil (l : List Tag) : dropTags l [] = l := List.filter_eq_self.2 fun _ _ => rfl

/-- The tags are changed of the share with the ARN, or else of the permission with it. -/
theorem applied_tags (target : TagTarget) (desired observed : List Tag) (done : List Request)
    (a : Account) : (Sync.tags target desired observed).applied done a
      = a.changeTags target.arn fun l => putTags (dropTags l (done.flatMap Request.droppedKeys))
          (done.flatMap Request.sentTags) := rfl

/-- Everything else is changed of the share with the ARN. -/
theorem applied_eq_changeShare (hy : ∀ target desired observed, y ≠ .tags target desired observed)
    (done : List Request) (a : Account) (o : Operation) :
    y.applied done a = (a.changeShare o y.arn (y.onShare done)).2 := by
  cases hs : a.shares.find? y.arn with
  | some s => rw [applied_of_share hs, changeShare_of_find? hs]
  | none =>
    rw [changeShare_of_absent hs]
    cases hp : a.permissions.find? y.arn with
    | none => exact applied_of_absent hs hp done
    | some p =>
      rw [applied_of_permission hs hp]
      cases y with
      | tags target desired observed => exact absurd rfl (hy target desired observed)
      | associations | permissions => exact putPermission_self hp

/-- **What is done by one request is what the sync is said to do by it.** -/
theorem serve_part (h : y.Part q) (a : Account) : (serve q a).2 = y.applied [q] a := by
  cases h with
  | untag keys =>
    rw [applied_tags]
    simp only [List.flatMap_cons, List.flatMap_nil, List.append_nil]
    rfl
  | tag tags =>
    rw [applied_tags]
    simp only [List.flatMap_cons, List.flatMap_nil, List.append_nil, Request.droppedKeys, dropTags_nil]
    rfl
  | @disassociate arn desired observed batch =>
    have hshare : (Sync.associations arn desired observed).onShare [.disassociate arn batch]
        = Account.disassociate batch := by
      funext s
      simp [onShare, Account.disassociate, Request.taken, Request.given]
    rw [applied_eq_changeShare (by simp) _ _ .disassociateResourceShare, hshare]
    rfl
  | @associate arn desired observed batch =>
    have hshare : (Sync.associations arn desired observed).onShare [.associate arn batch]
        = Account.associate batch := by
      funext s
      simp [onShare, Account.associate, Request.taken, Request.given]
    rw [applied_eq_changeShare (by simp) _ _ .associateResourceShare, hshare]
    rfl
  | @detach arn desired observed permission =>
    have hshare : (Sync.permissions arn desired observed).onShare [.detachPermission arn permission]
        = fun s => { s with permissions := dropNames s.permissions [permission] } := by
      funext s
      simp [onShare, Request.detached, Request.attached]
    rw [applied_eq_changeShare (by simp) _ _ .disassociateResourceSharePermission, hshare]
    rfl
  | @attach arn desired observed permission =>
    have hshare : (Sync.permissions arn desired observed).onShare [.attachPermission arn permission]
        = fun s => { s with permissions := addNames s.permissions [permission] } := by
      funext s
      simp [onShare, Request.detached, Request.attached]
    rw [applied_eq_changeShare (by simp) _ _ .associateResourceSharePermission, hshare]
    rfl

/-! ## What requests do one after another -/

section Order

variable {rest : List Request}

/-- One request takes something, or the others take nothing. -/
def Before (q : Request) (rest : List Request) : Prop :=
  q.takes = true ∨ ∀ r ∈ rest, r.takes = false

theorem not_takes (h : q.takes = false) :
    q.droppedKeys = [] ∧ q.taken = ⟨[], [], []⟩ ∧ q.detached = [] := by
  cases q <;> first | exact ⟨rfl, rfl, rfl⟩ | cases h

theorem takes_only (h : q.takes = true) :
    q.sentTags = [] ∧ q.given = ⟨[], [], []⟩ ∧ q.attached = [] := by
  cases q <;> first | exact ⟨rfl, rfl, rfl⟩ | cases h

/-- Sets of names from which nothing is dropped after something was added. -/
theorem names_moved {s : NameSet} {out out' into into' : List String} (h : into = [] ∨ out' = []) :
    addNames (dropNames (addNames (dropNames s out) into) out') into'
      = addNames (dropNames s (out ++ out')) (into ++ into') := by
  refine NameSet.ext_mem fun x => ?_
  rcases h with rfl | rfl
  · simp [and_assoc]
  · simp only [mem_addNames, mem_dropNames, List.append_nil, List.mem_append, List.not_mem_nil,
      not_false_iff, and_true]
    tauto

/-- Lists of tags, likewise. -/
theorem tags_moved {l : List Tag} {out out' : List String} {into into' : List Tag}
    (h : into = [] ∨ out' = []) :
    putTags (dropTags (putTags (dropTags l out) into) out') into'
      = putTags (dropTags l (out ++ out')) (into ++ into') := by
  have hput : ∀ m : List Tag, putTags m (into ++ into') = putTags (putTags m into) into' :=
    fun m => List.foldl_append
  rw [hput]
  rcases h with rfl | rfl
  · have hdrop : dropTags (dropTags l out) out' = dropTags l (out ++ out') := by
      simp [dropTags, List.filter_filter, Bool.and_comm]
    exact congrArg (putTags · into') hdrop
  · rw [dropTags_nil, List.append_nil]

/-- One request puts nothing, or the others take nothing. -/
theorem Before.cases {α β : Type} (h : Before q rest) {out : Request → List α} {into : Request → List β}
    (hout : ∀ r, r.takes = false → out r = []) (hinto : ∀ r, r.takes = true → into r = []) :
    [q].flatMap into = [] ∨ rest.flatMap out = [] := by
  rcases h with h | h
  · exact .inl (by simp [hinto q h])
  · exact .inr (List.flatMap_eq_nil_iff.2 fun r hr => hout r (h r hr))

/-- What becomes of a set of names by one request and then by others. -/
theorem names_cons (h : Before q rest) {out into : Request → List String}
    (hout : ∀ r, r.takes = false → out r = []) (hinto : ∀ r, r.takes = true → into r = [])
    (s : NameSet) :
    addNames (dropNames (addNames (dropNames s ([q].flatMap out)) ([q].flatMap into))
        (rest.flatMap out)) (rest.flatMap into)
      = addNames (dropNames s ((q :: rest).flatMap out)) ((q :: rest).flatMap into) := by
  rw [names_moved (h.cases hout hinto), ← List.flatMap_append, ← List.flatMap_append]
  rfl

theorem tags_cons (h : Before q rest) (l : List Tag) :
    putTags (dropTags (putTags (dropTags l ([q].flatMap Request.droppedKeys))
          ([q].flatMap Request.sentTags)) (rest.flatMap Request.droppedKeys))
        (rest.flatMap Request.sentTags)
      = putTags (dropTags l ((q :: rest).flatMap Request.droppedKeys))
          ((q :: rest).flatMap Request.sentTags) := by
  rw [tags_moved (h.cases (fun r hr => (not_takes hr).1) fun r hr => (takes_only hr).1),
    ← List.flatMap_append, ← List.flatMap_append]
  rfl

/-- What becomes of a share by one request and then by others. -/
theorem onShare_cons (h : Before q rest) (s : ShareRecord) :
    y.onShare rest (y.onShare [q] s) = y.onShare (q :: rest) s := by
  cases y with
  | tags => exact congrArg s.withTags (tags_cons h s.detail.tags)
  | associations =>
    have hnames : ∀ (f : AssociationBatch → List String) (t : NameSet), f ⟨[], [], []⟩ = [] →
        addNames (dropNames (addNames (dropNames t ([q].flatMap fun r => f r.taken))
            ([q].flatMap fun r => f r.given)) (rest.flatMap fun r => f r.taken))
            (rest.flatMap fun r => f r.given)
          = addNames (dropNames t ((q :: rest).flatMap fun r => f r.taken))
              ((q :: rest).flatMap fun r => f r.given) := by
      intro f t hf
      refine names_cons h (fun r hr => ?_) (fun r hr => ?_) t
      · rw [(not_takes hr).2.1, hf]
      · rw [(takes_only hr).2.1, hf]
    simp only [onShare]
    rw [hnames AssociationBatch.principals _ rfl, hnames AssociationBatch.resourceArns _ rfl,
      hnames AssociationBatch.sources _ rfl]
  | permissions =>
    simp only [onShare]
    rw [names_cons h (fun r hr => (not_takes hr).2.2) fun r hr => (takes_only hr).2.2]

theorem onPermission_cons (h : Before q rest) (p : PermissionRecord) :
    y.onPermission rest (y.onPermission [q] p) = y.onPermission (q :: rest) p := by
  cases y with
  | tags => exact congrArg p.withTags (tags_cons h p.detail.tags)
  | associations | permissions => rfl

theorem onShare_arn (y : Sync) (done : List Request) (s : ShareRecord) :
    (y.onShare done s).arn = s.arn := by
  cases y <;> rfl

theorem onPermission_arn (y : Sync) (done : List Request) (p : PermissionRecord) :
    (y.onPermission done p).arn = p.arn := by
  cases y <;> rfl

/-- **What is done by one request and then by others is done by all of them.** -/
theorem applied_cons (h : Before q rest) (a : Account) :
    y.applied rest (y.applied [q] a) = y.applied (q :: rest) a := by
  cases hs : a.shares.find? y.arn with
  | some s =>
    have hkey : (y.onShare [q] s).arn = y.arn := (onShare_arn y _ s).trans (Roster.key_of_find? hs)
    have hfound : (a.putShare (y.onShare [q] s)).shares.find? y.arn = some (y.onShare [q] s) :=
      putShare_find? hkey
    rw [applied_of_share hs, applied_of_share hs, applied_of_share hfound, onShare_cons h,
      putShare_putShare]
    rw [hkey, onShare_arn, Roster.key_of_find? hs]
  | none =>
    cases hp : a.permissions.find? y.arn with
    | some p =>
      have hkey : (y.onPermission [q] p).arn = y.arn :=
        (onPermission_arn y _ p).trans (Roster.key_of_find? hp)
      have hnone : (a.putPermission (y.onPermission [q] p)).shares.find? y.arn = none := hs
      have hfound : (a.putPermission (y.onPermission [q] p)).permissions.find? y.arn
          = some (y.onPermission [q] p) := putPermission_find? hkey
      rw [applied_of_permission hs hp, applied_of_permission hs hp,
        applied_of_permission hnone hfound, onPermission_cons h, putPermission_putPermission]
      rw [hkey, onPermission_arn, Roster.key_of_find? hp]
    | none => rw [applied_of_absent hs hp, applied_of_absent hs hp, applied_of_absent hs hp]

end Order

/-- Nothing is done by no request. -/
theorem applied_nil (y : Sync) (a : Account) : y.applied [] a = a := by
  have hshare : ∀ s, y.onShare [] s = s := by cases y <;> simp [onShare, putTags, ShareRecord.withTags]
  have hpermission : ∀ p, y.onPermission [] p = p := by
    cases y <;> simp [onPermission, putTags, PermissionRecord.withTags]
  cases hs : a.shares.find? y.arn with
  | some s => rw [applied_of_share hs, hshare, putShare_self hs]
  | none =>
    cases hp : a.permissions.find? y.arn with
    | some p => rw [applied_of_permission hs hp, hpermission, putPermission_self hp]
    | none => exact applied_of_absent hs hp []

/-- A share that is there stays there. -/
theorem find?_of_applied {done : List Request} (h : (y.applied done a).shares.find? y.arn = none) :
    a.shares.find? y.arn = none := by
  cases hs : a.shares.find? y.arn with
  | none => rfl
  | some s =>
    have hkey : (y.onShare done s).arn = y.arn := (onShare_arn y _ s).trans (Roster.key_of_find? hs)
    rw [applied_of_share hs, putShare_find? hkey] at h
    cases h

/-- Nothing is done under another ARN. -/
theorem entries_applied (done : List Request) {x : String} (hx : x ≠ y.arn) :
    (y.applied done a).entries x = a.entries x := by
  cases hs : a.shares.find? y.arn with
  | some s =>
    have hkey : (y.onShare done s).arn = y.arn := (onShare_arn y _ s).trans (Roster.key_of_find? hs)
    rw [applied_of_share hs, entries, find?_putShare, hkey, if_neg hx]
    rfl
  | none =>
    cases hp : a.permissions.find? y.arn with
    | some p =>
      have hkey : (y.onPermission done p).arn = y.arn :=
        (onPermission_arn y _ p).trans (Roster.key_of_find? hp)
      rw [applied_of_permission hs hp, entries, find?_putPermission, hkey, if_neg hx]
      rfl
    | none => rw [applied_of_absent hs hp]

/-! ## Refusals -/

/-- The account itself refuses only to change a share that it does not have, and does nothing then. -/
theorem serve_refused (h : y.Part q) {e : ApiError} (he : (serve q a).1 = .error e) :
    (serve q a).2 = a ∧ q.operation.isTagging = false ∧ a.shares.find? y.arn = none ∧
      e = q.operation.missing y.arn := by
  have hmissing : ∀ {arn : String} {o : Operation} {f : ShareRecord → ShareRecord},
      (a.changeShare o arn f).1 = .error e →
        (a.changeShare o arn f).2 = a ∧ a.shares.find? arn = none ∧ e = o.missing arn := by
    intro arn o f he
    cases hs : a.shares.find? arn with
    | some s =>
      rw [changeShare_of_find? hs] at he
      cases he
    | none =>
      rw [changeShare_of_absent hs] at he ⊢
      cases he
      exact ⟨rfl, rfl, rfl⟩
  cases h with
  | untag | tag => cases he
  | disassociate | associate | detach | attach =>
    obtain ⟨hsame, hnone, he⟩ := hmissing he
    exact ⟨hsame, rfl, hnone, he⟩

end Sync

/-! ## Runs -/

namespace Sync

variable {y : Sync} {prepared : Operation → ApiError → Prop} {s s' : Stage} {l : List Request}
  {heard : List Exchange} {p : Pass Unit} {out : Except Failure Unit}

/-- A request of a sync that is refused does nothing, and was refused as prepared or because the share
is not there. -/
theorem stage_refused {q : Request} (hq : y.Part q) (hs : s.script.Refuses prepared) {e : ApiError}
    (he : (Stage.serve q s).1 = .error e) :
    (Stage.serve q s).2.account = s.account ∧
      (prepared q.operation e ∨ q.operation.isTagging = false ∧
        s.account.shares.find? y.arn = none ∧ e = q.operation.missing y.arn) := by
  rcases (Stage.serve_refuses hs q).2 with ⟨hgenuine, haccount⟩ | ⟨e', hprepared, he', haccount⟩
  · obtain ⟨hsame, hmissing⟩ := serve_refused hq (hgenuine.symm.trans he)
    exact ⟨haccount.trans hsame, .inr hmissing⟩
  · rw [he] at he'
    cases he'
    exact ⟨haccount, .inl hprepared⟩

/-- A request of a sync that is granted does its part. -/
theorem stage_granted {q : Request} (hq : y.Part q) (hs : s.script.Refuses prepared) {v : q.Reply}
    (hv : (Stage.serve q s).1 = .ok v) :
    (Stage.serve q s).2.account = y.applied [q] s.account := by
  rcases (Stage.serve_refuses hs q).2 with ⟨-, haccount⟩ | ⟨e, -, he, -⟩
  · exact haccount.trans (serve_part hq _)
  · rw [hv] at he
    cases he

/-- What is granted was asked for. -/
theorem mem_of_granted (hasked : heard.map Sigma.fst <+: l) {q : Request} (hq : q ∈ granted heard) :
    q ∈ l := by
  obtain ⟨x, hx, rfl⟩ := List.mem_map.1 hq
  exact hasked.subset (List.mem_map_of_mem (List.mem_filter.1 hx).1)

/-- **What is done by requests of a sync up to the first refusal.** -/
theorem account_of_run (hmakes : p.Makes (fun _ => True) l) (hstops : p.StopsOn fun _ => True)
    (hpart : ∀ q ∈ l, y.Part q) (horder : l.Pairwise fun q r => r.takes = true → q.takes = true)
    (hs : s.script.Refuses prepared) (h : Dialogue Stage.serve p s heard out s') :
    s'.account = y.applied (granted heard) s.account ∧
      ∀ x ∈ heard, ∀ e, x.refusal? = some e → prepared x.1.operation e ∨
        x.1.operation.isTagging = false ∧ s.account.shares.find? y.arn = none ∧
          e = x.1.operation.missing y.arn := by
  induction p generalizing l s heard with
  | done u =>
    obtain ⟨rfl, -, rfl⟩ := h.done_inv
    exact ⟨(applied_nil y _).symm, fun x hx => absurd hx List.not_mem_nil⟩
  | fail e => exact hmakes.elim
  | call q next ih =>
    obtain ⟨rest, rfl, hnext⟩ := hmakes
    obtain ⟨hq, hrest⟩ := List.forall_mem_cons.1 hpart
    obtain ⟨hbefore, horder⟩ := List.pairwise_cons.1 horder
    obtain ⟨tail, rfl, htail⟩ := h.call_inv
    cases hanswer : (Stage.serve q s).1 with
    | error e =>
      -- the refusal is the end of it
      obtain ⟨hsame, hrefused⟩ := stage_refused hq hs hanswer
      rw [hanswer] at htail
      obtain ⟨rfl, -, rfl⟩ := htail.over_inv (hstops.1 e trivial)
      refine ⟨hsame.trans (applied_nil y _).symm, fun x hx e' he' => ?_⟩
      cases List.mem_singleton.1 hx
      cases he'
      exact hrefused
    | ok v =>
      have hscript := (Stage.serve_refuses hs q).1
      have haccount := stage_granted hq hs hanswer
      rw [hanswer] at htail
      obtain ⟨hmoved, hrefused⟩ :=
        ih (.ok v) (hnext v trivial) (hstops.2 _) hrest horder hscript htail
      have hasked := (hnext v trivial).requests_isPrefix (hstops.2 _) htail
      constructor
      · -- nothing is taken away later if this one puts something
        have hleads : Before q (granted tail) := by
          cases htakes : q.takes with
          | true => exact .inl htakes
          | false =>
            refine .inr fun r hr => ?_
            cases hr' : r.takes with
            | false => rfl
            | true => rw [hbefore r (mem_of_granted hasked hr) hr'] at htakes; cases htakes
        rw [hmoved, haccount, applied_cons hleads]
        rfl
      · intro x hx e he
        rcases List.mem_cons.1 hx with rfl | hx
        · cases he
        · refine (hrefused x hx e he).imp_right fun ⟨htagging, hnone, hmissing⟩ => ?_
          rw [haccount] at hnone
          exact ⟨htagging, find?_of_applied hnone, hmissing⟩
  | note c next ih => exact ih hmakes hstops hpart horder hs h.note_inv

/-- A pass that stops at a refusal, and fails for nothing else, succeeds if there is none. -/
theorem ok_iff_of_run (hstops : p.StopsOn fun _ => True) (hraises : p.Raises fun _ => False)
    (h : Dialogue Stage.serve p s heard out s') :
    out = .ok () ↔ ∀ x ∈ heard, x.refusal? = none := by
  constructor
  · rintro rfl
    exact hstops.granted h
  · intro hnone
    cases out with
    | ok u => rfl
    | error e =>
      rcases hraises.dialogue_cases h with hraised | ⟨x, hx, a, ha, -⟩
      · exact hraised.elim
      · rw [hnone x hx] at ha
        cases ha

/-- Nothing is put after something could not be taken away. -/
theorem not_mem_additions_of_refused (hasked : heard.map Sigma.fst <+: y.removals ++ y.additions)
    (hgrants : heard.Pairwise fun x _ => x.refusal? = none) {x z : Exchange} (hx : x ∈ heard)
    (hremoval : x.1 ∈ y.removals) (hrefused : x.refusal? ≠ none) (hz : z ∈ heard) :
    z.1 ∉ y.additions := by
  intro haddition
  have htakes := (part_of_mem_removals hremoval).2
  have hputs := (part_of_mem_additions haddition).2
  obtain ⟨before, after, rfl⟩ := List.append_of_mem hx
  have horder := List.pairwise_map.1 (y.pairwise_takes.sublist hasked.sublist)
  rcases List.mem_append.1 hz with hz | hz
  · -- what is put stands after what is taken away
    have := (List.pairwise_append.1 horder).2.2 z hz x List.mem_cons_self htakes
    rw [hputs] at this
    cases this
  · rcases List.mem_cons.1 hz with rfl | hz
    · rw [hputs] at htakes
      cases htakes
    · exact hrefused ((List.pairwise_cons.1 (List.pairwise_append.1 hgrants).2.1).1 z hz)

/-- **A sync stops half-way exactly at a refusal.** Whatever is desired and observed, whatever the account
looks like and whichever requests are prepared to be refused: the planned requests are made up to the
first that is refused, the sync fails with that refusal if there is one, and the account is left as it
was, but for the effects of the requests before it on the one relation. -/
theorem halfWay_sync (y : Sync) {s : Stage} (hs : s.script.Refuses prepared) :
    HalfWay y prepared s.account (transcript Stage.serve y.plan.perform s)
      (run Stage.serve y.plan.perform s).1 (run Stage.serve y.plan.perform s).2.account := by
  have h : Dialogue Stage.serve y.plan.perform s (transcript Stage.serve y.plan.perform s)
      (run Stage.serve y.plan.perform s).1 (run Stage.serve y.plan.perform s).2 := .of_run rfl
  generalize transcript Stage.serve y.plan.perform s = heard at h ⊢
  generalize (run Stage.serve y.plan.perform s).1 = out at h ⊢
  generalize (run Stage.serve y.plan.perform s).2 = s' at h ⊢
  have hmakes : y.plan.perform.Makes (fun _ => True) (y.removals ++ y.additions) := by
    rw [← requests_plan]
    exact SyncPlan.makes_perform
  have hstops : y.plan.perform.StopsOn fun _ => True := SyncPlan.stopsOn_perform
  have hasked := hmakes.requests_isPrefix hstops h
  have hgrants := hstops.pairwise_granted h
  obtain ⟨hmoved, hrefused⟩ :=
    account_of_run hmakes hstops (fun _ => part_of_mem) y.pairwise_takes hs h
  constructor
  · exact hasked
  · exact hgrants
  · exact fun hnone => hmakes.requests_eq h hnone fun _ _ => trivial
  · exact ok_iff_of_run hstops SyncPlan.raises_perform h
  · exact fun x hx e he => hstops.eq_of_refused h hx he
  · exact fun x hx hremoval hfailed z hz =>
      not_mem_additions_of_refused hasked hgrants hx hremoval hfailed hz
  · exact hrefused
  · exact hmoved
  · intro arn harn
    rw [hmoved, entries_applied _ harn]

/-! ### A sync that stops -/

/-- The permissions of a share are to be exchanged. One of those that are observed is not attached. -/
def exchange : Sync := .permissions (shareArn "team") ["b", "a", "c"] ["y", "x"]

/-- A share with one permission that is observed and one that is not. The second one to be attached is
refused. -/
def reluctant : Stage where
  account := (serve (.createShare ⟨"team", none, ["x", "z"], [], [], [], []⟩) .empty).2
  script := Script.none.set .associateResourceSharePermission [.genuine, .refuse ⟨.other, "", none, ""⟩]

/-- Two permissions are detached and one is attached. -/
theorem halfWay_exchange :
    reluctant.script.Refuses (fun _ e => e = ⟨.other, "", none, ""⟩) ∧
      HalfWay exchange (fun _ e => e = ⟨.other, "", none, ""⟩) reluctant.account
        (transcript Stage.serve exchange.plan.perform reluctant)
        (run Stage.serve exchange.plan.perform reluctant).1
        (run Stage.serve exchange.plan.perform reluctant).2.account ∧
      granted (transcript Stage.serve exchange.plan.perform reluctant)
        = [.detachPermission (shareArn "team") "x", .detachPermission (shareArn "team") "y",
          .attachPermission (shareArn "team") "a"] ∧
      requests Stage.serve exchange.plan.perform reluctant
        = [.detachPermission (shareArn "team") "x", .detachPermission (shareArn "team") "y",
          .attachPermission (shareArn "team") "a", .attachPermission (shareArn "team") "b"] ∧
      ((run Stage.serve exchange.plan.perform reluctant).2.account.shares.find?
        (shareArn "team")).map (fun s => s.permissions.toList) = some ["a", "z"] := by
  have hscript : reluctant.script.Refuses fun _ e => e = ⟨.other, "", none, ""⟩ := by
    refine Script.forall_set (fun _ _ h => absurd h List.not_mem_nil) fun c hc => ?_
    rcases List.mem_cons.1 hc with rfl | hc
    · trivial
    · cases List.mem_singleton.1 hc
      rfl
  exact ⟨hscript, halfWay_sync exchange hscript, by decide +kernel, by decide +kernel,
    by decide +kernel⟩

end Sync

end ShareKeeper
