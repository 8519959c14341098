import ShareKeeper.Proofs.Quiescence
import ShareKeeper.Proofs.Situation
import ShareKeeper.Proofs.Walk

/-!
# Whose tags are sent

The system keys are not the user's: the service manages the reserved ones, and the controller the ones
that it attaches itself. No pass ever removes a tag with such a key. But what a specification lists
under one is sent as it is, when the entity is created and whenever the tags are brought in step. So
the keys are respected by whatever passes there are exactly if the specification lists none, or only
what the controller would attach anyway (`respects_iff`).
-/

namespace ShareKeeper

open Pass

/-! ## Tags in requests -/

namespace Request

/-- The tags that a request puts on an entity. -/
def sentTags : Request → List Tag
  | .createPermission i => i.tags
  | .createShare i => i.tags
  | .tag _ tags => tags
  | _ => []

/-- The keys of the tags that a request takes off an entity. -/
def droppedKeys : Request → List String
  | .untag _ keys => keys
  | _ => []

/-- A request leaves the system keys to the service and the controller, who attaches its tags to the
entities of objects in a namespace. -/
structure Respects (q : Request) (namespace' : String) : Prop where
  unreserved : ∀ t ∈ q.sentTags, Tag.isReserved t.key = false
  unreserved_dropped : ∀ key ∈ q.droppedKeys, Tag.isReserved key = false
  undropped : ∀ key ∈ q.droppedKeys, key ≠ Tag.namespaceKey ∧ key ≠ Tag.controllerVersionKey
  genuine : ∀ t ∈ q.sentTags, t.key = Tag.namespaceKey ∨ t.key = Tag.controllerVersionKey →
    (Tags.system namespace').find? t.key = some t

/-- The tags of a request are desired ones, and it takes no system key away. -/
structure TagsFrom (q : Request) (desired : List Tag) : Prop where
  sent : ∀ t ∈ q.sentTags, (Tags.ofTags desired).find? t.key = some t
  dropped : ∀ key ∈ q.droppedKeys, Tag.isSystem key = false

end Request

/-- The object as its user wrote it. -/
def Resource.asWritten {k : Kind} (r : Resource k) : Resource k := { r with status := none }

/-- What a specification lists under system keys is what the controller attaches anyway. -/
def Resource.GenuineTags {k : Kind} (r : Resource k) : Prop :=
  ∀ t : Tag, (Tags.ofTags (k.tags r.spec)).find? t.key = some t → Tag.isSystem t.key = true →
    (Tags.system r.namespaceName).find? t.key = some t

namespace Tags

/-- The controller attaches its own two tags. -/
theorem key_of_system {ns k : String} {t : Tag} (h : (system ns).find? k = some t) :
    k = Tag.namespaceKey ∨ k = Tag.controllerVersionKey := by
  rw [system, find?_ofTags] at h
  have hmem := List.mem_reverse.1 (List.mem_of_find?_eq_some h)
  have hkey : t.key = k := by simpa using List.find?_some h
  simp only [List.mem_cons, List.not_mem_nil, or_false] at hmem
  rcases hmem with rfl | rfl
  · exact .inl hkey.symm
  · exact .inr hkey.symm

theorem not_isReserved_of_system {ns k : String} {t : Tag} (h : (system ns).find? k = some t) :
    Tag.isReserved k = false := by
  rcases key_of_system h with rfl | rfl <;> decide

/-- A tag that is the controller's if it has a system key has no reserved one. -/
theorem not_isReserved_of_genuine {ns : String} {t : Tag}
    (h : Tag.isSystem t.key = true → (system ns).find? t.key = some t) :
    Tag.isReserved t.key = false := by
  cases hreserved : Tag.isReserved t.key with
  | false => rfl
  | true =>
    have hsystem := h (Tag.isSystem_of_isReserved hreserved)
    exact hreserved.symm.trans (not_isReserved_of_system hsystem)

theorem isSystem_of_attached {key : String}
    (h : key = Tag.namespaceKey ∨ key = Tag.controllerVersionKey) : Tag.isSystem key = true := by
  rcases h with rfl | rfl <;> decide

/-- What is added is desired. The reserved tags that are taken over are there already. -/
theorem find?_of_mem_toAdd {desired observed : List Tag} {t : Tag}
    (h : t ∈ (change desired observed).toAdd.toList) : (ofTags desired).find? t.key = some t := by
  rw [Roster.mem_toList_iff, change, Roster.find?_filter, Option.filter_eq_some_iff] at h
  obtain ⟨hfind, hnew⟩ := h
  have hnew : (ofTags observed).find? t.key ≠ some t := by simpa using hnew
  rw [withReserved, Roster.find?_union, Roster.find?_filter] at hfind
  cases hobserved : (ofTags observed).find? t.key with
  | none => simpa [hobserved] using hfind
  | some u =>
    have hne : u ≠ t := fun hu => hnew (by rw [hobserved, hu])
    cases hreserved : Tag.isReserved u.key with
    | true => simp [hobserved, Option.filter_some, hreserved, hne] at hfind
    | false => simpa [hobserved, Option.filter_some, hreserved] using hfind

end Tags

/-! ## Requests of a pass -/

section Plans

variable {q : Request} {desired observed : List Tag}

theorem tagsFrom_of_mem_tags {target : TagTarget}
    (h : q ∈ (SyncPlan.tags target desired observed).requests) : q.TagsFrom desired := by
  rcases List.mem_append.1 h with h | h
  · cases SyncPlan.mem_when h
    refine ⟨fun t ht => absurd ht List.not_mem_nil, fun key hkey => ?_⟩
    obtain ⟨t, ht, rfl⟩ := List.mem_map.1 hkey
    exact Tags.not_isSystem_of_mem_toRemove ht
  · cases SyncPlan.mem_when h
    exact ⟨fun t ht => Tags.find?_of_mem_toAdd ht, fun key hkey => absurd hkey List.not_mem_nil⟩

/-- A request that has nothing to do with tags. -/
theorem tagsFrom_of_silent (hsent : q.sentTags = []) (hdropped : q.droppedKeys = []) :
    q.TagsFrom desired where
  sent t ht := by rw [hsent] at ht; cases ht
  dropped key hkey := by rw [hdropped] at hkey; cases hkey

theorem tagsFrom_of_isRead (h : q.operation.isRead = true) : q.TagsFrom desired := by
  cases q <;> first | exact tagsFrom_of_silent rfl rfl | cases h

theorem tagsFrom_of_mem_associations {arn : String} {a b : ShareSpec}
    (h : q ∈ (SyncPlan.associations arn a b).requests) : q.TagsFrom desired := by
  rcases List.mem_append.1 h with h | h <;> exact SyncPlan.mem_when h ▸ tagsFrom_of_silent rfl rfl

theorem tagsFrom_of_mem_permissions {arn : String} {a b : List String}
    (h : q ∈ (SyncPlan.permissions arn a b).requests) : q.TagsFrom desired := by
  rcases List.mem_append.1 h with h | h <;> obtain ⟨name, -, rfl⟩ := List.mem_map.1 h <;>
    exact tagsFrom_of_silent rfl rfl

end Plans

theorem Permission.tagsFrom_update (r latest : Permission) (d : Delta) :
    (update r latest d).Asks fun q => q.TagsFrom r.spec.tags := by
  refine Permission.asks_update_of r latest d (fun _ _ _ hq => tagsFrom_of_mem_tags hq) ?_
  intro arn _ q hstep
  cases hstep <;> exact tagsFrom_of_silent rfl rfl

theorem Share.tagsFrom_update (r latest : Share) (d : Delta) :
    (update r latest d).Asks fun q => q.TagsFrom r.spec.tags :=
  Share.asks_update_of r latest d (fun _ _ => tagsFrom_of_silent rfl rfl)
    (fun _ _ _ hq => tagsFrom_of_mem_tags hq) (fun _ _ _ hq => tagsFrom_of_mem_associations hq)
    fun _ _ _ hq => tagsFrom_of_mem_permissions hq

section Passes

variable {k : Kind} {r : Resource k} {q : Request}

/-- **Whose tags a pass sends:** desired ones, and in a creation those of the controller, too. -/
theorem tagsFrom_reconcile (r : Resource k) (region : Option String) (now : Instant) :
    (reconcile k.manager region now r).Asks fun q =>
      k.manager.validate r = .ok () ∧ (q.TagsFrom (k.tags r.spec) ∨ q = r.creation) := by
  cases hvalid : k.manager.validate r with
  | error e =>
    rw [reconcile, hvalid]
    trivial
  | ok u =>
    refine asks_reconcile region now
      ((asks_readOne r).mono fun q h => ⟨rfl, .inl (tagsFrom_of_isRead h)⟩)
      ((asks_create r).mono fun q h => ⟨rfl, .inr h⟩) fun latest d => ?_
    cases k with
    | permission => exact (Permission.tagsFrom_update r latest d).mono fun q h => ⟨rfl, .inl h⟩
    | share => exact (Share.tagsFrom_update r latest d).mono fun q h => ⟨rfl, .inl h⟩

theorem Request.TagsFrom.respects (h : q.TagsFrom (k.tags r.spec)) (hr : r.GenuineTags) :
    q.Respects r.namespaceName where
  unreserved t ht := Tags.not_isReserved_of_genuine (hr t (h.sent t ht))
  unreserved_dropped key hkey := Tag.not_isReserved (h.dropped key hkey)
  undropped key hkey := by
    have hkept := h.dropped key hkey
    simp only [Tag.isSystem, Bool.or_eq_false_iff, decide_eq_false_iff_not] at hkept
    exact ⟨hkept.1.2, hkept.2⟩
  genuine t ht hkey := hr t (h.sent t ht) (Tags.isSystem_of_attached hkey)

theorem creation_asWritten (r : Resource k) : r.asWritten.creation = r.creation := by
  cases k <;> rfl

theorem validate_asWritten (r : Resource k) :
    k.manager.validate r.asWritten = k.manager.validate r := by
  cases k <;> rfl

theorem sentTags_creation (r : Resource k) :
    r.creation.sentTags = r.creationTags (k.tags r.spec) := by
  cases k <;> rfl

theorem droppedKeys_creation (r : Resource k) : r.creation.droppedKeys = [] := by
  cases k <;> rfl

/-- A tag of a new entity is desired, or it is the controller's and its key is not desired. -/
theorem mem_creationTags_iff {tags : List Tag} {t : Tag} :
    t ∈ r.creationTags tags ↔ ((Tags.ofTags tags).find? t.key).or
      ((Tags.system r.namespaceName).find? t.key) = some t := by
  rw [Resource.creationTags, Roster.mem_toList_iff, Roster.find?_union]

/-- **A creation respects the system keys exactly if the specification does.** -/
theorem respects_creation_iff : r.creation.Respects r.namespaceName ↔ r.GenuineTags := by
  constructor
  · intro h t ht hsystem
    have hsent : t ∈ r.creation.sentTags := by
      rw [sentTags_creation, mem_creationTags_iff, ht, Option.some_or]
    have hkey := h.unreserved t hsent
    simp only [Tag.isSystem, hkey, Bool.false_or, Bool.or_eq_true, decide_eq_true_eq] at hsystem
    exact h.genuine t hsent hsystem
  · intro h
    have hsent : ∀ t ∈ r.creation.sentTags, Tag.isSystem t.key = true →
        (Tags.system r.namespaceName).find? t.key = some t := by
      intro t ht hsystem
      rw [sentTags_creation, mem_creationTags_iff, Option.or_eq_some_iff] at ht
      rcases ht with ht | ⟨-, ht⟩
      · exact h t ht hsystem
      · exact ht
    have hdropped : ∀ key, key ∉ r.creation.droppedKeys := by simp [droppedKeys_creation]
    exact ⟨fun t ht => Tags.not_isReserved_of_genuine (hsent t ht),
      fun key hkey => absurd hkey (hdropped key), fun key hkey => absurd hkey (hdropped key),
      fun t ht hkey => hsent t ht (Tags.isSystem_of_attached hkey)⟩

end Passes

/-! ## Runs -/

/-- Whether an event is a pass. -/
def Event.IsPass {k : Kind} : Event k → Prop
  | .edit _ => False
  | .pass _ _ _ => True

namespace Situation

variable {k : Kind}

/-- The requests of a pass. -/
def asked (w : Situation k) (region : Option String) (now : Instant) (script : Script) :
    List Request :=
  requests Stage.serve (reconcile k.manager region now w.object) ⟨w.account, script⟩

/-- Everything that is asked for in a run. -/
def journal : Situation k → List (Event k) → List Request
  | _, [] => []
  | w, .edit spec :: rest => (w.step (.edit spec)).journal rest
  | w, .pass region now script :: rest =>
    w.asked region now script ++ (w.step (.pass region now script)).journal rest

/-- A pass leaves metadata and specification alone. -/
theorem asWritten_step_pass (w : Situation k) (region : Option String) (now : Instant)
    (script : Script) :
    (w.step (.pass region now script)).object.asWritten = w.object.asWritten := by
  cases hattempt : w.attempt region now script with
  | mk out a =>
    cases out with
    | ok out =>
      rw [step_of_ok hattempt]
      rfl
    | error e =>
      rw [step_of_error hattempt]
      rfl

/-- **What the requests of every pass have in common, those of a run of passes have.** -/
theorem forall_journal {P : Resource k → Request → Prop}
    (hpass : ∀ (r : Resource k) region now, (reconcile k.manager region now r).Asks (P r.asWritten))
    {w : Situation k} {events : List (Event k)} (hevents : ∀ e ∈ events, e.IsPass) :
    ∀ q ∈ w.journal events, P w.object.asWritten q := by
  induction events generalizing w with
  | nil => exact fun q hq => absurd hq List.not_mem_nil
  | cons e rest ih =>
    cases e with
    | edit spec => exact (hevents _ List.mem_cons_self).elim
    | pass region now script =>
      intro q hq
      rcases List.mem_append.1 hq with hq | hq
      · obtain ⟨x, hx, rfl⟩ := List.mem_map.1 hq
        exact (hpass w.object region now).of_mem x hx
      · rw [← w.asWritten_step_pass region now script]
        exact ih (fun e he => hevents e (List.mem_cons_of_mem _ he)) q hq

end Situation

/-- Every first look is answered that there is nothing. -/
def nothingThere : Script :=
  (Script.none.set .getPermission [.refuse (Operation.getPermission.missing "")]).set
    .getResourceShares [.refuse (Operation.getResourceShares.missing "")]

section Runs

variable {k : Kind}

/-- Where every look is in vain, the entity is looked at as absent. -/
theorem course_readOne_nothingThere (r : Resource k) (a : Account) :
    ∃ e asked s', e.isNotFound = true ∧
      Course Stage.serve (k.manager.readOne r) ⟨a, nothingThere⟩ asked (.error e) s' := by
  cases harn : r.arn with
  | none =>
    refine ⟨.notFound, [], ⟨a, nothingThere⟩, rfl, ?_⟩
    cases k <;> exact (Course.lift_error (requireArn_of_none harn)).bind_error
  | some arn =>
    cases k with
    | permission =>
      exact ⟨_, _, _, rfl, (Course.lift_ok (requireArn_of_arn harn)).bind_quiet
        (Course.recorded_error (e := Operation.getPermission.missing "") rfl).bind_error⟩
    | share =>
      exact ⟨_, _, _, rfl, (Course.lift_ok (requireArn_of_arn harn)).bind_quiet
        (Course.recorded_error (e := Operation.getResourceShares.missing "") rfl).bind_error⟩

/-- There is a pass over every valid object in which its entity is created. -/
theorem creation_mem_asked (w : Situation k) (hvalid : k.manager.validate w.object = .ok ()) :
    w.object.creation ∈ w.asked none .epoch nothingThere := by
  obtain ⟨e, looked, s', he, hlook⟩ := course_readOne_nothingThere w.object w.account
  generalize hrun : run Stage.serve (reconcile k.manager none .epoch w.object)
    ⟨w.account, nothingThere⟩ = ended
  obtain ⟨out, s''⟩ := ended
  have hwalk := walk_of_dialogue (Dialogue.of_run hrun)
  rw [Situation.asked, requests]
  generalize transcript Stage.serve (reconcile k.manager none .epoch w.object)
    ⟨w.account, nothingThere⟩ = heard at hwalk ⊢
  cases hwalk with
  | rejected hrejected => cases hvalid.symm.trans hrejected
  | lost _ hlost hother =>
    cases hlook.run_eq.symm.trans hlost.run_eq
    cases he.symm.trans hother
  | created _ _ _ hcreate =>
    obtain ⟨answer, -, rfl, -⟩ := create_cases hcreate
    exact List.mem_map.2 ⟨_, List.mem_append_right _ List.mem_cons_self, rfl⟩
  | found _ hfound _ => cases hlook.run_eq.symm.trans hfound.run_eq

/-- **The system keys in whatever passes there are.** No tag is ever taken away under one. Tags are put
under them only as the controller attaches them exactly if this is all that the specification lists
under them; an object that is turned down may list what it likes. -/
theorem respects_iff (w : Situation k) :
    ((∀ events : List (Event k), (∀ e ∈ events, e.IsPass) →
        ∀ q ∈ w.journal events, q.Respects w.object.namespaceName) ↔
      (k.manager.validate w.object = .ok () → w.object.GenuineTags)) ∧
    ∀ events : List (Event k), (∀ e ∈ events, e.IsPass) →
      ∀ q ∈ w.journal events, ∀ key ∈ q.droppedKeys, Tag.isSystem key = false := by
  have hjournal : ∀ events : List (Event k), (∀ e ∈ events, e.IsPass) → ∀ q ∈ w.journal events,
      k.manager.validate w.object.asWritten = .ok () ∧
        (q.TagsFrom (k.tags w.object.spec) ∨ q = w.object.asWritten.creation) :=
    fun events => Situation.forall_journal
      (P := fun r q => k.manager.validate r = .ok () ∧ (q.TagsFrom (k.tags r.spec) ∨ q = r.creation))
      fun r region now => by
        rw [validate_asWritten, creation_asWritten]
        exact tagsFrom_reconcile r region now
  rw [validate_asWritten, creation_asWritten] at hjournal
  refine ⟨⟨fun h hvalid => ?_, fun h events hevents q hq => ?_⟩, fun events hevents q hq => ?_⟩
  · -- in one of the passes the entity is created
    refine respects_creation_iff.1 (h [.pass none .epoch nothingThere] (fun e he => ?_) _ ?_)
    · cases List.mem_singleton.1 he
      trivial
    · exact List.mem_append_left _ (creation_mem_asked w hvalid)
  · obtain ⟨hvalid, htags | rfl⟩ := hjournal events hevents q hq
    · exact htags.respects (h hvalid)
    · exact respects_creation_iff.2 (h hvalid)
  · obtain ⟨-, htags | rfl⟩ := hjournal events hevents q hq
    · exact htags.dropped
    · simp [droppedKeys_creation]

end Runs

/-! ## Tags that are passed off -/

/-- A permission whose specification lists a reserved tag, and another namespace than its own. -/
def meddled : Permission where
  metadata := { Metadata.empty with namespaceName := some "default" }
  spec := ⟨"reader", "ec2:Subnet", "\x7b\x7d",
    [⟨"aws:createdBy", "me"⟩, ⟨Tag.namespaceKey, "other"⟩]⟩
  status := none

/-- The object before any pass, in an empty account. -/
def meddling : Situation .permission := ⟨meddled, .empty⟩

/-- **System tags of the user that are sent** when the permission is created. -/
theorem system_tags_sent :
    ∃ q ∈ meddling.journal [.pass none .epoch .none], q.operation = .createPermission ∧
      ⟨"aws:createdBy", "me"⟩ ∈ q.sentTags ∧ ⟨Tag.namespaceKey, "other"⟩ ∈ q.sentTags ∧
      ¬ q.Respects meddled.namespaceName := by
  have hasked : meddled.creation ∈ meddling.journal [.pass none .epoch .none] := by
    decide +kernel
  have hreserved : (⟨"aws:createdBy", "me"⟩ : Tag) ∈ meddled.creation.sentTags := by
    decide +kernel
  refine ⟨_, hasked, rfl, hreserved, by decide +kernel, fun h => ?_⟩
  exact absurd (h.unreserved _ hreserved) (by decide)

end ShareKeeper
