import ShareKeeper.SyncPlan
import ShareKeeper.Proofs.Account
import ShareKeeper.Proofs.Dialogue
import ShareKeeper.Proofs.Tag

/-!
# What the plans ask for and what they do to the account

A plan asks for the difference between two sets, in ascending order and nothing twice, and where there
is no difference it asks for nothing. Each plan, carried out on an account that holds its entity,
succeeds, and leaves the account with the changed entity in the place of the old one. An empty part of
a plan is no request, and is accounted for all the same: taking nothing from a set and putting nothing
into it changes nothing.
-/

namespace ShareKeeper.SyncPlan

open Account Pass

/-- A request that is left out where it would do nothing. -/
theorem course_when {label : CallLabel} {r : Request} {needed : Bool} {a a' : Account}
    (hneeded : needed = true → ∃ v, serve r a = (.ok v, a')) (hidle : needed = false → a' = a) :
    Course serve (askAll label (when needed r)) a (when needed r) (.ok ()) a' := by
  cases needed with
  | true =>
    obtain ⟨v, hv⟩ := hneeded rfl
    exact Course.askAll_cons hv (.done ())
  | false =>
    rw [hidle rfl]
    exact .done ()

/-- A plan of two parts. -/
theorem course_perform {p : SyncPlan} {a b a' : Account}
    (hremove : Course serve (askAll p.removedAs p.removals) a p.removals (.ok ()) b)
    (hadd : Course serve (askAll p.addedAs p.additions) b p.additions (.ok ()) a') :
    Course serve p.perform a p.requests (.ok ()) a' := hremove.bind hadd

theorem toList_eq_nil_of_not {α : Type} {key : α → String} {l : Roster key}
    (h : (!l.isEmpty) = false) : l.toList = [] :=
  Roster.toList_eq_nil_of_isEmpty (by simpa using h)

theorem keys_eq_nil_of_not {α : Type} {key : α → String} {l : Roster key}
    (h : (!l.isEmpty) = false) : l.keys = [] := by
  rw [Roster.keys, toList_eq_nil_of_not h]
  rfl

/-! ## What a plan does at all -/

section Perform

variable {p : SyncPlan}

theorem asks_perform {allowed : Request → Prop} (h : ∀ q ∈ p.requests, allowed q) :
    p.perform.Asks allowed :=
  (asks_askAll fun q hq => h q (List.mem_append_left _ hq)).bind
    fun _ => asks_askAll fun q hq => h q (List.mem_append_right _ hq)

theorem stopsOn_perform {bad : ApiError → Prop} : p.perform.StopsOn bad :=
  (stopsOn_askAll _).bind fun _ => stopsOn_askAll _

theorem raises_perform {sort : Failure → Prop} : p.perform.Raises sort :=
  (raises_askAll _).bind fun _ => raises_askAll _

theorem makes_perform {fair : Exchange → Prop} : p.perform.Makes fair p.requests :=
  (makes_askAll _).bind fun _ => makes_askAll _

/-- A plan that was carried out asked for everything in it. -/
theorem requests_of_perform {σ : Type} {service : Service σ} {s s' : σ} {heard : List Exchange}
    (h : Dialogue service p.perform s heard (.ok ()) s') : heard.map Sigma.fst = p.requests :=
  makes_perform.requests_eq h (stopsOn_perform.granted h) fun _ _ => trivial

end Perform

/-! ## Empty plans -/

/-- A plan without requests does nothing. -/
theorem perform_of_requests {p : SyncPlan} (h : p.requests = []) : p.perform = pure () := by
  obtain ⟨hremovals, hadditions⟩ := List.append_eq_nil_iff.1 h
  rw [perform, hremovals, hadditions]
  rfl

theorem when_eq_nil_iff {needed : Bool} {r : Request} : when needed r = [] ↔ needed = false := by
  cases needed <;> simp [when]

/-- Nothing is asked for exactly if there is nothing to change. -/
theorem requests_tags_eq_nil_iff {target : TagTarget} {desired observed : List Tag} :
    (SyncPlan.tags target desired observed).requests = []
      ↔ (Tags.change desired observed).isEmpty = true := by
  rw [requests, List.append_eq_nil_iff, SyncPlan.tags, when_eq_nil_iff, when_eq_nil_iff,
    Bool.not_eq_false', Bool.not_eq_false', Change.isEmpty, Bool.and_eq_true, and_comm]

theorem requests_permissions_eq_nil_iff {arn : String} {desired observed : List String} :
    (SyncPlan.permissions arn desired observed).requests = []
      ↔ NameSet.ofNames desired = NameSet.ofNames observed := by
  rw [requests, List.append_eq_nil_iff, SyncPlan.permissions, List.map_eq_nil_iff,
    List.map_eq_nil_iff, and_comm, NameSet.change_eq_nil_iff]

theorem requests_associations_eq_nil_iff {arn : String} {desired observed : ShareSpec} :
    (SyncPlan.associations arn desired observed).requests = []
      ↔ NameSet.ofNames desired.principals = NameSet.ofNames observed.principals ∧
        NameSet.ofNames desired.resourceArns = NameSet.ofNames observed.resourceArns ∧
        NameSet.ofNames desired.sources = NameSet.ofNames observed.sources := by
  rw [requests, List.append_eq_nil_iff, SyncPlan.associations, when_eq_nil_iff, when_eq_nil_iff,
    Bool.not_eq_false', Bool.not_eq_false', ← NameSet.change_eq_nil_iff, ← NameSet.change_eq_nil_iff,
    ← NameSet.change_eq_nil_iff]
  simp only [AssociationBatch.isEmpty, associationsToRemove, associationsToAdd, Bool.and_eq_true,
    List.isEmpty_iff]
  tauto

theorem requests_tags {desired observed : List Tag}
    (h : (Tags.change desired observed).isEmpty = true) (target : TagTarget) :
    (SyncPlan.tags target desired observed).requests = [] := requests_tags_eq_nil_iff.2 h

theorem requests_associations {desired observed : ShareSpec}
    (hprincipals : NameSet.ofNames desired.principals = NameSet.ofNames observed.principals)
    (hresources : NameSet.ofNames desired.resourceArns = NameSet.ofNames observed.resourceArns)
    (hsources : NameSet.ofNames desired.sources = NameSet.ofNames observed.sources) (arn : String) :
    (SyncPlan.associations arn desired observed).requests = [] :=
  requests_associations_eq_nil_iff.2 ⟨hprincipals, hresources, hsources⟩

theorem requests_permissions {desired observed : List String}
    (h : NameSet.ofNames desired = NameSet.ofNames observed) (arn : String) :
    (SyncPlan.permissions arn desired observed).requests = [] := requests_permissions_eq_nil_iff.2 h

/-! ## Requests of plans -/

theorem mem_when {needed : Bool} {q r : Request} (h : q ∈ when needed r) : q = r := by
  cases needed with
  | true => exact List.mem_singleton.1 h
  | false => cases h

/-- A plan asks for updates. -/
theorem isUpdate_of_mem_tags {target : TagTarget} {desired observed : List Tag} {q : Request}
    (h : q ∈ (SyncPlan.tags target desired observed).requests) : q.operation.purpose = .update := by
  rcases List.mem_append.1 h with h | h <;> exact mem_when h ▸ rfl

theorem isUpdate_of_mem_associations {arn : String} {desired observed : ShareSpec} {q : Request}
    (h : q ∈ (SyncPlan.associations arn desired observed).requests) :
    q.operation.purpose = .update := by
  rcases List.mem_append.1 h with h | h <;> exact mem_when h ▸ rfl

theorem isUpdate_of_mem_permissions {arn : String} {desired observed : List String} {q : Request}
    (h : q ∈ (SyncPlan.permissions arn desired observed).requests) :
    q.operation.purpose = .update := by
  rcases List.mem_append.1 h with h | h <;> obtain ⟨name, -, rfl⟩ := List.mem_map.1 h <;> rfl

/-! ## What is asked for -/

/-- The identifiers of one list that another one lacks: ascending, and each once. -/
def lacking (a b : List String) : List String := (NameSet.ofNames (a.filter fun x => x ∉ b)).toList

theorem mem_lacking {a b : List String} {x : String} : x ∈ lacking a b ↔ x ∈ a ∧ x ∉ b := by
  simp [lacking]

theorem toAdd_eq_lacking (desired observed : List String) :
    (NameSet.change desired observed).toAdd.toList = lacking desired observed :=
  congrArg Roster.toList (NameSet.ext_mem fun x => by simp)

theorem toRemove_eq_lacking (desired observed : List String) :
    (NameSet.change desired observed).toRemove.toList = lacking observed desired :=
  congrArg Roster.toList (NameSet.ext_mem fun x => by simp)

/-- The keys of the user's tags of an entity that are not desired, ascending. -/
def superfluousKeys (desired tags : List Tag) : List String :=
  (Tags.ofTags tags).withoutSystem.keys.filter fun k => !(Tags.ofTags desired).contains k

/-- The desired tags that are not among the user's tags of an entity, ascending. -/
def missingTags (desired tags : List Tag) : List Tag :=
  (Tags.ofTags desired).toList.filter fun t =>
    (Tags.ofTags tags).withoutSystem.find? t.key ≠ some t

theorem keys_toRemove_eq (desired tags : List Tag) :
    (Tags.change desired (Tags.visible tags)).toRemove.keys = superfluousKeys desired tags := by
  have hvisible : ∀ t ∈ (Tags.ofTags tags).withoutSystem.toList, Tag.isSystem t.key = false :=
    fun t ht => by simpa [Tags.withoutSystem] using (List.mem_filter.1 ht).2
  rw [superfluousKeys, Roster.keys, Roster.keys, List.filter_map, Tags.change, Roster.toList_filter,
    Tags.withReserved_visible, Tags.ofTags_visible]
  refine congrArg (List.map Tag.key) (List.filter_congr fun t ht => ?_)
  simp [hvisible t ht]

theorem toAdd_eq_missingTags (desired tags : List Tag) :
    (Tags.change desired (Tags.visible tags)).toAdd.toList = missingTags desired tags := by
  rw [missingTags, Tags.change, Roster.toList_filter, Tags.withReserved_visible,
    Tags.ofTags_visible]

/-- What is asked for the tags of an entity. -/
def tagRequests (target : TagTarget) (desired tags : List Tag) : List Request :=
  when (!(superfluousKeys desired tags).isEmpty) (.untag target (superfluousKeys desired tags))
    ++ when (!(missingTags desired tags).isEmpty) (.tag target (missingTags desired tags))

theorem requests_tags_eq (target : TagTarget) (desired tags : List Tag) :
    (SyncPlan.tags target desired (Tags.visible tags)).requests = tagRequests target desired tags := by
  rw [requests, SyncPlan.tags, tagRequests, ← keys_toRemove_eq, ← toAdd_eq_missingTags]
  simp [Roster.isEmpty, Roster.keys]

/-! ## Tags -/

/-- The plan for tags, of an entity of whichever kind: `f` is the account with the entity under other
tags. -/
theorem course_tags {a : Account} {target : TagTarget} {tags : List Tag} {f : List Tag → Account}
    (hself : f tags = a)
    (hchange : ∀ l g, (f l).changeTags target.arn g = f (g l)) (desired : List Tag) :
    Course serve (SyncPlan.tags target desired (Tags.visible tags)).perform a
      (SyncPlan.tags target desired (Tags.visible tags)).requests (.ok ())
      (f (Tags.settle desired tags)) := by
  rw [Tags.settle]
  refine course_perform
    (b := f (dropTags tags (Tags.change desired (Tags.visible tags)).toRemove.keys))
    (course_when (fun _ => ⟨(), ?_⟩) fun h => ?_) (course_when (fun _ => ⟨(), ?_⟩) fun h => ?_)
  · rw [← hchange tags (dropTags · (Tags.change desired (Tags.visible tags)).toRemove.keys), hself]
    rfl
  · -- nothing to remove: no request is made, and dropping no keys is no change
    have hkept : dropTags tags [] = tags := List.filter_eq_self.2 fun _ _ => rfl
    rw [keys_eq_nil_of_not h, hkept, hself]
  · rw [← hchange _ (putTags · (Tags.change desired (Tags.visible tags)).toAdd.toList)]
    rfl
  · rw [toList_eq_nil_of_not h]
    rfl

theorem course_shareTags {a : Account} {arn : String} {s : ShareRecord}
    (h : a.shares.find? arn = some s) (desired : List Tag) :
    Course serve (SyncPlan.tags (.share arn) desired (Tags.visible s.detail.tags)).perform a
      (SyncPlan.tags (.share arn) desired (Tags.visible s.detail.tags)).requests (.ok ())
      (a.putShare (s.withTags (Tags.settle desired s.detail.tags))) := by
  refine course_tags (f := fun l => a.putShare (s.withTags l)) (putShare_self h) ?_
    desired
  intro l f
  have hkey : s.arn = arn := Roster.key_of_find? h
  have hfound : (a.putShare (s.withTags l)).shares.find? arn = some (s.withTags l) :=
    putShare_find? hkey
  show (a.putShare (s.withTags l)).changeTags arn f = _
  rw [changeTags_share hfound, putShare_putShare (by rfl)]
  rfl

theorem course_permissionTags {a : Account} {arn : String} {p : PermissionRecord}
    (hshare : a.shares.find? arn = none) (h : a.permissions.find? arn = some p)
    (desired : List Tag) :
    Course serve (SyncPlan.tags (.resource arn) desired (Tags.visible p.detail.tags)).perform a
      (SyncPlan.tags (.resource arn) desired (Tags.visible p.detail.tags)).requests (.ok ())
      (a.putPermission (p.withTags (Tags.settle desired p.detail.tags))) := by
  refine course_tags (f := fun l => a.putPermission (p.withTags l)) (putPermission_self h) ?_
    desired
  intro l f
  have hkey : p.arn = arn := Roster.key_of_find? h
  have hfound : (a.putPermission (p.withTags l)).permissions.find? arn = some (p.withTags l) :=
    putPermission_find? hkey
  have hshare' : (a.putPermission (p.withTags l)).shares.find? arn = none := hshare
  show (a.putPermission (p.withTags l)).changeTags arn f = _
  rw [changeTags_permission hshare' hfound, putPermission_putPermission (by rfl)]
  rfl

/-! ## Associations -/

/-- The share after its associations went through the change from what is observed to what is
desired. -/
def trackAssociations (desired observed : ShareSpec) (s : ShareRecord) : ShareRecord :=
  { s with
    principals := track desired.principals observed.principals s.principals
    resources := track desired.resourceArns observed.resourceArns s.resources
    sources := track desired.sources observed.sources s.sources }

theorem course_associations {a : Account} {arn : String} {s : ShareRecord}
    (h : a.shares.find? arn = some s) (desired observed : ShareSpec) :
    Course serve (SyncPlan.associations arn desired observed).perform a
      (SyncPlan.associations arn desired observed).requests (.ok ())
      (a.putShare (trackAssociations desired observed s)) := by
  have hkey : s.arn = arn := Roster.key_of_find? h
  have hnil : ∀ {b : AssociationBatch}, (!b.isEmpty) = false →
      b.principals = [] ∧ b.resourceArns = [] ∧ b.sources = [] := by
    intro b hb
    simpa [AssociationBatch.isEmpty, and_assoc] using hb
  have hfound : (a.putShare (disassociate (associationsToRemove desired observed) s)).shares.find? arn
      = some (disassociate (associationsToRemove desired observed) s) :=
    putShare_find? hkey
  have htrack : trackAssociations desired observed s
      = associate (associationsToAdd desired observed)
          (disassociate (associationsToRemove desired observed) s) := rfl
  refine course_perform
    (b := a.putShare (disassociate (associationsToRemove desired observed) s))
    (course_when (fun _ => ⟨(), changeShare_of_find? h _ _⟩) fun he => ?_)
    (course_when (fun _ => ⟨(), ?_⟩) fun he => ?_)
  · obtain ⟨hp, hr, hs⟩ := hnil he
    rw [disassociate, hp, hr, hs, dropNames_nil, dropNames_nil, dropNames_nil, putShare_self h]
  · rw [htrack]
    exact (changeShare_of_find? hfound _ _).trans (by rw [putShare_putShare (by rfl)])
  · obtain ⟨hp, hr, hs⟩ := hnil he
    rw [htrack, associate, hp, hr, hs, addNames_nil, addNames_nil, addNames_nil]

/-! ## Permissions -/

/-- The same kind of request for several names, each of which moves the permissions on. -/
theorem course_names (label : CallLabel) {a : Account} {arn : String} {s : ShareRecord}
    {q : String → Request} {f : NameSet → String → NameSet} (h : a.shares.find? arn = some s)
    (hserve : ∀ (a : Account) (t : ShareRecord) n, a.shares.find? arn = some t →
      ∃ v, serve (q n) a = (.ok v, a.putShare { t with permissions := f t.permissions n }))
    (names : List String) :
    Course serve (askAll label (names.map q)) a (names.map q) (.ok ())
      (a.putShare { s with permissions := names.foldl f s.permissions }) := by
  induction names generalizing a s with
  | nil =>
    have : a.putShare s = a := putShare_self h
    rw [List.foldl_nil, this]
    exact .done ()
  | cons n rest ih =>
    obtain ⟨v, hv⟩ := hserve a s n h
    have hkey : s.arn = arn := Roster.key_of_find? h
    have hfound : (a.putShare { s with permissions := f s.permissions n }).shares.find? arn
        = some { s with permissions := f s.permissions n } :=
      putShare_find? hkey
    have hrest := ih hfound
    rw [putShare_putShare (by rfl)] at hrest
    exact Course.askAll_cons hv hrest

theorem foldl_dropNames (s : NameSet) (names : List String) :
    names.foldl (fun s n => dropNames s [n]) s = dropNames s names := by
  induction names generalizing s with
  | nil => exact (dropNames_nil s).symm
  | cons n rest ih =>
    rw [List.foldl_cons, ih]
    exact NameSet.ext_mem fun x => by simp [and_assoc]

theorem foldl_addNames (s : NameSet) (names : List String) :
    names.foldl (fun s n => addNames s [n]) s = addNames s names := by
  induction names generalizing s with
  | nil => rfl
  | cons n rest ih =>
    rw [List.foldl_cons, ih]
    exact NameSet.ext_mem fun x => by simp only [mem_addNames, List.mem_cons]; tauto

/-- The share after its permissions went through the change from what is observed to what is
desired. -/
def trackPermissions (desired observed : List String) (s : ShareRecord) : ShareRecord :=
  { s with permissions := track desired observed s.permissions }

theorem course_permissions {a : Account} {arn : String} {s : ShareRecord}
    (h : a.shares.find? arn = some s) (desired observed : List String) :
    Course serve (SyncPlan.permissions arn desired observed).perform a
      (SyncPlan.permissions arn desired observed).requests (.ok ())
      (a.putShare (trackPermissions desired observed s)) := by
  have hkey : s.arn = arn := Roster.key_of_find? h
  have hremove := course_names (permissions arn desired observed).removedAs
    (q := .detachPermission arn) (f := fun s n => dropNames s [n]) h
    (fun a t n ht => ⟨(), changeShare_of_find? ht _ _⟩)
    (NameSet.change desired observed).toRemove.toList
  rw [foldl_dropNames] at hremove
  refine course_perform hremove ?_
  have hfound : (a.putShare { s with
      permissions := dropNames s.permissions (NameSet.change desired observed).toRemove.toList
        }).shares.find? arn = some { s with
          permissions :=
            dropNames s.permissions (NameSet.change desired observed).toRemove.toList } :=
    putShare_find? hkey
  have hadd := course_names (permissions arn desired observed).addedAs
    (q := .attachPermission arn) (f := fun s n => addNames s [n]) hfound
    (fun a t n ht => ⟨(), changeShare_of_find? ht _ _⟩)
    (NameSet.change desired observed).toAdd.toList
  rw [foldl_addNames, putShare_putShare (by rfl)] at hadd
  exact hadd

end ShareKeeper.SyncPlan
