import ShareKeeper.Proofs.Codec
import ShareKeeper.Proofs.Continuity
import ShareKeeper.Proofs.Share.Convergence

/-!
# What a patch of the status stores

The status is stored by a merge patch that names every field of it, with null for the ones that are not
set. Merged into whatever status there was, it leaves exactly the new one: values and lists replace what
was there, and null clears it (`decodeStatus_mergePatch`).

The identity of the entity is the exception. It is an object of its own, it is written without what is
not set, and so it is merged member by member: what the patch leaves out survives. No harm is done,
because no pass gives up what was known of the entity (`Status.Covers`), and the object that the cluster
has after the patch is the one that was to be stored (`decode_mergePatch_statusPatch`).
-/

namespace ShareKeeper

namespace Json

/-! ## Members after a merge -/

/-- What is under a name, null if there is nothing. -/
def valueAt (name : String) (ms : List (String × Json)) : Json := (lookup name ms).getD .null

theorem lookup_of_valueAt {name : String} {v : Json} {ms : List (String × Json)}
    (h : valueAt name ms = v) (hv : v ≠ .null) : lookup name ms = some v := by
  rw [valueAt] at h
  cases hlookup : lookup name ms with
  | none =>
    rw [hlookup] at h
    exact absurd h.symm hv
  | some w =>
    rw [hlookup] at h
    exact congrArg some h

theorem lookup_eq_none_iff {name : String} {ms : List (String × Json)} :
    lookup name ms = none ↔ name ∉ ms.map Prod.fst := by
  induction ms with
  | nil => simp [lookup]
  | cons m rest ih =>
    obtain ⟨n, v⟩ := m
    by_cases h : n = name
    · simp [lookup, h]
    · simp [lookup, h, ih, Ne.symm h]

theorem lookup_dropMember_self (name : String) (ms : List (String × Json)) :
    lookup name (dropMember name ms) = none := by
  rw [lookup_eq_none_iff]
  simp [dropMember]

/-- Every member that a patch names is patched. -/
theorem valueAt_mergeMembers {name : String} {v : Json} {patch : List (String × Json)}
    (hnames : (patch.map Prod.fst).Nodup) (h : lookup name patch = some v)
    (target : List (String × Json)) :
    valueAt name (mergeMembers target patch) = mergePatch (valueAt name target) v := by
  induction patch generalizing target with
  | nil => cases h
  | cons m rest ih =>
    obtain ⟨n, w⟩ := m
    obtain ⟨hn, hrest⟩ := List.nodup_cons.1 hnames
    by_cases hname : n = name
    · -- no later member of the patch has this name
      subst hname
      rw [lookup, if_pos rfl] at h
      cases h
      by_cases hv : v = .null
      · rw [hv, mergeMembers, valueAt, lookup_mergeMembers_of_not_mem hn, lookup_dropMember_self,
          mergePatch]
        rfl
      · rw [valueAt, lookup_mergeMembers_cons hv hn]
        rfl
    · rw [lookup, if_neg hname] at h
      have hne : name ≠ n := Ne.symm hname
      by_cases hw : w = .null
      · rw [hw, mergeMembers, ih hrest h, valueAt, lookup_dropMember hne, valueAt]
      · rw [mergeMembers_cons hw, ih hrest h, valueAt, lookup_insertByKey, if_neg hname, valueAt]

/-- A patch that is an object leaves an object. -/
theorem mergePatch_object_ne_null (target : Json) (patch : List (String × Json)) :
    target.mergePatch (.object patch) ≠ .null := by
  rw [mergePatch]
  exact fun h => by cases h

/-- A value that takes the place of whatever it is merged into. -/
def Replaces (v : Json) : Prop := ∀ target : Json, target.mergePatch v = v

theorem replaces_of_ne {v : Json} (h : ∀ ms, v ≠ .object ms) : v.Replaces := by
  intro target
  cases v with
  | object ms => exact absurd rfl (h ms)
  | _ => rw [mergePatch]

@[simp] theorem replaces_array (items : List Json) : (array items).Replaces :=
  replaces_of_ne fun _ h => by cases h

theorem replaces_ofOption {α : Type} {f : α → Json} (h : ∀ a ms, f a ≠ .object ms) (o : Option α) :
    (ofOption f o).Replaces := by
  refine replaces_of_ne fun ms => ?_
  cases o with
  | none => exact fun h => by cases h
  | some a => exact h a ms

@[simp] theorem replaces_text (o : Option String) : (ofText? o).Replaces :=
  replaces_ofOption (fun _ _ h => by cases h) o

@[simp] theorem replaces_bool (o : Option Bool) : (ofBool? o).Replaces :=
  replaces_ofOption (fun _ _ h => by cases h) o

@[simp] theorem replaces_instant (o : Option Instant) : (ofOption ofTime o).Replaces :=
  replaces_ofOption (fun _ _ h => by cases h) o

theorem mem_of_lookup {name : String} {v : Json} {ms : List (String × Json)}
    (h : lookup name ms = some v) : (name, v) ∈ ms := by
  induction ms with
  | nil => cases h
  | cons m rest ih =>
    obtain ⟨n, w⟩ := m
    rw [lookup] at h
    split at h
    · next hn =>
      cases h
      rw [hn]
      exact List.mem_cons_self
    · exact List.mem_cons_of_mem _ (ih h)

end Json

open Json

/-! ## The identity of the entity -/

/-- Whether an identity has all that another one has, if there is another one. -/
structure Identity.Covers (i : Identity) (o : Option Identity) : Prop where
  arn : (o.bind Identity.arn).isSome = true → i.arn.isSome = true
  owner : (o.bind Identity.ownerAccountId).isSome = true → i.ownerAccountId.isSome = true
  region : (o.bind Identity.region).isSome = true → i.region.isSome = true

theorem Identity.nodup_encode (i : Identity) : (i.encode.members.map Prod.fst).Nodup := by
  obtain ⟨arn, owner, region⟩ := i
  cases arn <;> cases owner <;> cases region <;> simp [encode, may]

/-- One text of an identity, merged into one that it covers. -/
theorem Identity.optional_mergeMembers {i : Identity} {o : Option Identity} (name : String)
    {get : Identity → Option String}
    (hlookup : ∀ j : Identity, lookup name j.encode.members = (get j).map .string)
    (hkept : (o.bind get).isSome = true → (get i).isSome = true) :
    optional name asText (mergeMembers (ofOption encode o).members i.encode.members)
      = .ok (get i) := by
  have hpatch := hlookup i
  cases hget : get i with
  | some x =>
    rw [hget] at hpatch
    have hmerged := valueAt_mergeMembers i.nodup_encode hpatch (ofOption encode o).members
    rw [valueAt, mergePatch] at hmerged
    rw [optional_eq, hmerged]
    rfl
  | none =>
    -- the patch leaves the text out, so what was there survives: nothing
    rw [hget] at hpatch hkept
    have hnothing : lookup name (ofOption encode o).members = none := by
      cases o with
      | none => rfl
      | some j =>
        cases hj : get j with
        | none => exact (hlookup j).trans (congrArg (Option.map Json.string) hj)
        | some x => exact absurd (hkept (congrArg Option.isSome hj)) (by simp)
    rw [optional_eq, lookup_mergeMembers_of_not_mem (lookup_eq_none_iff.1 hpatch), hnothing]
    rfl

/-- An identity, merged into one that it covers. -/
theorem Identity.decode_mergePatch {i : Identity} {o : Option Identity} (h : i.Covers o) :
    decode ((ofOption encode o).mergePatch i.encode) = .ok i := by
  have harn := optional_mergeMembers "arn" (fun j => by simp [encode]) h.arn
  have howner := optional_mergeMembers "ownerAccountID" (fun j => by simp [encode]) h.owner
  have hregion := optional_mergeMembers "region" (fun j => by simp [encode]) h.region
  rw [show i.encode = .object i.encode.members from rfl, mergePatch]
  simp only [decode, asStructure, harn, howner, hregion, ok_bind]
  rfl

/-! ## The status -/

namespace Json

variable {α : Type} {read : Json → Except DecodeFault α} {f : α → Json} {name : String}
  {ms : List (String × Json)}

theorem optional_of_valueAt {o : Option α} (h : valueAt name ms = ofOption f o)
    (hread : ∀ a, ReadsBack read f a) : optional name read ms = .ok o := by
  rw [optional_eq]
  rw [valueAt] at h
  rw [h, asOption_ofOption fun a _ => hread a]

theorem field_of_valueAt {a : α} (h : valueAt name ms = f a) (hread : ReadsBack read f a) :
    field name read ms = .ok (some a) :=
  field_of_lookup (lookup_of_valueAt h hread.1) hread.2

end Json

theorem readsBack_conditions (c : Conditions) :
    ReadsBack Conditions.decode Conditions.encode c :=
  ⟨by simp [Conditions.encode], c.decode_encode⟩

/-- The members of a status stand as they were written, all but the identity. -/
def Shows (ms written : List (String × Json)) : Prop :=
  ∀ name v, lookup name written = some v → name ≠ "ackResourceMetadata" → valueAt name ms = v

namespace Shows

variable {ms written : List (String × Json)} (h : Shows ms written) (name : String)
include h

theorem text (o : Option String) (hw : lookup name written = some (ofText? o))
    (hname : name ≠ "ackResourceMetadata") : optional name asText ms = .ok o :=
  optional_of_valueAt (h name _ hw hname) readsBack_text

theorem bool (o : Option Bool) (hw : lookup name written = some (ofBool? o))
    (hname : name ≠ "ackResourceMetadata") : optional name asBool ms = .ok o :=
  optional_of_valueAt (h name _ hw hname) readsBack_bool

theorem instant (o : Option Instant) (hw : lookup name written = some (ofOption ofTime o))
    (hname : name ≠ "ackResourceMetadata") : optional name asInstant ms = .ok o :=
  optional_of_valueAt (h name _ hw hname) readsBack_instant

theorem texts (l : List String) (hw : lookup name written = some (ofStrings l))
    (hname : name ≠ "ackResourceMetadata") : field name (asList asText) ms = .ok (some l) :=
  field_of_valueAt (h name _ hw hname) (f := ofStrings) (readsBack_list fun _ _ => rfl)

theorem conditions (c : Conditions) (hw : lookup name written = some c.encode)
    (hname : name ≠ "ackResourceMetadata") : field name Conditions.decode ms = .ok (some c) :=
  field_of_valueAt (h name _ hw hname) (readsBack_conditions c)

end Shows

namespace Status

theorem decodePermission_of_shows {s : Status PermissionFacts} {ms : List (String × Json)}
    (hidentity : optional "ackResourceMetadata" Identity.decode ms = .ok s.identity)
    (hshows : Shows ms s.encodePermission.members) : decodePermission (.object ms) = .ok s := by
  have hconditions := hshows.conditions "conditions" s.conditions rfl (by decide)
  have hcreation := hshows.instant "creationTime" s.creationTime rfl (by decide)
  have hdefault := hshows.bool "defaultVersion" s.facts.defaultVersion rfl (by decide)
  have hfeatures := hshows.text "featureSet" s.featureSet rfl (by decide)
  have hresource := hshows.bool "isResourceTypeDefault" s.facts.isResourceTypeDefault rfl
    (by decide)
  have hupdated := hshows.instant "lastUpdatedTime" s.lastUpdatedTime rfl (by decide)
  have htype := hshows.text "permissionType" s.facts.permissionType rfl (by decide)
  have hstate := hshows.text "status" s.state rfl (by decide)
  have hversion := hshows.text "version" s.facts.version rfl (by decide)
  simp only [decodePermission, asStructure, hidentity, hconditions, hcreation, hdefault, hfeatures,
    hresource, hupdated, htype, hstate, hversion, ok_bind, Option.getD_some]
  rfl

theorem decodeShare_of_shows {s : Status ShareFacts} {ms : List (String × Json)}
    (hidentity : optional "ackResourceMetadata" Identity.decode ms = .ok s.identity)
    (hshows : Shows ms s.encodeShare.members) : decodeShare (.object ms) = .ok s := by
  have hsources := hshows.texts "associatedSources" s.facts.associatedSources rfl (by decide)
  have hconditions := hshows.conditions "conditions" s.conditions rfl (by decide)
  have hcreation := hshows.instant "creationTime" s.creationTime rfl (by decide)
  have hfeatures := hshows.text "featureSet" s.featureSet rfl (by decide)
  have hupdated := hshows.instant "lastUpdatedTime" s.lastUpdatedTime rfl (by decide)
  have howner := hshows.text "owningAccountID" s.facts.owningAccountId rfl (by decide)
  have hstate := hshows.text "status" s.state rfl (by decide)
  have hmessage := hshows.text "statusMessage" s.facts.statusMessage rfl (by decide)
  simp only [decodeShare, asStructure, hidentity, hsources, hconditions, hcreation, hfeatures,
    hupdated, howner, hstate, hmessage, ok_bind, Option.getD_some]
  rfl

/-- Whether a status says all of the entity that another one says, if there is another one. -/
def Covers {F : Type} (s : Status F) (o : Option (Status F)) : Prop :=
  ∀ i ∈ s.identity, i.Covers (o.bind Status.identity)

end Status

namespace Kind

variable {k : Kind}

theorem decodeStatus_of_shows {s : Status k.Facts} {ms : List (String × Json)}
    (hidentity : optional "ackResourceMetadata" Identity.decode ms = .ok s.identity)
    (hshows : Shows ms (k.encodeStatus s).members) : k.decodeStatus (.object ms) = .ok s := by
  cases k with
  | permission => exact Status.decodePermission_of_shows hidentity hshows
  | share => exact Status.decodeShare_of_shows hidentity hshows

theorem encodeStatus_eq (s : Status k.Facts) :
    k.encodeStatus s = .object (k.encodeStatus s).members := by
  cases k <;> rfl

theorem nodup_encodeStatus (s : Status k.Facts) :
    ((k.encodeStatus s).members.map Prod.fst).Nodup := by
  cases k <;> simp [encodeStatus, Status.encodePermission, Status.encodeShare]

theorem lookup_identity (s : Status k.Facts) :
    lookup "ackResourceMetadata" (k.encodeStatus s).members
      = some (ofOption Identity.encode s.identity) := by
  cases k <;> rfl

/-- Every member of a status but the identity takes the place of what was there. -/
theorem replaces_of_lookup {s : Status k.Facts} {name : String} {v : Json}
    (h : lookup name (k.encodeStatus s).members = some v) (hname : name ≠ "ackResourceMetadata") :
    v.Replaces := by
  have hall : ∀ m ∈ (k.encodeStatus s).members, m.1 ≠ "ackResourceMetadata" → m.2.Replaces := by
    cases k <;> simp [encodeStatus, Status.encodePermission, Status.encodeShare,
      Conditions.encode, ofStrings]
  exact hall _ (mem_of_lookup h) hname

/-- **A status, merged into one that it covers,** is all that is left. -/
theorem decodeStatus_mergePatch {s : Status k.Facts} {o : Option (Status k.Facts)}
    (h : s.Covers o) : k.decodeStatus ((ofOption k.encodeStatus o).mergePatch (k.encodeStatus s))
      = .ok s := by
  have hnames := nodup_encodeStatus s
  have htarget : valueAt "ackResourceMetadata" (ofOption k.encodeStatus o).members
      = ofOption Identity.encode (o.bind Status.identity) := by
    cases o with
    | none => rfl
    | some t => exact congrArg (Option.getD · .null) (lookup_identity t)
  rw [encodeStatus_eq s, mergePatch]
  refine decodeStatus_of_shows ?_ fun name v hv hname => ?_
  · -- the identity alone is merged member by member
    rw [optional_eq]
    show asOption Identity.decode (valueAt _ _) = _
    rw [valueAt_mergeMembers hnames (lookup_identity s), htarget]
    cases hi : s.identity with
    | none =>
      rw [ofOption, mergePatch]
      rfl
    | some i =>
      have hne : mergePatch (ofOption Identity.encode (o.bind Status.identity)) i.encode ≠ .null :=
        mergePatch_object_ne_null _ _
      rw [ofOption, asOption_of_ne hne, Identity.decode_mergePatch (h i hi)]
      rfl
  · rw [valueAt_mergeMembers hnames hv]
    exact replaces_of_lookup hv hname _

end Kind

/-! ## The object -/

namespace Resource

variable {k : Kind} {r : Resource k} {j : Json}

/-- The metadata of an object that was read were read. -/
theorem exists_metadata_of_decode (h : decode k j = .ok r) :
    ∃ j, Metadata.decode j = .ok r.metadata := by
  cases j with
  | object ms =>
    obtain ⟨o, ho, h⟩ := exists_of_bind_ok h
    iterate 2 obtain ⟨_, -, h⟩ := exists_of_bind_ok h
    obtain ⟨metadata, hrequire, h⟩ := exists_of_bind_ok h
    obtain ⟨_, -, h⟩ := exists_of_bind_ok h
    cases h
    cases o with
    | none => cases hrequire
    | some m =>
      cases hrequire
      exact exists_of_field ho
  | array items =>
    obtain ⟨a, ha, h⟩ := exists_of_bind_ok h
    obtain ⟨_, -, h⟩ := exists_of_bind_ok h
    cases h
    obtain ⟨m, hm, ha⟩ := exists_of_bind_ok ha
    iterate 2 obtain ⟨_, -, ha⟩ := exists_of_bind_ok ha
    cases ha
    rw [Elements.get] at hm
    split at hm
    · next j _ => exact ⟨j, hm⟩
    · cases hm
  | _ => cases h

theorem members_encode (r : Resource k) : r.encode = .object r.encode.members := rfl

/-- An object is read from its three parts. -/
theorem decode_of_parts {ms : List (String × Json)} {metadata : Metadata} {spec : k.Spec}
    {status : Option (Status k.Facts)}
    (hmetadata : field "metadata" Metadata.decode ms = .ok (some metadata))
    (hspec : field "spec" k.decodeSpec ms = .ok (some spec))
    (hstatus : optional "status" k.decodeStatus ms = .ok status) :
    decode k (.object ms) = .ok ⟨metadata, spec, status⟩ := by
  simp only [decode, asStructure, hmetadata, hspec, hstatus, ok_bind, require]
  rfl

/-- **A patch of the status, merged into an object that was read,** changes the status and nothing
else. -/
theorem decode_mergePatch (hr : decode k j = .ok r) {s : Status k.Facts} (hs : s.Covers r.status) :
    decode k (r.encode.mergePatch (.object [("status", k.encodeStatus s)]))
      = .ok { r with status := some s } := by
  obtain ⟨j', hmetadata⟩ := exists_metadata_of_decode hr
  have hother : ∀ name, name ≠ "status" →
      lookup name (mergeMembers r.encode.members [("status", k.encodeStatus s)])
        = lookup name r.encode.members :=
    fun name h => lookup_mergeMembers_of_not_mem (by simpa using h) _
  have hreads : field "metadata" Metadata.decode
      (mergeMembers r.encode.members [("status", k.encodeStatus s)]) = .ok (some r.metadata) := by
    have hlookup : lookup "metadata" r.encode.members = some r.metadata.encode := rfl
    exact field_of_lookup ((hother _ (by decide)).trans hlookup)
      (Metadata.decode_encode (Metadata.readable_of_decode hmetadata))
  have hspec : field "spec" k.decodeSpec
      (mergeMembers r.encode.members [("status", k.encodeStatus s)]) = .ok (some r.spec) := by
    have hlookup : lookup "spec" r.encode.members = some (k.encodeSpec r.spec) := by
      simp [encode]
    exact field_of_lookup ((hother _ (by decide)).trans hlookup) (Kind.decodeSpec_encodeSpec r.spec)
  have hstatus : optional "status" k.decodeStatus
      (mergeMembers r.encode.members [("status", k.encodeStatus s)]) = .ok (some s) := by
    have htarget : valueAt "status" r.encode.members = ofOption k.encodeStatus r.status := by
      cases h : r.status <;> simp [valueAt, encode, h, ofOption]
    have hpatch : lookup "status" [("status", k.encodeStatus s)] = some (k.encodeStatus s) := rfl
    have hne : mergePatch (ofOption k.encodeStatus r.status) (k.encodeStatus s) ≠ .null := by
      rw [Kind.encodeStatus_eq s]
      exact mergePatch_object_ne_null _ _
    rw [optional_eq]
    show asOption k.decodeStatus (valueAt _ _) = _
    rw [valueAt_mergeMembers (by simp) hpatch, htarget, asOption_of_ne hne,
      Kind.decodeStatus_mergePatch hs]
    rfl
  rw [members_encode, mergePatch]
  exact decode_of_parts hreads hspec hstatus

end Resource

/-! ## After a pass -/

/-- The identity that is known before and after a pass. -/
theorem Identity.covers_withRegion {F : Type} {s t : Status F} (h : s.Continues t)
    (region : Option String) :
    Identity.Covers { t.identity.getD .empty with
      region := (t.identity.getD .empty).region.or region } s.identity := by
  have hgetD : ∀ get : Identity → Option String, get .empty = none →
      get (t.identity.getD .empty) = t.identity.bind get := by
    intro get hempty
    cases t.identity with
    | none => exact hempty
    | some i => rfl
  refine ⟨fun harn => ?_, fun howner => ?_, fun hregion => ?_⟩
  · show (t.identity.getD .empty).arn.isSome = true
    rw [hgetD Identity.arn rfl]
    exact h.arn harn
  · show (t.identity.getD .empty).ownerAccountId.isSome = true
    obtain ⟨x, hx⟩ := Option.isSome_iff_exists.1 howner
    rw [hgetD Identity.ownerAccountId rfl, h.owner x hx]
    rfl
  · show ((t.identity.getD .empty).region.or region).isSome = true
    obtain ⟨x, hx⟩ := Option.isSome_iff_exists.1 hregion
    rw [hgetD Identity.region rfl, h.region x hx]
    rfl

theorem Identity.covers_self (i : Identity) : i.Covers (some i) := ⟨id, id, id⟩

section Passes

variable {k : Kind} {r R : Resource k}

/-- What is to be stored of an object: the resource that a pass handed back, whatever the service
answered, or the record of any failure. -/
inductive ToStore (r : Resource k) : Resource k → Prop
  | outcome {σ : Type} {service : Service σ} {s s' : σ} {region : Option String} {now : Instant}
      {out : Reconciled k}
      (h : Pass.run service (reconcile k.manager region now r) s = (.ok out, s')) :
      ToStore r out.resource
  | failure (now : Instant) (e : Failure) : ToStore r (recordFailure now r e)

theorem identity_statusD (r : Resource k) :
    r.statusD.identity = r.status.bind Status.identity := by
  rw [Resource.statusD]
  cases r.status with
  | none => cases k <;> rfl
  | some s => rfl

/-- **What is to be stored gives up nothing that was known of the entity.** -/
theorem ToStore.exists_covers (h : ToStore r R) : ∃ s, R.status = some s ∧ s.Covers r.status := by
  cases h with
  | outcome hrun =>
    obtain ⟨x, requeue, rfl, hcontinues⟩ := continues_of_ok (Pass.Dialogue.of_run hrun)
    refine ⟨_, rfl, fun i hi => ?_⟩
    cases hi
    rw [← identity_statusD]
    exact Identity.covers_withRegion hcontinues _
  | failure now e =>
    refine ⟨_, rfl, fun i hi => ?_⟩
    have hi : r.statusD.identity = some i := hi
    rw [← identity_statusD, hi]
    exact i.covers_self

/-- **The patch of the status stores exactly what came of a pass.** Merged into the object as it was
stored, it leaves an object with that status, and with the metadata and the specification as they
were. -/
theorem decode_mergePatch_statusPatch {j : Json} (hstored : Resource.decode k j = .ok r)
    (h : ToStore r R) :
    Resource.decode k (r.encode.mergePatch R.statusPatch) = .ok { r with status := R.status } := by
  obtain ⟨s, hs, hcovers⟩ := h.exists_covers
  rw [statusPatch_eq hs, hs]
  exact Resource.decode_mergePatch hstored hcovers

end Passes

/-! ## A share that has recovered -/

/-- A share with a message from before it was there, and with the record of a failure. -/
def recovering : Share where
  metadata := .empty
  spec := Share.crewSpec
  status := some { Kind.emptyStatus .share with
    identity := some ⟨some (Account.shareArn "team"), some "1111", some "eu-west-1"⟩
    conditions := ⟨none, some ⟨.yes, .epoch, some "RecoverableError", some "try again later"⟩, none⟩
    state := some "PENDING"
    facts := ⟨none, some "being set up", ["a"]⟩ }

theorem stored_recovering : Resource.decode .share recovering.encode = .ok recovering := rfl

theorem decode_mergePatch_recovering :
    ∃ out a', Pass.run Account.serve (reconcile Kind.share.manager none .epoch recovering)
        (Account.serve (.createShare Share.teamInput) .empty).2 = (.ok out, a') ∧
      out.resource.statusD.facts.statusMessage = none ∧
      Resource.decode .share (recovering.encode.mergePatch out.resource.statusPatch)
        = .ok { recovering with status := out.resource.status } := by
  have hmessage : ((Pass.run Account.serve (reconcile Kind.share.manager none .epoch recovering)
      (Account.serve (.createShare Share.teamInput) .empty).2).1.toOption.map
        fun out => out.resource.statusD.facts.statusMessage) = some none := by decide +kernel
  cases hrun : Pass.run Account.serve (reconcile Kind.share.manager none .epoch recovering)
      (Account.serve (.createShare Share.teamInput) .empty).2 with
  | mk ended a' =>
    rw [hrun] at hmessage
    cases ended with
    | error e => cases hmessage
    | ok out =>
      refine ⟨out, a', rfl, Option.some.inj hmessage, ?_⟩
      exact decode_mergePatch_statusPatch stored_recovering (.outcome hrun)

end ShareKeeper
