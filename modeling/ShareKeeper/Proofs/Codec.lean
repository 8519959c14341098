import ShareKeeper.Proofs.Record
import ShareKeeper.Proofs.Time.Text
import ShareKeeper.Resource.Codec

/-!
# Objects as JSON, there and back

What is written of a value reads back as that value (`ReadsBack`): texts, numbers, times, lists, and
from these the specifications, the conditions and the metadata. What the metadata of an object may hold
is limited in two places, integers of 64 bits and managed fields that are not null, and whatever was
read keeps to these limits (`Metadata.readable_of_decode`). So an object that was read can be written
and read again.
-/

namespace ShareKeeper

namespace Json

/-! ## Values -/

section Values

variable {α : Type} {read : Json → Except DecodeFault α} {f : α → Json}

/-- A value reads back as what was written, and it is not taken for one that is missing. -/
def ReadsBack (read : Json → Except DecodeFault α) (f : α → Json) (a : α) : Prop :=
  f a ≠ .null ∧ read (f a) = .ok a

theorem readsBack_text (s : String) : ReadsBack asText .string s := ⟨by simp, rfl⟩

theorem readsBack_bool (b : Bool) : ReadsBack asBool .bool b := ⟨by simp, rfl⟩

theorem readsBack_any {j : Json} (h : j ≠ .null) : ReadsBack asAny id j := ⟨h, rfl⟩

/-- Whether an integer has 64 bits with a sign. -/
def IsInt64 (i : Int) : Prop := -9223372036854775808 ≤ i ∧ i < 9223372036854775808

theorem readsBack_int64 {i : Int} (h : IsInt64 i) : ReadsBack asInt64 ofInt i :=
  ⟨by simp [ofInt], if_pos h⟩

theorem isInt64_of_asInt64 {j : Json} {i : Int} (h : asInt64 j = .ok i) : IsInt64 i := by
  unfold asInt64 at h
  split at h
  · split at h
    · next hi =>
      cases h
      exact hi
    · cases h
  · cases h

theorem readsBack_instant (a : Instant) : ReadsBack asInstant ofTime a := by
  refine ⟨by simp [ofTime], ?_⟩
  rw [ofTime, asInstant, Instant.toString_eq, Instant.read_render]
  rfl

theorem readsBack_timestamp (t : Timestamp) : ReadsBack asTimestamp ofTimestamp t := by
  refine ⟨by simp [ofTimestamp], ?_⟩
  have h : asInstant (ofTimestamp t) = .ok t.instant := (readsBack_instant t.instant).2
  rw [asTimestamp, h]
  exact congrArg Except.ok (Timestamp.ofInstant_instant t)

/-- A list reads back if its items do. -/
theorem readItems_map_of_mem {l : List α} (h : ∀ a ∈ l, read (f a) = .ok a) :
    readItems read (l.map f) = .ok l := by
  induction l with
  | nil => rfl
  | cons a l ih =>
    rw [List.map_cons, readItems, h a List.mem_cons_self, ok_bind,
      ih fun b hb => h b (List.mem_cons_of_mem a hb), ok_bind]
    rfl

theorem readsBack_list {l : List α} (h : ∀ a ∈ l, read (f a) = .ok a) :
    ReadsBack (asList read) (fun l => .array (l.map f)) l := ⟨by simp, readItems_map_of_mem h⟩

/-- Whatever is in a list that was read was read. -/
theorem exists_of_mem_readItems {items : List Json} {l : List α} (h : readItems read items = .ok l)
    {a : α} (ha : a ∈ l) : ∃ j, read j = .ok a := by
  induction items generalizing l with
  | nil =>
    cases h
    cases ha
  | cons j items ih =>
    obtain ⟨b, hb, h⟩ := exists_of_bind_ok h
    obtain ⟨rest, hrest, h⟩ := exists_of_bind_ok h
    cases h
    rcases List.mem_cons.1 ha with rfl | ha
    · exact ⟨j, hb⟩
    · exact ih hrest ha

theorem exists_of_mem_asList {j : Json} {l : List α} (h : asList read j = .ok l) {a : α}
    (ha : a ∈ l) : ∃ j, read j = .ok a := by
  cases j with
  | array items => exact exists_of_mem_readItems h ha
  | _ => cases h

theorem readsBack_texts (l : List (String × String)) : ReadsBack asTexts ofTexts l := by
  refine ⟨by simp [ofTexts], ?_⟩
  show readTexts (l.map fun m => (m.1, .string m.2)) = .ok l
  induction l with
  | nil => rfl
  | cons m l ih =>
    rw [List.map_cons, readTexts, show asText (.string m.2) = .ok m.2 from rfl, ok_bind, ih, ok_bind]
    rfl

end Values

/-! ## Members -/

section Members

variable {α : Type} {read : Json → Except DecodeFault α} {f : α → Json} {name : String}
  {ms : List (String × Json)}

@[simp] theorem lookup_may_last (name : String) (f : α → Json) (o : Option α) (k : String) :
    lookup k (may name f o) = if name = k then o.map f else none := by
  cases o <;> simp [may, lookup]

@[simp] theorem lookup_must_last (name : String) (v : Json) (k : String) :
    lookup k (must name v) = if name = k then some v else none := rfl

@[simp] theorem lookup_mayList_last (name : String) (f : α → Json) (l : List α) (k : String) :
    lookup k (mayList name f l)
      = if name = k then (if l.isEmpty then none else some (.array (l.map f))) else none := by
  cases l <;> simp [mayList, lookup]

/-- An absent member and one that is null are alike. -/
theorem optional_eq (name : String) (read : Json → Except DecodeFault α)
    (ms : List (String × Json)) :
    optional name read ms = asOption read ((lookup name ms).getD .null) := by
  rw [optional, field]
  cases lookup name ms with
  | none => rfl
  | some j =>
    show Except.map Option.join (Except.map some (asOption read j)) = asOption read j
    cases asOption read j <;> rfl

theorem asOption_of_ne {j : Json} (h : j ≠ .null) : asOption read j = (read j).map some := by
  cases j with
  | null => exact absurd rfl h
  | _ => rfl

/-- A value or null reads back. -/
theorem asOption_ofOption {o : Option α} (hread : ∀ a ∈ o, ReadsBack read f a) :
    asOption read (ofOption f o) = .ok o := by
  cases o with
  | none => rfl
  | some a =>
    obtain ⟨hnull, ha⟩ := hread a rfl
    rw [ofOption, asOption_of_ne hnull, ha]
    rfl

/-- An optional member reads back. -/
theorem optional_of_lookup_map {o : Option α} (h : lookup name ms = o.map f)
    (hread : ∀ a ∈ o, ReadsBack read f a) : optional name read ms = .ok o := by
  have hvalue : (lookup name ms).getD .null = ofOption f o := by
    rw [h]
    cases o <;> rfl
  rw [optional_eq, hvalue, asOption_ofOption hread]

/-- A member that is there reads back. -/
theorem field_of_lookup {j : Json} {a : α} (h : lookup name ms = some j) (hread : read j = .ok a) :
    field name read ms = .ok (some a) := by
  rw [field, h]
  show (read j).map some = _
  rw [hread]
  rfl

/-- A list that is left out if it is empty reads back. -/
theorem field_of_lookup_list {l : List α}
    (h : lookup name ms = if l.isEmpty then none else some (.array (l.map f)))
    (hread : ∀ a ∈ l, read (f a) = .ok a) :
    ∃ o, field name (asList read) ms = .ok o ∧ o.getD [] = l := by
  cases l with
  | nil => exact ⟨none, by rw [field, h]; rfl, rfl⟩
  | cons a l => exact ⟨some (a :: l), field_of_lookup h (readItems_map_of_mem hread), rfl⟩

theorem eq_ok_of_map_some {x : Except DecodeFault α} {a : α} (h : x.map some = .ok (some a)) :
    x = .ok a := by
  cases x with
  | error e => cases h
  | ok b =>
    cases h
    rfl

/-- A member that was read is there. -/
theorem exists_of_field {a : α} (h : field name read ms = .ok (some a)) :
    ∃ j, read j = .ok a := by
  rw [field] at h
  split at h
  · cases h
  · next j _ => exact ⟨j, eq_ok_of_map_some h⟩

/-- An optional member that was read is there, and it is not null. -/
theorem exists_of_optional {a : α} (h : optional name read ms = .ok (some a)) :
    ∃ j, j ≠ .null ∧ read j = .ok a := by
  rw [optional_eq] at h
  by_cases hnull : (lookup name ms).getD .null = .null
  · rw [hnull] at h
    cases h
  · rw [asOption_of_ne hnull] at h
    exact ⟨_, hnull, eq_ok_of_map_some h⟩

end Members

/-! ### Optional members of an object -/

@[simp] theorem members_object (ms : List (String × Json)) : (object ms).members = ms := rfl

@[simp] theorem member?_object (name : String) (ms : List (String × Json)) :
    (object ms).member? name = lookup name ms := rfl

section Optional

variable (j : Json) (name : String)

theorem optional_text (o : Option String) (h : j.member? name = o.map .string) :
    optional name asText j.members = .ok o :=
  optional_of_lookup_map h fun s _ => readsBack_text s

theorem optional_bool (o : Option Bool) (h : j.member? name = o.map .bool) :
    optional name asBool j.members = .ok o :=
  optional_of_lookup_map h fun b _ => readsBack_bool b

theorem optional_timestamp (o : Option Timestamp) (h : j.member? name = o.map ofTimestamp) :
    optional name asTimestamp j.members = .ok o :=
  optional_of_lookup_map h fun t _ => readsBack_timestamp t

theorem optional_texts (o : Option (List (String × String))) (h : j.member? name = o.map ofTexts) :
    optional name asTexts j.members = .ok o :=
  optional_of_lookup_map h fun l _ => readsBack_texts l

theorem optional_int64 (o : Option Int) (h : j.member? name = o.map ofInt)
    (hint : ∀ i ∈ o, IsInt64 i) : optional name asInt64 j.members = .ok o :=
  optional_of_lookup_map h fun i hi => readsBack_int64 (hint i hi)

end Optional

end Json

open Json

/-! ## Specifications -/

theorem PermissionSpec.decode_encode (s : PermissionSpec) : decode s.encode = .ok s := by
  have hname : field "name" asText s.encode.members = .ok (some s.name) :=
    field_of_lookup rfl rfl
  have htemplate : field "policyTemplate" asText s.encode.members = .ok (some s.policyTemplate) :=
    field_of_lookup rfl rfl
  have htype : field "resourceType" asText s.encode.members = .ok (some s.resourceType) :=
    field_of_lookup rfl rfl
  have htags : ∃ o, field "tags" (asList Tag.decode) s.encode.members = .ok o ∧ o.getD [] = s.tags :=
    field_of_lookup_list (by simp [encode]) fun t _ => t.decode_encode
  obtain ⟨tags, htags, hvalue⟩ := htags
  rw [show s.encode = .object s.encode.members from rfl]
  generalize s.encode.members = ms at *
  simp only [decode, asStructure, hname, htemplate, htype, htags, ok_bind, require, hvalue]
  rfl

theorem ShareSpec.decode_encode (s : ShareSpec) : decode s.encode = .ok s := by
  have hexternal := optional_bool s.encode "allowExternalPrincipals" s.allowExternalPrincipals
    (by simp [encode])
  have hname : field "name" asText s.encode.members = .ok (some s.name) :=
    field_of_lookup (j := .string s.name) (by simp [encode]) rfl
  have hlist : ∀ (name : String) (l : List String),
      (lookup name s.encode.members = if l.isEmpty then none else some (.array (l.map .string))) →
      ∃ o, field name (asList asText) s.encode.members = .ok o ∧ o.getD [] = l :=
    fun _ _ h => field_of_lookup_list h fun _ _ => rfl
  obtain ⟨permissions, hpermissions, hpermissions'⟩ :=
    hlist "permissionARNs" s.permissionArns (by simp [encode])
  obtain ⟨principals, hprincipals, hprincipals'⟩ :=
    hlist "principals" s.principals (by simp [encode])
  obtain ⟨resources, hresources, hresources'⟩ :=
    hlist "resourceARNs" s.resourceArns (by simp [encode])
  obtain ⟨sources, hsources, hsources'⟩ := hlist "sources" s.sources (by simp [encode])
  have htags : ∃ o, field "tags" (asList Tag.decode) s.encode.members = .ok o ∧ o.getD [] = s.tags :=
    field_of_lookup_list (by simp [encode]) fun t _ => t.decode_encode
  obtain ⟨tags, htags, htags'⟩ := htags
  rw [show s.encode = .object s.encode.members from rfl]
  generalize s.encode.members = ms at *
  simp only [decode, asStructure, hexternal, hname, hpermissions, hprincipals, hresources, hsources,
    htags, ok_bind, require, hpermissions', hprincipals', hresources', hsources', htags']
  rfl

/-- The specification of either kind reads back. -/
theorem Kind.decodeSpec_encodeSpec {k : Kind} (s : k.Spec) :
    k.decodeSpec (k.encodeSpec s) = .ok s := by
  cases k with
  | permission => exact PermissionSpec.decode_encode s
  | share => exact ShareSpec.decode_encode s

/-! ## Conditions -/

theorem ConditionType.decode_name (t : ConditionType) : decode (.string t.name) = .ok t := by
  cases t <;> rfl

theorem ConditionStatus.decode_name (s : ConditionStatus) : decode (.string s.name) = .ok s := by
  cases s <;> rfl

theorem Condition.decode_encode (c : Condition) : decode (encode c) = .ok c := by
  have hsince : field "lastTransitionTime" asInstant (encode c).members = .ok (some c.2.since) :=
    field_of_lookup rfl (readsBack_instant _).2
  have hmessage := optional_text (encode c) "message" c.2.message (by simp [encode])
  have hreason := optional_text (encode c) "reason" c.2.reason (by simp [encode])
  have hstatus : field "status" ConditionStatus.decode (encode c).members = .ok (some c.2.status) :=
    field_of_lookup (by simp [encode]) (ConditionStatus.decode_name _)
  have htype : field "type" ConditionType.decode (encode c).members = .ok (some c.1) :=
    field_of_lookup (by simp [encode]) (ConditionType.decode_name _)
  rw [show encode c = .object (encode c).members from rfl]
  generalize (encode c).members = ms at *
  simp only [decode, asStructure, hsince, hmessage, hreason, hstatus, htype, ok_bind, require]
  rfl

theorem Conditions.decode_encode (c : Conditions) : decode c.encode = .ok c := by
  have hlist : asList Condition.decode c.encode = .ok c.toList :=
    readItems_map Condition.decode_encode c.toList
  rw [decode, hlist]
  exact congrArg Except.ok c.ofList_toList

/-! ## Metadata -/

theorem OwnerReference.decode_encode (o : OwnerReference) : decode o.encode = .ok o := by
  rw [show o.encode = .object o.encode.members from rfl]
  have hversion := optional_text o.encode "apiVersion" (some o.apiVersion) (by simp [encode])
  have hblock := optional_bool o.encode "blockOwnerDeletion" o.blockOwnerDeletion
    (by simp [encode])
  have hcontroller := optional_bool o.encode "controller" o.controller (by simp [encode])
  have hkind := optional_text o.encode "kind" (some o.kind) (by simp [encode])
  have hname := optional_text o.encode "name" (some o.name) (by simp [encode])
  have huid := optional_text o.encode "uid" (some o.uid) (by simp [encode])
  generalize o.encode.members = ms at *
  simp only [decode, asMembers, hversion, hblock, hcontroller, hkind, hname, huid, ok_bind,
    Option.getD_some]
  rfl

namespace ManagedFieldsEntry

/-- Whether an entry can be told from its text: fields that are null cannot. -/
def Readable (e : ManagedFieldsEntry) : Prop := ∀ j ∈ e.fields, j ≠ .null

theorem decode_encode {e : ManagedFieldsEntry} (h : e.Readable) : decode e.encode = .ok e := by
  have hversion := optional_text e.encode "apiVersion" e.apiVersion (by simp [encode])
  have htype := optional_text e.encode "fieldsType" e.fieldsType (by simp [encode])
  have hfields : optional "fieldsV1" asAny e.encode.members = .ok e.fields :=
    optional_of_lookup_map (f := id) (by simp [encode]) fun j hj => readsBack_any (h j hj)
  have hmanager := optional_text e.encode "manager" e.manager (by simp [encode])
  have hoperation := optional_text e.encode "operation" e.operation (by simp [encode])
  have hsubresource := optional_text e.encode "subresource" e.subresource (by simp [encode])
  have htime := optional_timestamp e.encode "time" e.time (by simp [encode])
  rw [show e.encode = .object e.encode.members from rfl]
  generalize e.encode.members = ms at *
  simp only [decode, asMembers, hversion, htype, hfields, hmanager, hoperation, hsubresource, htime,
    ok_bind]
  rfl

theorem readable_of_decode {j : Json} {e : ManagedFieldsEntry} (h : decode j = .ok e) :
    e.Readable := by
  obtain ⟨ms, -, h⟩ := exists_of_bind_ok h
  iterate 2 obtain ⟨_, -, h⟩ := exists_of_bind_ok h
  obtain ⟨fields, hfields, h⟩ := exists_of_bind_ok h
  iterate 4 obtain ⟨_, -, h⟩ := exists_of_bind_ok h
  cases h
  intro j hj
  cases hj
  obtain ⟨j', hnull, hread⟩ := exists_of_optional hfields
  cases hread
  exact hnull

end ManagedFieldsEntry

namespace Metadata

/-- What can be told from its text. -/
structure Readable (m : Metadata) : Prop where
  gracePeriod : ∀ i ∈ m.deletionGracePeriodSeconds, IsInt64 i
  generation : ∀ i ∈ m.generation, IsInt64 i
  managedFields : ∀ l ∈ m.managedFields, ∀ e ∈ l, e.Readable

/-- **Metadata that can be told from their text read back.** -/
theorem decode_encode {m : Metadata} (h : m.Readable) : decode m.encode = .ok m := by
  have hannotations := optional_texts m.encode "annotations" m.annotations (by simp [encode])
  have hcreation := optional_timestamp m.encode "creationTimestamp" m.creationTimestamp
    (by simp [encode])
  have hgrace := optional_int64 m.encode "deletionGracePeriodSeconds" m.deletionGracePeriodSeconds
    (by simp [encode]) h.gracePeriod
  have hdeletion := optional_timestamp m.encode "deletionTimestamp" m.deletionTimestamp
    (by simp [encode])
  have hfinalizers : optional "finalizers" (asList asText) m.encode.members = .ok m.finalizers :=
    optional_of_lookup_map (f := ofStrings) (by simp [encode]) fun l _ =>
      readsBack_list fun _ _ => rfl
  have hgenerate := optional_text m.encode "generateName" m.generateName (by simp [encode])
  have hgeneration := optional_int64 m.encode "generation" m.generation (by simp [encode])
    h.generation
  have hlabels := optional_texts m.encode "labels" m.labels (by simp [encode])
  have hmanaged : optional "managedFields" (asList ManagedFieldsEntry.decode) m.encode.members
      = .ok m.managedFields :=
    optional_of_lookup_map (by simp [encode]) fun l hl =>
      readsBack_list fun e he => ManagedFieldsEntry.decode_encode (h.managedFields l hl e he)
  have hname := optional_text m.encode "name" m.name (by simp [encode])
  have hnamespace := optional_text m.encode "namespace" m.namespaceName (by simp [encode])
  have howners : optional "ownerReferences" (asList OwnerReference.decode) m.encode.members
      = .ok m.ownerReferences :=
    optional_of_lookup_map (by simp [encode]) fun l _ =>
      readsBack_list fun o _ => o.decode_encode
  have hversion := optional_text m.encode "resourceVersion" m.resourceVersion (by simp [encode])
  have hself := optional_text m.encode "selfLink" m.selfLink (by simp [encode])
  have huid := optional_text m.encode "uid" m.uid (by simp [encode])
  -- from here on the members count only for what is read of them
  rw [show m.encode = .object m.encode.members from rfl]
  generalize m.encode.members = ms at *
  simp only [decode, asMembers, hannotations, hcreation, hgrace, hdeletion, hfinalizers, hgenerate,
    hgeneration, hlabels, hmanaged, hname, hnamespace, howners, hversion, hself, huid, ok_bind]
  rfl

/-- **Metadata that were read can be told from their text.** -/
theorem readable_of_decode {j : Json} {m : Metadata} (h : decode j = .ok m) : m.Readable := by
  have hint : ∀ {name : String} {ms : List (String × Json)} {o : Option Int},
      optional name asInt64 ms = .ok o → ∀ i ∈ o, IsInt64 i := by
    intro name ms o ho i hi
    cases hi
    obtain ⟨j, -, hj⟩ := exists_of_optional ho
    exact isInt64_of_asInt64 hj
  obtain ⟨ms, -, h⟩ := exists_of_bind_ok h
  iterate 2 obtain ⟨_, -, h⟩ := exists_of_bind_ok h
  obtain ⟨gracePeriod, hgrace, h⟩ := exists_of_bind_ok h
  iterate 3 obtain ⟨_, -, h⟩ := exists_of_bind_ok h
  obtain ⟨generation, hgeneration, h⟩ := exists_of_bind_ok h
  obtain ⟨_, -, h⟩ := exists_of_bind_ok h
  obtain ⟨managed, hmanaged, h⟩ := exists_of_bind_ok h
  iterate 6 obtain ⟨_, -, h⟩ := exists_of_bind_ok h
  cases h
  refine ⟨hint hgrace, hint hgeneration, fun l hl e he => ?_⟩
  cases hl
  obtain ⟨j, -, hj⟩ := exists_of_optional hmanaged
  obtain ⟨j', hj'⟩ := exists_of_mem_asList hj he
  exact ManagedFieldsEntry.readable_of_decode hj'

end Metadata

end ShareKeeper
