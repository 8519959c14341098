import ShareKeeper.Json.Decode

/-!
# Object metadata

What the cluster keeps about every object besides its specification and status. All of it is
optional, times are cut to whole seconds, and members that are not known here are dropped.
-/

namespace ShareKeeper

/-- An object that this one belongs to. -/
structure OwnerReference where
  apiVersion : String
  blockOwnerDeletion : Option Bool
  controller : Option Bool
  kind : String
  name : String
  uid : String
  deriving DecidableEq

/-- Who manages which fields. -/
structure ManagedFieldsEntry where
  apiVersion : Option String
  fieldsType : Option String
  fields : Option Json
  manager : Option String
  operation : Option String
  subresource : Option String
  time : Option Timestamp

structure Metadata where
  annotations : Option (List (String × String))
  creationTimestamp : Option Timestamp
  deletionGracePeriodSeconds : Option Int
  deletionTimestamp : Option Timestamp
  finalizers : Option (List String)
  generateName : Option String
  generation : Option Int
  labels : Option (List (String × String))
  managedFields : Option (List ManagedFieldsEntry)
  name : Option String
  namespaceName : Option String
  ownerReferences : Option (List OwnerReference)
  resourceVersion : Option String
  selfLink : Option String
  uid : Option String

namespace Json

def ofTimestamp (t : Timestamp) : Json := .string t.render

def asTimestamp (j : Json) : Except DecodeFault Timestamp := (asInstant j).map Timestamp.ofInstant

/-- Texts under names. -/
def ofTexts (l : List (String × String)) : Json := .object (l.map fun m => (m.1, .string m.2))

/-- Any value at all. -/
def asAny (j : Json) : Except DecodeFault Json := .ok j

/-- The members of an object that has a name of its own in messages. -/
def asMembers (expected : String) : Json → Except DecodeFault (List (String × Json))
  | .object ms => .ok ms
  | j => mismatch expected j

end Json

open Json

namespace OwnerReference

def encode (o : OwnerReference) : Json :=
  .object (must "apiVersion" (.string o.apiVersion)
    ++ (may "blockOwnerDeletion" .bool o.blockOwnerDeletion
    ++ (may "controller" .bool o.controller
    ++ (must "kind" (.string o.kind)
    ++ (must "name" (.string o.name)
    ++ must "uid" (.string o.uid))))))

/-- A reference; a text that is missing is empty. -/
def decode (j : Json) : Except DecodeFault OwnerReference := do
  let ms ← asMembers "OwnerReference" j
  let apiVersion ← optional "apiVersion" asText ms
  let blockOwnerDeletion ← optional "blockOwnerDeletion" asBool ms
  let controller ← optional "controller" asBool ms
  let kind ← optional "kind" asText ms
  let name ← optional "name" asText ms
  let uid ← optional "uid" asText ms
  return ⟨apiVersion.getD "", blockOwnerDeletion, controller, kind.getD "", name.getD "", uid.getD ""⟩

end OwnerReference

namespace ManagedFieldsEntry

def encode (e : ManagedFieldsEntry) : Json :=
  .object (may "apiVersion" .string e.apiVersion
    ++ (may "fieldsType" .string e.fieldsType
    ++ (may "fieldsV1" id e.fields
    ++ (may "manager" .string e.manager
    ++ (may "operation" .string e.operation
    ++ (may "subresource" .string e.subresource
    ++ may "time" ofTimestamp e.time))))))

def decode (j : Json) : Except DecodeFault ManagedFieldsEntry := do
  let ms ← asMembers "ManagedFieldsEntry" j
  let apiVersion ← optional "apiVersion" asText ms
  let fieldsType ← optional "fieldsType" asText ms
  let fields ← optional "fieldsV1" asAny ms
  let manager ← optional "manager" asText ms
  let operation ← optional "operation" asText ms
  let subresource ← optional "subresource" asText ms
  let time ← optional "time" asTimestamp ms
  return ⟨apiVersion, fieldsType, fields, manager, operation, subresource, time⟩

end ManagedFieldsEntry

namespace Metadata

def empty : Metadata :=
  ⟨none, none, none, none, none, none, none, none, none, none, none, none, none, none, none⟩

instance : Inhabited Metadata := ⟨empty⟩

def encode (m : Metadata) : Json :=
  .object (may "annotations" ofTexts m.annotations
    ++ (may "creationTimestamp" ofTimestamp m.creationTimestamp
    ++ (may "deletionGracePeriodSeconds" ofInt m.deletionGracePeriodSeconds
    ++ (may "deletionTimestamp" ofTimestamp m.deletionTimestamp
    ++ (may "finalizers" ofStrings m.finalizers
    ++ (may "generateName" .string m.generateName
    ++ (may "generation" ofInt m.generation
    ++ (may "labels" ofTexts m.labels
    ++ (may "managedFields" (fun l => .array (l.map ManagedFieldsEntry.encode)) m.managedFields
    ++ (may "name" .string m.name
    ++ (may "namespace" .string m.namespaceName
    ++ (may "ownerReferences" (fun l => .array (l.map OwnerReference.encode)) m.ownerReferences
    ++ (may "resourceVersion" .string m.resourceVersion
    ++ (may "selfLink" .string m.selfLink
    ++ may "uid" .string m.uid))))))))))))))

def decode (j : Json) : Except DecodeFault Metadata := do
  let ms ← asMembers "ObjectMeta" j
  let annotations ← optional "annotations" asTexts ms
  let creationTimestamp ← optional "creationTimestamp" asTimestamp ms
  let deletionGracePeriodSeconds ← optional "deletionGracePeriodSeconds" asInt64 ms
  let deletionTimestamp ← optional "deletionTimestamp" asTimestamp ms
  let finalizers ← optional "finalizers" (asList asText) ms
  let generateName ← optional "generateName" asText ms
  let generation ← optional "generation" asInt64 ms
  let labels ← optional "labels" asTexts ms
  let managedFields ← optional "managedFields" (asList ManagedFieldsEntry.decode) ms
  let name ← optional "name" asText ms
  let namespaceName ← optional "namespace" asText ms
  let ownerReferences ← optional "ownerReferences" (asList OwnerReference.decode) ms
  let resourceVersion ← optional "resourceVersion" asText ms
  let selfLink ← optional "selfLink" asText ms
  let uid ← optional "uid" asText ms
  return { annotations, creationTimestamp, deletionGracePeriodSeconds, deletionTimestamp, finalizers,
           generateName, generation, labels, managedFields, name, namespaceName, ownerReferences,
           resourceVersion, selfLink, uid }

/-- The name, or the stem it is to be generated from, or nothing. -/
def anyName (m : Metadata) : String := (m.name.or m.generateName).getD ""

end Metadata

end ShareKeeper
