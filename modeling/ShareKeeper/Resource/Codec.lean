import ShareKeeper.Resource

/-!
# Resources as JSON

Objects are written with their API version and kind, which are passed over when they are read. A
specification leaves out what is not set and lists that are empty. A status writes every field of
its own, null for the ones that are not set: sent as a merge patch, it clears what went away.
-/

namespace ShareKeeper

open Json

/-! ## Specifications -/

def encodeTags (l : List Tag) : Json := .array (l.map Tag.encode)

namespace PermissionSpec

def encode (s : PermissionSpec) : Json :=
  .object (must "name" (.string s.name)
    ++ (must "policyTemplate" (.string s.policyTemplate)
    ++ (must "resourceType" (.string s.resourceType)
    ++ mayList "tags" Tag.encode s.tags)))

def decode : Json → Except DecodeFault PermissionSpec :=
  asStructure "PermissionSpec" 4
    (fun ms => do
      let name ← field "name" asText ms
      let policyTemplate ← field "policyTemplate" asText ms
      let resourceType ← field "resourceType" asText ms
      let tags ← field "tags" (asList Tag.decode) ms
      let name ← require "name" name
      let resourceType ← require "resourceType" resourceType
      let policyTemplate ← require "policyTemplate" policyTemplate
      return { name, resourceType, policyTemplate, tags := tags.getD [] })
    (fun e => do
      let name ← e.get 0 asText
      let resourceType ← e.get 1 asText
      let policyTemplate ← e.get 2 asText
      let tags ← e.getD 3 (asList Tag.decode) []
      return { name, resourceType, policyTemplate, tags })

end PermissionSpec

namespace ShareSpec

def encode (s : ShareSpec) : Json :=
  .object (may "allowExternalPrincipals" .bool s.allowExternalPrincipals
    ++ (must "name" (.string s.name)
    ++ (mayList "permissionARNs" .string s.permissionArns
    ++ (mayList "principals" .string s.principals
    ++ (mayList "resourceARNs" .string s.resourceArns
    ++ (mayList "sources" .string s.sources
    ++ mayList "tags" Tag.encode s.tags))))))

def decode : Json → Except DecodeFault ShareSpec :=
  asStructure "ResourceShareSpec" 7
    (fun ms => do
      let allowExternalPrincipals ← optional "allowExternalPrincipals" asBool ms
      let name ← field "name" asText ms
      let permissionArns ← field "permissionARNs" (asList asText) ms
      let principals ← field "principals" (asList asText) ms
      let resourceArns ← field "resourceARNs" (asList asText) ms
      let sources ← field "sources" (asList asText) ms
      let tags ← field "tags" (asList Tag.decode) ms
      let name ← require "name" name
      return { name, allowExternalPrincipals, permissionArns := permissionArns.getD [],
               principals := principals.getD [], resourceArns := resourceArns.getD [],
               sources := sources.getD [], tags := tags.getD [] })
    (fun e => do
      let name ← e.get 0 asText
      let allowExternalPrincipals ← e.get 1 (asOption asBool)
      let permissionArns ← e.getD 2 (asList asText) []
      let principals ← e.getD 3 (asList asText) []
      let resourceArns ← e.getD 4 (asList asText) []
      let sources ← e.getD 5 (asList asText) []
      let tags ← e.getD 6 (asList Tag.decode) []
      return { name, allowExternalPrincipals, permissionArns, principals, resourceArns, sources, tags })

end ShareSpec

/-! ## Status -/

namespace Identity

def encode (i : Identity) : Json :=
  .object (may "arn" .string i.arn
    ++ (may "ownerAccountID" .string i.ownerAccountId
    ++ may "region" .string i.region))

def decode : Json → Except DecodeFault Identity :=
  asStructure "ResourceMetadata" 3
    (fun ms => do
      let arn ← optional "arn" asText ms
      let ownerAccountId ← optional "ownerAccountID" asText ms
      let region ← optional "region" asText ms
      return { arn, ownerAccountId, region })
    (fun e => do
      let arn ← e.get 0 (asOption asText)
      let ownerAccountId ← e.get 1 (asOption asText)
      let region ← e.get 2 (asOption asText)
      return { arn, ownerAccountId, region })

end Identity

/-- A text or null. -/
def ofText? : Option String → Json := ofOption .string

def ofBool? : Option Bool → Json := ofOption .bool

namespace Status

variable {T : Type} [ToString T]

/-- The status of a permission; every field is written. -/
def encodePermission (s : Status PermissionFacts T) : Json :=
  .object
    [("ackResourceMetadata", ofOption Identity.encode s.identity),
     ("conditions", s.conditions.encode),
     ("creationTime", ofOption ofTime s.creationTime),
     ("defaultVersion", ofBool? s.facts.defaultVersion),
     ("featureSet", ofText? s.featureSet),
     ("isResourceTypeDefault", ofBool? s.facts.isResourceTypeDefault),
     ("lastUpdatedTime", ofOption ofTime s.lastUpdatedTime),
     ("permissionType", ofText? s.facts.permissionType),
     ("status", ofText? s.state),
     ("version", ofText? s.facts.version)]

/-- The status of a share; every field is written. -/
def encodeShare (s : Status ShareFacts T) : Json :=
  .object
    [("ackResourceMetadata", ofOption Identity.encode s.identity),
     ("associatedSources", ofStrings s.facts.associatedSources),
     ("conditions", s.conditions.encode),
     ("creationTime", ofOption ofTime s.creationTime),
     ("featureSet", ofText? s.featureSet),
     ("lastUpdatedTime", ofOption ofTime s.lastUpdatedTime),
     ("owningAccountID", ofText? s.facts.owningAccountId),
     ("status", ofText? s.state),
     ("statusMessage", ofText? s.facts.statusMessage)]

def decodePermission : Json → Except DecodeFault (Status PermissionFacts) :=
  asStructure "PermissionStatus" 10
    (fun ms => do
      let identity ← optional "ackResourceMetadata" Identity.decode ms
      let conditions ← field "conditions" Conditions.decode ms
      let creationTime ← optional "creationTime" asInstant ms
      let defaultVersion ← optional "defaultVersion" asBool ms
      let featureSet ← optional "featureSet" asText ms
      let isResourceTypeDefault ← optional "isResourceTypeDefault" asBool ms
      let lastUpdatedTime ← optional "lastUpdatedTime" asInstant ms
      let permissionType ← optional "permissionType" asText ms
      let state ← optional "status" asText ms
      let version ← optional "version" asText ms
      return { identity, conditions := conditions.getD .empty, creationTime, lastUpdatedTime,
               featureSet,
               state, facts := { defaultVersion, isResourceTypeDefault, permissionType, version } })
    (fun e => do
      let identity ← e.get 0 (asOption Identity.decode)
      let conditions ← e.getD 1 Conditions.decode .empty
      let creationTime ← e.get 2 (asOption asInstant)
      let lastUpdatedTime ← e.get 3 (asOption asInstant)
      let defaultVersion ← e.get 4 (asOption asBool)
      let isResourceTypeDefault ← e.get 5 (asOption asBool)
      let featureSet ← e.get 6 (asOption asText)
      let permissionType ← e.get 7 (asOption asText)
      let state ← e.get 8 (asOption asText)
      let version ← e.get 9 (asOption asText)
      return { identity, conditions, creationTime, lastUpdatedTime, featureSet, state,
               facts := { defaultVersion, isResourceTypeDefault, permissionType, version } })

def decodeShare : Json → Except DecodeFault (Status ShareFacts) :=
  asStructure "ResourceShareStatus" 9
    (fun ms => do
      let identity ← optional "ackResourceMetadata" Identity.decode ms
      let associatedSources ← field "associatedSources" (asList asText) ms
      let conditions ← field "conditions" Conditions.decode ms
      let creationTime ← optional "creationTime" asInstant ms
      let featureSet ← optional "featureSet" asText ms
      let lastUpdatedTime ← optional "lastUpdatedTime" asInstant ms
      let owningAccountId ← optional "owningAccountID" asText ms
      let state ← optional "status" asText ms
      let statusMessage ← optional "statusMessage" asText ms
      return { identity, conditions := conditions.getD .empty, creationTime, lastUpdatedTime,
               featureSet,
               state, facts := { owningAccountId, statusMessage,
                                 associatedSources := associatedSources.getD [] } })
    (fun e => do
      let identity ← e.get 0 (asOption Identity.decode)
      let conditions ← e.getD 1 Conditions.decode .empty
      let creationTime ← e.get 2 (asOption asInstant)
      let lastUpdatedTime ← e.get 3 (asOption asInstant)
      let featureSet ← e.get 4 (asOption asText)
      let owningAccountId ← e.get 5 (asOption asText)
      let state ← e.get 6 (asOption asText)
      let statusMessage ← e.get 7 (asOption asText)
      let associatedSources ← e.getD 8 (asList asText) []
      return { identity, conditions, creationTime, lastUpdatedTime, featureSet, state,
               facts := { owningAccountId, statusMessage, associatedSources } })

end Status

/-! ## Objects -/

namespace Kind

def encodeSpec : (k : Kind) → k.Spec → Json
  | .permission, s => PermissionSpec.encode s
  | .share, s => ShareSpec.encode s

def decodeSpec : (k : Kind) → Json → Except DecodeFault k.Spec
  | .permission => PermissionSpec.decode
  | .share => ShareSpec.decode

def encodeStatus {T : Type} [ToString T] : (k : Kind) → Status k.Facts T → Json
  | .permission, s => Status.encodePermission s
  | .share, s => Status.encodeShare s

def decodeStatus : (k : Kind) → Json → Except DecodeFault (Status k.Facts)
  | .permission => Status.decodePermission
  | .share => Status.decodeShare

end Kind

namespace Resource

variable {k : Kind} {T : Type} [ToString T]

def encode (r : Resource k T) : Json :=
  .object (must "apiVersion" (.string apiVersion)
    ++ (must "kind" (.string k.name)
    ++ (must "metadata" r.metadata.encode
    ++ (must "spec" (k.encodeSpec r.spec)
    ++ may "status" k.encodeStatus r.status))))

def decode (k : Kind) : Json → Except DecodeFault (Resource k) :=
  asStructure k.name 3
    (fun ms => do
      let metadata ← field "metadata" Metadata.decode ms
      let spec ← field "spec" k.decodeSpec ms
      let status ← optional "status" k.decodeStatus ms
      let metadata ← require "metadata" metadata
      let spec ← require "spec" spec
      return { metadata, spec, status })
    (fun e => do
      let metadata ← e.get 0 Metadata.decode
      let spec ← e.get 1 k.decodeSpec
      let status ← e.get 2 (asOption k.decodeStatus)
      return { metadata, spec, status })

/-- The merge patch that stores the status of an object. -/
def statusPatch (r : Resource k T) : Json := .object [("status", ofOption k.encodeStatus r.status)]

end Resource

end ShareKeeper
