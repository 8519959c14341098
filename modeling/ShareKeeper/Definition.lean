import ShareKeeper.Resource
import ShareKeeper.Schema
import ShareKeeper.Yaml

/-!
# Definitions of the managed objects

What is told to the cluster about a kind of object before there can be any: its names, the columns
of its table, and the schema of its fields.
-/

namespace ShareKeeper

/-! ## Schemas of what both kinds have -/

namespace Schema

def nullableText : Schema := .nullable .text

def tag : Schema :=
  .described "Key/value tag attached to a RAM entity"
    (.record [("key", .text), ("value", .withDefault (.string "") .text)] ["key"])

def texts (description : String) : Schema := .described description (.list .text)

def identity : Schema :=
  .described "Identity of the AWS entity backing a custom resource"
    (.nullable (.record
      [("arn", .described "ARN of the AWS entity, set once it exists" nullableText),
       ("ownerAccountID", .described "Account owning the entity" nullableText),
       ("region", .described "Region the entity lives in" nullableText)] []))

def condition : Schema :=
  .described "Status condition"
    (.record
      [("lastTransitionTime", .described "Last transition time" .time),
       ("message", nullableText),
       ("reason", nullableText),
       ("status", .word (ConditionStatus.all.map ConditionStatus.name)),
       ("type", .described "Kinds of condition the controller maintains"
         (.word (ConditionType.all.map ConditionType.name)))]
      ["lastTransitionTime", "status", "type"])

/-- What every status has, with the lifecycle states described. -/
def statusFields (states : String) : List (String × Schema) :=
  [("ackResourceMetadata", identity),
   ("conditions", .withDefault (.array []) (.list condition)),
   ("creationTime", .nullable .time),
   ("lastUpdatedTime", .nullable .time),
   ("featureSet", nullableText),
   ("status", .described states nullableText)]

/-- A status. -/
def status (title : String) (fields : List (String × Schema)) : Schema :=
  .described
    (title ++ " status\n\nEvery field is serialized, unset ones as `null`, so a merge patch of the "
      ++ "status clears values that went away.")
    (.nullable (.record fields []))

end Schema

/-! ## Schemas of the kinds -/

namespace Kind

open Schema

def specSchema : Kind → Schema
  | .permission =>
    .described "A customer managed RAM permission"
      (.record
        [("name", .described "Name of the permission; unique within the account and region" .text),
         ("policyTemplate",
           .described "JSON policy template with the Effect, Action and Condition elements" .text),
         ("resourceType",
           .described "Resource type the permission applies to, e.g. `imagebuilder:Component`" .text),
         ("tags", .list tag)]
        ["name", "policyTemplate", "resourceType"])
  | .share =>
    .described "A RAM resource share"
      (.record
        [("name", .described "Name of the resource share" .text),
         ("allowExternalPrincipals",
           .described "Allow principals outside the organization" (.nullable .truth)),
         ("permissionARNs", texts "Permissions attached to the share"),
         ("principals", texts "Account IDs, organization/OU ARNs, IAM roles or users"),
         ("resourceARNs", texts "ARNs of the shared resources"),
         ("sources", texts "Source accounts or organizations allowed to use service principals"),
         ("tags", .list tag)]
        ["name"])

def statusSchema : Kind → Schema
  | .permission =>
    status "Permission"
      (statusFields "Lifecycle status (ATTACHABLE, UNATTACHABLE, DELETING, DELETED)" ++
        [("defaultVersion",
           .described "Whether `version` is the default version of the permission" (.nullable .truth)),
         ("isResourceTypeDefault", .nullable .truth),
         ("permissionType", nullableText),
         ("version", .described "Active policy version" nullableText)])
  | .share =>
    status "ResourceShare"
      (statusFields "Lifecycle status (PENDING, ACTIVE, FAILED, DELETING, DELETED)" ++
        [("owningAccountID", nullableText),
         ("statusMessage", nullableText),
         ("associatedSources",
           .withDefault (.array []) (texts "Sources last associated by the controller"))])

def schema (k : Kind) : Schema :=
  .titled k.name
    (.described ("Auto-generated derived type for " ++ k.name ++ "Spec via `CustomResource`")
      (.record [("spec", k.specSchema), ("status", k.statusSchema)] ["spec"]))

/-! ## Columns and names -/

/-- A column of the table: its name, its type, and where in the object its value is. -/
structure Column where
  name : String
  type : String
  path : String

def Column.encode (c : Column) : Json :=
  Json.ofMembers [("name", .string c.name), ("type", .string c.type), ("jsonPath", .string c.path)]

def columns (k : Kind) : List Column :=
  [⟨"Status", "string", ".status.status"⟩]
    ++ (match k with
        | .permission => [⟨"Version", "string", ".status.version"⟩]
        | .share => [])
    ++ [⟨"Synced", "string", ".status.conditions[?(@.type==\"Synced\")].status"⟩,
        ⟨"Age", "date", ".metadata.creationTimestamp"⟩]

def singular : Kind → String
  | .permission => "permission"
  | .share => "resourceshare"

/-- The names that the objects of a kind go by. -/
def names (k : Kind) : Json :=
  Json.ofMembers
    [("categories", .array []), ("kind", .string k.name), ("plural", .string k.plural),
     ("shortNames", .array []), ("singular", .string k.singular)]

def version (k : Kind) : Json :=
  Json.ofMembers
    [("name", .string apiVersionName), ("served", .bool true), ("storage", .bool true),
     ("additionalPrinterColumns", .array (k.columns.map Column.encode)),
     ("schema", Json.ofMembers [("openAPIV3Schema", k.schema.encode)]),
     ("subresources", Json.ofMembers [("status", .object [])])]

/-- The definition of a kind. -/
def definition (k : Kind) : Json :=
  Json.ofMembers
    [("apiVersion", .string "apiextensions.k8s.io/v1"),
     ("kind", .string "CustomResourceDefinition"),
     ("metadata", Json.ofMembers [("name", .string (k.plural ++ "." ++ apiGroup))]),
     ("spec", Json.ofMembers
       [("group", .string apiGroup), ("names", k.names), ("scope", .string "Namespaced"),
        ("versions", .array [k.version])])]

def all : List Kind := [.permission, .share]

end Kind

/-- The definitions of both kinds as texts. -/
def definitionTexts : List String := Kind.all.map fun k => Yaml.render k.definition

end ShareKeeper
