import ShareKeeper.Delta
import ShareKeeper.Json.Reader
import ShareKeeper.Resource.Codec

/-!
# Differences between permissions

Policy templates are compared as JSON documents, so that neither white space nor the order of
members counts. A text that is no JSON document is equal only to itself.
-/

namespace ShareKeeper

abbrev Permission : Type := Resource .permission

namespace Permission

/-- Whether two policy templates say the same. -/
def samePolicy (a b : String) : Bool :=
  match Json.read a, Json.read b with
  | .ok x, .ok y => x.same y
  | _, _ => a = b

/-- The fields in which two permissions differ. -/
def fieldDelta (a b : PermissionSpec) : Delta :=
  Delta.tags "Spec.Tags" a.tags b.tags
    ++ Delta.texts "Spec.Name" a.name b.name
    ++ Delta.ofField (samePolicy a.policyTemplate b.policyTemplate) "Spec.PolicyTemplate"
      (.string a.policyTemplate) (.string b.policyTemplate)
    ++ Delta.texts "Spec.ResourceType" a.resourceType b.resourceType

def delta (a b : Option Permission) : Delta :=
  match Delta.start Resource.encode a b with
  | .ok (a, b) => fieldDelta a.spec b.spec
  | .error d => d

end Permission

end ShareKeeper
