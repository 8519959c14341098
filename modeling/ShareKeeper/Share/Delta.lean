import ShareKeeper.Delta
import ShareKeeper.Resource.Codec

/-!
# Differences between resource shares

Lists of identifiers are compared as sets.
-/

namespace ShareKeeper

abbrev Share : Type := Resource .share

namespace Share

/-- The fields in which two shares differ. -/
def fieldDelta (a b : ShareSpec) : Delta :=
  Delta.tags "Spec.Tags" a.tags b.tags
    ++ Delta.optionals (· = ·) .bool "Spec.AllowExternalPrincipals" a.allowExternalPrincipals
      b.allowExternalPrincipals
    ++ Delta.texts "Spec.Name" a.name b.name
    ++ Delta.nameSets "Spec.PermissionARNs" a.permissionArns b.permissionArns
    ++ Delta.nameSets "Spec.Principals" a.principals b.principals
    ++ Delta.nameSets "Spec.ResourceARNs" a.resourceArns b.resourceArns
    ++ Delta.nameSets "Spec.Sources" a.sources b.sources

def delta (a b : Option Share) : Delta :=
  match Delta.start Resource.encode a b with
  | .ok (a, b) => fieldDelta a.spec b.spec
  | .error d => d

end Share

end ShareKeeper
