import ShareKeeper.Json.Decode
import ShareKeeper.Resource.Codec
import ShareKeeper.Service.Request

/-!
# Messages of the service

How requests are put into HTTP messages. Most are posted as a JSON object with the members that are
set. The three that delete by name carry their arguments in the query, where every character is
percent encoded that is not a letter, a digit or one of `-_.~`; an argument that is empty cannot be
sent that way.
-/

namespace ShareKeeper.Wire

open Json (must may)

/-- What is sent: method, path with query, and body. -/
structure Message where
  method : String
  target : String
  body : Option Json

/-! ## Percent encoding -/

/-- Whether a character stands for itself in a query. -/
def isUnreserved (c : Char) : Bool := c.isAlphanum || c = '-' || c = '_' || c = '.' || c = '~'

/-- A hexadecimal digit, as a capital. -/
def hexDigit (n : Nat) : Char := if n < 10 then Char.ofNat (48 + n) else Char.ofNat (55 + n)

def encodeByte (b : UInt8) : List Char := ['%', hexDigit (b.toNat / 16), hexDigit (b.toNat % 16)]

/-- One character in a query. -/
def encodeChar (c : Char) : List Char :=
  if isUnreserved c then [c] else (String.utf8EncodeChar c).flatMap encodeByte

def percentEncode (s : String) : String := String.ofList (s.toList.flatMap encodeChar)

/-! ## Messages -/

/-- The path of an operation. -/
def path (o : Operation) : String := "/" ++ String.ofList (o.name.toList.map Char.toLower)

def post (o : Operation) (members : List (String × Json)) : Message :=
  ⟨"POST", path o, some (Json.ofMembers members)⟩

/-- A deletion, with its arguments in the query. -/
def delete (o : Operation) (query : List (String × String)) : Message :=
  let arguments := query.map fun q => q.1 ++ "=" ++ percentEncode q.2
  ⟨"DELETE", path o ++ "?" ++ "&".intercalate arguments, none⟩

/-- A list that is left out when it is empty. -/
def mayNames (name : String) (l : List String) : List (String × Json) := Json.mayList name .string l

def batchMembers (b : AssociationBatch) : List (String × Json) :=
  mayNames "principals" b.principals ++ mayNames "resourceArns" b.resourceArns
    ++ mayNames "sources" b.sources

/-- The member that addresses an entity to be tagged. -/
def targetMember : TagTarget → String × Json
  | .share arn => ("resourceShareArn", .string arn)
  | .resource arn => ("resourceArn", .string arn)

def AssociationType.word : AssociationType → String
  | .principal => "PRINCIPAL"
  | .resource => "RESOURCE"

/-- The message of a request. `token` asks for a later page of a list. -/
def message (token : Option String) (r : Request) : Message :=
  match r with
  | .getPermission arn version =>
    post r.operation
      (must "permissionArn" (.string arn) ++ may "permissionVersion" Json.ofInt version)
  | .createPermission i =>
    post r.operation
      (must "name" (.string i.name) ++ must "resourceType" (.string i.resourceType)
        ++ must "policyTemplate" (.string i.policyTemplate) ++ Json.mayList "tags" Tag.encode i.tags)
  | .deletePermission arn => delete r.operation [("permissionArn", arn)]
  | .createPermissionVersion arn policyTemplate =>
    post r.operation
      (must "permissionArn" (.string arn) ++ must "policyTemplate" (.string policyTemplate))
  | .deletePermissionVersion arn version =>
    delete r.operation [("permissionArn", arn), ("permissionVersion", toString version)]
  | .setDefaultPermissionVersion arn version =>
    post r.operation
      (must "permissionArn" (.string arn) ++ must "permissionVersion" (Json.ofInt version))
  | .getShare arn =>
    post r.operation
      (must "resourceOwner" (.string "SELF") ++ must "resourceShareArns" (Json.ofStrings [arn]))
  | .createShare i =>
    post r.operation
      (must "name" (.string i.name) ++ may "allowExternalPrincipals" .bool i.allowExternalPrincipals
        ++ mayNames "permissionArns" i.permissionArns ++ mayNames "principals" i.principals
        ++ mayNames "resourceArns" i.resourceArns ++ mayNames "sources" i.sources
        ++ Json.mayList "tags" Tag.encode i.tags)
  | .updateShare arn name allow =>
    post r.operation
      (must "resourceShareArn" (.string arn) ++ may "name" .string name
        ++ may "allowExternalPrincipals" .bool allow)
  | .deleteShare arn => delete r.operation [("resourceShareArn", arn)]
  | .tag target tags => post r.operation [targetMember target, ("tags", encodeTags tags)]
  | .untag target keys => post r.operation [targetMember target, ("tagKeys", Json.ofStrings keys)]
  | .associate arn batch =>
    post r.operation (must "resourceShareArn" (.string arn) ++ batchMembers batch)
  | .disassociate arn batch =>
    post r.operation (must "resourceShareArn" (.string arn) ++ batchMembers batch)
  | .attachPermission arn permissionArn =>
    post r.operation
      (must "resourceShareArn" (.string arn) ++ must "permissionArn" (.string permissionArn))
  | .detachPermission arn permissionArn =>
    post r.operation
      (must "resourceShareArn" (.string arn) ++ must "permissionArn" (.string permissionArn))
  | .listPermissions arn =>
    post r.operation (must "resourceShareArn" (.string arn) ++ may "nextToken" .string token)
  | .listAssociations arn type =>
    post r.operation
      (must "associationType" (.string (AssociationType.word type))
        ++ must "resourceShareArns" (Json.ofStrings [arn]) ++ may "nextToken" .string token)

/-- Whether a request can be put into a message. -/
def canSend : Request → Bool
  | .deletePermission arn | .deletePermissionVersion arn _ | .deleteShare arn => !arn.isEmpty
  | _ => true

end ShareKeeper.Wire
