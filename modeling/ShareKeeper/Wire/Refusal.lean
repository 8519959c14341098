import ShareKeeper.Wire.Response

/-!
# Refusals of the service

A response that is no success names an error by its code, in a header or else in the body. Around
the code there may be a namespace before `#` and an address after `:`. The body may hold a message.
Where the code is one that the operation is known to answer with, the body has to be an object whose
message is a text or null; otherwise anything goes.
-/

namespace ShareKeeper.Wire

/-- The bare code: without what follows the first `:`, and then without what the first `#` ends. -/
def bareCode (code : String) : String :=
  let cs := code.toList.takeWhile (· ≠ ':')
  String.ofList (if cs.contains '#' then (cs.dropWhile (· ≠ '#')).drop 1 else cs)

/-- Codes of every operation: the service itself fails. -/
def outageCodes : List String := ["ServerInternalException", "ServiceUnavailableException"]

/-- Codes of every operation that is given an ARN. -/
def addressCodes : Operation → List String
  | .createPermission => []
  | _ => ["MalformedArnException", "UnknownResourceException"]

/-- Codes that an operation answers with besides those. -/
def particularCodes : Operation → List String
  | .getPermission => ["InvalidParameterException", "OperationNotPermittedException"]
  | .createPermission =>
    ["IdempotentParameterMismatchException", "InvalidClientTokenException",
     "InvalidParameterException", "InvalidPolicyException", "MalformedPolicyTemplateException",
     "OperationNotPermittedException", "PermissionAlreadyExistsException",
     "PermissionLimitExceededException"]
  | .deletePermission => ["InvalidClientTokenException", "OperationNotPermittedException"]
  | .createPermissionVersion =>
    ["IdempotentParameterMismatchException", "InvalidClientTokenException",
     "InvalidParameterException", "InvalidPolicyException", "MalformedPolicyTemplateException",
     "PermissionVersionsLimitExceededException"]
  | .deletePermissionVersion =>
    ["InvalidClientTokenException", "InvalidParameterException", "OperationNotPermittedException"]
  | .setDefaultPermissionVersion => ["InvalidClientTokenException", "InvalidParameterException"]
  | .getResourceShares => ["InvalidNextTokenException", "InvalidParameterException"]
  | .createResourceShare =>
    ["IdempotentParameterMismatchException", "InvalidClientTokenException",
     "InvalidParameterException", "InvalidStateTransitionException",
     "OperationNotPermittedException", "ResourceShareLimitExceededException",
     "TagLimitExceededException", "TagPolicyViolationException", "ThrottlingException"]
  | .updateResourceShare =>
    ["IdempotentParameterMismatchException", "InvalidClientTokenException",
     "InvalidParameterException", "MissingRequiredParameterException",
     "OperationNotPermittedException"]
  | .deleteResourceShare =>
    ["IdempotentParameterMismatchException", "InvalidClientTokenException",
     "InvalidParameterException", "InvalidStateTransitionException",
     "OperationNotPermittedException", "ThrottlingException"]
  | .tagResource =>
    ["InvalidParameterException", "ResourceArnNotFoundException", "TagLimitExceededException",
     "TagPolicyViolationException"]
  | .untagResource => ["InvalidParameterException"]
  | .associateResourceShare =>
    ["IdempotentParameterMismatchException", "InvalidClientTokenException",
     "InvalidParameterException", "InvalidStateTransitionException",
     "OperationNotPermittedException", "ResourceShareLimitExceededException", "ThrottlingException"]
  | .disassociateResourceShare =>
    ["IdempotentParameterMismatchException", "InvalidClientTokenException",
     "InvalidParameterException", "InvalidStateTransitionException",
     "OperationNotPermittedException", "ResourceShareLimitExceededException"]
  | .associateResourceSharePermission =>
    ["InvalidClientTokenException", "InvalidParameterException", "OperationNotPermittedException"]
  | .disassociateResourceSharePermission =>
    ["InvalidClientTokenException", "InvalidParameterException", "InvalidStateTransitionException",
     "OperationNotPermittedException"]
  | .listResourceSharePermissions =>
    ["InvalidNextTokenException", "InvalidParameterException", "OperationNotPermittedException"]
  | .getResourceShareAssociations =>
    ["InvalidNextTokenException", "InvalidParameterException", "OperationNotPermittedException"]

/-- The codes that an operation is known to answer with. -/
def knownCodes (o : Operation) : List String := outageCodes ++ addressCodes o ++ particularCodes o

/-- A text member; one of another type counts as missing. -/
def textMember (name : String) (j : Json) : Option String := (j.member? name).bind text

/-- The message in a body. -/
def messageOf (j : Json) : Option String :=
  (textMember "message" j).or ((textMember "errorMessage" j).or (textMember "Message" j))

/-- Whether a body has the form that known codes come with. -/
def isWellFormed (j : Json) : Bool := (record (read "message" text) j).isSome

/-- What a response that is no success says. -/
def refusal (o : Operation) (r : Response) : CallFault :=
  match r.document with
  | none => .unclear
  | some j =>
    match (r.errorType.or ((textMember "code" j).or (textMember "__type" j))).map bareCode with
    | none => .unclear
    | some code =>
      if code ∈ knownCodes o ∧ !isWellFormed j then .unclear else .refused code (messageOf j)

end ShareKeeper.Wire
