import ShareKeeper.Pass

/-!
# Rotation of permission versions

A policy cannot be changed in place. A new version is created, the version that was the default is
deleted, and the new one becomes the default. A rotation always starts with the first step; which
version is the old one is for the caller to say.

How far a rotation came is part of what it returns, whether it succeeded or not.
-/

namespace ShareKeeper

/-- How far a rotation came, with the text of the version that was created. -/
inductive RotationState where
  | noVersion
  | versionCreated (version : String)
  | oldVersionDeleted (version : String)
  | defaultVersionSet (version : String)
  deriving DecidableEq, Repr

/-- What came of a rotation. -/
structure Rotation where
  state : RotationState
  result : Except Failure PermissionDetail

namespace Rotation

/-- The number of a version: a 32-bit decimal integer, with blanks around it if need be. -/
def parseVersion (version : String) : Except Failure Int :=
  match Text.readInt32 (Text.trim version.toList) with
  | .ok n => .ok n
  | .error _ => .error (.validation (.version version))

/-- The last step: the new version becomes the default. -/
def promote (arn version : String) (created : PermissionDetail) : Pass Rotation :=
  match parseVersion version with
  | .error e => return ⟨.oldVersionDeleted version, .error e⟩
  | .ok n => do
    match ← (Pass.ask (.setDefaultPermissionVersion arn n)
      >>= Pass.record ⟨Purpose.update.label, "SetDefaultPermissionVersion"⟩).attempt with
    | .error e => return ⟨.oldVersionDeleted version, .error e⟩
    | .ok _ => return ⟨.defaultVersionSet version, .ok { created with defaultVersion := some true }⟩

/-- Creates a version, deletes the previous one and promotes the new one. -/
def replace (arn : String) (previous : Int) (policyTemplate : String) : Pass Rotation := do
  match ← (Pass.ask (.createPermissionVersion arn policyTemplate)
    >>= Pass.record ⟨Purpose.update.label, "CreatePermissionVersion"⟩).attempt with
  | .error e => return ⟨.noVersion, .error e⟩
  | .ok created =>
    let version := created.version.getD ""
    match ← (Pass.ask (.deletePermissionVersion arn previous)
      >>= Pass.record ⟨Purpose.delete.label, "DeletePermissionVersion"⟩).attempt with
    | .error e => return ⟨.versionCreated version, .error e⟩
    | .ok _ => promote arn version created

/-- A whole rotation away from the version that was the default so far. -/
def run (arn : String) (previous : Option String) (policyTemplate : String) : Pass Rotation :=
  match previous with
  | none => .done ⟨.noVersion, .error (.validation (.versionMissing arn))⟩
  | some version =>
    match parseVersion version with
    | .error e => .done ⟨.noVersion, .error e⟩
    | .ok previous => replace arn previous policyTemplate

end Rotation

end ShareKeeper
