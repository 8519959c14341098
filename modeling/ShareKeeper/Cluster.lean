import ShareKeeper.Json.MergePatch
import ShareKeeper.Resource.Codec

/-!
# The cluster, in memory

The cluster as far as one managed object is concerned: the object as it is stored, and the patches
that the controller sends. Patches may be refused, and then nothing changes; which ones is prepared
in a queue.

A patch of the status is a merge patch. It changes the object, its resource version and the watch
only if the status becomes another document. A patch of the finalizers always counts as a change;
when it takes the last finalizer off an object that is being deleted, the object is gone.
-/

namespace ShareKeeper

/-- A change of the list of finalizers. -/
inductive FinalizerPatch where
  /-- The first finalizer of an object that has none. -/
  | first (name : String)
  /-- One more finalizer. -/
  | append (present : List String) (name : String)
  /-- Takes off the finalizer at a position. -/
  | remove (index : Nat) (name : String)
  deriving DecidableEq, Repr

namespace FinalizerPatch

def listPath : String := "/metadata/finalizers"

def itemPath (index : Nat) : String := listPath ++ "/" ++ toString index

/-- One operation of a JSON patch. -/
def operation (op path : String) (value : Option Json) : Json :=
  .object ([("op", .string op), ("path", .string path)] ++ Json.may "value" id value)

/-- The patch as it is sent. It insists first that the list is what it was taken for. -/
def encode : FinalizerPatch → Json
  | .first name =>
    .array [operation "test" listPath (some .null),
      operation "add" listPath (some (Json.ofStrings [name]))]
  | .append present name =>
    .array [operation "test" listPath (some (Json.ofStrings present)),
      operation "add" (listPath ++ "/-") (some (.string name))]
  | .remove index name =>
    .array [operation "test" (itemPath index) (some (.string name)),
      operation "remove" (itemPath index) none]

/-- What becomes of a list of finalizers. -/
def apply (finalizers : List Json) : FinalizerPatch → List Json
  | .first name => [.string name]
  | .append _ name => finalizers ++ [.string name]
  | .remove index _ => finalizers.eraseIdx index

end FinalizerPatch

/-- What the watch tells about the object. -/
inductive WatchEvent where
  | modified
  | deleted
  deriving DecidableEq, Repr

structure Cluster where
  /-- The object as it is stored. -/
  object : Json
  /-- What is prepared for the patches to come: each is applied or refused. -/
  prepared : List (Option Refusal)
  /-- What the watch has told since it was last looked at. -/
  event : Option WatchEvent

namespace Cluster

/-! ## Paths -/

/-- The collection of a kind, of one namespace or of all. -/
def collectionPath (k : Kind) (namespaceName : Option String) : String :=
  let scope :=
    match namespaceName with
    | some n => "namespaces/" ++ n ++ "/"
    | none => ""
  "/apis/" ++ apiVersion ++ "/" ++ scope ++ k.plural

def objectPath {k : Kind} (r : Resource k) (name : String) : String :=
  collectionPath k (some r.namespaceName) ++ "/" ++ name

def statusPath {k : Kind} (r : Resource k) : String := objectPath r r.name ++ "/status"

/-! ## The stored object -/

def metadata (c : Cluster) : Json := (c.object.member? "metadata").getD .null

/-- The number of the resource version. -/
def version (c : Cluster) : Nat :=
  match c.metadata.member? "resourceVersion" with
  | some (.string s) => s.toNat?.getD 0
  | _ => 0

/-- An object with a resource version. -/
def withVersion (n : Nat) (object : Json) : Json :=
  let m := (object.member? "metadata").getD .null
  object.setMember "metadata" (m.setMember "resourceVersion" (.string (toString n)))

/-- The finalizers as they are stored. -/
def finalizers (c : Cluster) : List Json :=
  match c.metadata.member? "finalizers" with
  | some (.array l) => l
  | _ => []

/-- Whether the object is being deleted. -/
def isDeleting (c : Cluster) : Bool :=
  match c.metadata.member? "deletionTimestamp" with
  | none => false
  | some .null => false
  | some _ => true

/-- A cluster that has just stored an object. -/
def start (object : Json) (prepared : List (Option Refusal)) : Cluster :=
  ⟨withVersion 1 object, prepared, none⟩

/-! ## Patches -/

/-- The refusal that is prepared for the next patch, if any, and the cluster after that. -/
def nextRefusal (c : Cluster) : Option Refusal × Cluster :=
  match c.prepared with
  | [] => (none, c)
  | r :: rest => (r, { c with prepared := rest })

/-- Stores another state of the object. -/
def store (c : Cluster) (object : Json) (event : WatchEvent) : Cluster :=
  { c with object := withVersion (c.version + 1) object, event := some event }

/-- Applies a merge patch. -/
def mergeStatus (c : Cluster) (patch : Json) : Cluster :=
  let object := c.object.mergePatch patch
  if object.same c.object then c else c.store object .modified

/-- Changes the finalizers. -/
def changeFinalizers (c : Cluster) (p : FinalizerPatch) : Cluster :=
  let left := p.apply c.finalizers
  let object := c.object.setMember "metadata" (c.metadata.setMember "finalizers" (.array left))
  c.store object (if c.isDeleting && left.isEmpty then .deleted else .modified)

/-- A patch, unless it is refused. -/
def patched (c : Cluster) (f : Cluster → Cluster) : Except Refusal Unit × Cluster :=
  match c.nextRefusal with
  | (some r, c) => (.error r, c)
  | (none, c) => (.ok (), f c)

def patchStatus (c : Cluster) (patch : Json) : Except Refusal Unit × Cluster :=
  c.patched (·.mergeStatus patch)

def patchFinalizers (c : Cluster) (p : FinalizerPatch) : Except Refusal Unit × Cluster :=
  c.patched (·.changeFinalizers p)

end Cluster

end ShareKeeper
