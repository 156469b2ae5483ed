import ObjectSyncer.Errors
import ObjectSyncer.Patch
import ObjectSyncer.Interaction.Safety

/-!
# What the controller asks of its surroundings

Every step at which the controller waits for, reads or changes something outside the running
function is a call: a request to the API server, an operation on the memory its tasks share, a
reading of the namespace cache or of the clock. The functions of the controller are programs
over these calls. All requests name `MANAGER` as their field manager and applies are forced, so
the parameters of a request are left out.
-/
namespace ObjectSyncer

open Interaction

/-- The field manager. -/
def manager : String := "rustrial-object-syncer"

/-- The finalizer of the controller. -/
def finalizer : String := "sync.rustrial.org/rustrial-object-syncer"

/-- Group, version and kind. -/
structure GroupVersionKind where
  group : String
  version : String
  kind : String
  deriving DecidableEq, Repr

/-- `GroupVersionKind::api_version`: the core group has no prefix. -/
def GroupVersionKind.apiVersion (gvk : GroupVersionKind) : String :=
  if gvk.group = "" then gvk.version else gvk.group ++ "/" ++ gvk.version

/-- `NamespacedName`. -/
structure NamespacedName where
  name : String
  namespace_ : String
  deriving DecidableEq, Repr

/-- `Display for NamespacedName`. -/
def NamespacedName.display (name : NamespacedName) : String := name.namespace_ ++ "/" ++ name.name

/-- `ObjectSyncRef`: the identity of an ObjectSync. -/
structure ObjectSyncRef where
  name : NamespacedName
  deriving DecidableEq, Repr

/-- `SourceRef`: a source object within the controller of its kind. -/
structure SourceRef where
  name : NamespacedName
  deriving DecidableEq, Repr

/-- `From<&DynamicObject> for SourceRef`. -/
def SourceRef.ofObject (object : DynamicObject) : SourceRef :=
  ⟨⟨object.metadata.nameAny, object.metadata.namespace_.getD ""⟩⟩

/-- `From<&ObjectSync> for ObjectSyncRef`. -/
def ObjectSyncRef.ofSync (sync : ObjectSync) : ObjectSyncRef :=
  ⟨⟨sync.metadata.nameAny, sync.metadata.namespace_.getD ""⟩⟩

/-- `From<&ObjectSyncModifications> for SourceRef`. -/
def SourceRef.ofSync (sync : ObjectSync) : SourceRef :=
  ⟨⟨sync.spec.source.name, sync.sourceNamespace.getD ""⟩⟩

/-- Identity of an object on the API server. Its version is no part of it: all versions that are
asked for are taken to be served, so that a 404 tells that there is no such object. -/
structure ObjectKey where
  group : String
  kind : String
  namespace_ : String
  name : String
  deriving DecidableEq, Repr

/-- `ResourceControllerImpl::is_same_destination` compares destinations by this key. -/
def DestinationStatus.key (status : DestinationStatus) : ObjectKey :=
  ⟨status.group, status.kind, status.namespace_, status.name⟩

/-- An entry without its revisions: what it designates and how it is to be written. -/
def DestinationStatus.target (status : DestinationStatus) : DestinationStatus :=
  { status with sourceVersion := none, syncedVersion := none }

/-- Revisions are no part of the key of an entry. -/
@[simp] theorem DestinationStatus.target_key (status : DestinationStatus) :
    status.target.key = status.key := rfl

/-- Lists of the same targets have the same keys. -/
theorem DestinationStatus.keys_eq_of_targets {left right : List DestinationStatus}
    (same : left.map (·.target) = right.map (·.target)) :
    left.map (·.key) = right.map (·.key) := by
  simpa only [List.map_map, Function.comp_def, target_key] using congrArg (List.map (·.key)) same

/-- The object that the specification of an ObjectSync designates as its source. -/
def ObjectSync.sourceKey (sync : ObjectSync) : ObjectKey :=
  ⟨sync.spec.source.group, sync.spec.source.kind, sync.sourceNamespace.getD "",
    sync.spec.source.name⟩

/-- The source depends on the specification and the namespace. -/
theorem ObjectSync.sourceKey_eq {sync sync' : ObjectSync} (spec : sync'.spec = sync.spec)
    (namespace_ : sync'.metadata.namespace_ = sync.metadata.namespace_) :
    sync'.sourceKey = sync.sourceKey := by
  simp only [sourceKey, sourceNamespace, spec, namespace_]

/-- `Api::namespaced_with`: the objects of one kind in one namespace. -/
structure DynamicApi where
  resource : GroupVersionKind
  namespace_ : String
  deriving DecidableEq, Repr

/-- The object of a given name behind an API. -/
def DynamicApi.key (api : DynamicApi) (name : String) : ObjectKey :=
  ⟨api.resource.group, api.resource.kind, api.namespace_, name⟩

/-- Scope of a kind. -/
inductive Scope where
  | cluster
  | namespaced
  deriving DecidableEq, Repr

/-- `discovery::ApiGroup`: the resources of its preferred or latest version. -/
structure ApiGroup where
  recommendedResources : List (GroupVersionKind × Scope)
  deriving DecidableEq, Repr

/-- `ApiGroup::recommended_kind`. -/
def ApiGroup.recommendedKind (apiGroup : ApiGroup) (kind : String) :
    Option (GroupVersionKind × Scope) :=
  apiGroup.recommendedResources.find? fun resource => resource.1.kind == kind

/-- A request to the API server. -/
inductive ApiRequest where
  /-- `Api::get` -/
  | get (api : DynamicApi) (name : String)
  /-- `Api::create` -/
  | create (api : DynamicApi) (body : DynamicObject)
  /-- `Api::replace` -/
  | replace (api : DynamicApi) (name : String) (body : DynamicObject)
  /-- `Api::patch` with `Patch::Apply` -/
  | apply (api : DynamicApi) (name : String) (body : DynamicObject)
  /-- `Api::patch` with `Patch::Json`, which only ever edits finalizers -/
  | jsonPatch (api : DynamicApi) (name : String) (patch : List FinalizerOp)
  /-- `Api::delete` -/
  | delete (api : DynamicApi) (name : String)
  /-- `Api::<ObjectSync>::get` -/
  | getSync (sync : NamespacedName)
  /-- `Api::<ObjectSync>::get_status` -/
  | getSyncStatus (sync : NamespacedName)
  /-- `Api::<ObjectSync>::replace_status` -/
  | replaceSyncStatus (sync : NamespacedName) (body : ObjectSync)
  /-- `Api::<ObjectSync>::patch` with `Patch::Json` -/
  | jsonPatchSync (sync : NamespacedName) (patch : ObjectSyncPatch)
  /-- `discovery::group` -/
  | discoverGroup (group : String)
  deriving DecidableEq, Repr

/-- What the API server returns on success. -/
@[reducible] def ApiValue : ApiRequest → Type
  | .get .. | .create .. | .replace .. | .apply .. | .jsonPatch .. => DynamicObject
  | .delete .. => Unit
  | .getSync .. | .getSyncStatus .. | .replaceSyncStatus .. | .jsonPatchSync .. => ObjectSync
  | .discoverGroup .. => ApiGroup

/-- The object that a request writes or deletes. -/
def ApiRequest.target : ApiRequest → Option ObjectKey
  | .create api body => some (api.key body.metadata.nameAny)
  | .replace api name _ | .apply api name _ | .jsonPatch api name _ | .delete api name =>
    some (api.key name)
  | _ => none

/-- Identity of a resource controller, as its `Arc` pointer. -/
abbrev ControllerId := Nat

/-- Identity of a registration handle, as its `Arc` pointer. -/
abbrev HandleId := Nat

/-- `ObjectSyncHandle` behind its `Arc`: whose `sources` it points into, under which source, and
for which ObjectSync. -/
structure ObjectSyncHandle where
  id : HandleId
  sources : ControllerId
  src : SourceRef
  crd : ObjectSyncRef
  deriving DecidableEq, Repr

/-- `ObjectSyncInstance`. -/
structure ObjectSyncInstance where
  resourceController : ControllerId
  resourceControllerHandle : ObjectSyncHandle
  gvk : GroupVersionKind
  deriving DecidableEq, Repr

/-- An operation on the shared memory, done under its lock by the run for one ObjectSync. -/
inductive MemoryOp where
  /-- Clone an entry of `instances` into a local variable. -/
  | getInstance (id : ObjectSyncRef)
  /-- Remove an entry of `instances` and drop it. -/
  | removeInstance (id : ObjectSyncRef)
  /-- Insert an entry into `instances`, dropping the one it replaces. -/
  | insertInstance (id : ObjectSyncRef) (inst : ObjectSyncInstance)
  /-- A local variable that holds an instance goes out of scope. -/
  | dropInstance (id : ObjectSyncRef) (inst : ObjectSyncInstance)
  /-- Upgrade the weak reference in `resource_controllers`, or start a controller. -/
  | upgradeOrNew (id : ObjectSyncRef) (gvk : GroupVersionKind)
  /-- `ResourceController::register`. -/
  | register (id : ObjectSyncRef) (controller : ControllerId) (src : SourceRef)
  /-- Clone the ObjectSyncs registered under a source. -/
  | lookup (controller : ControllerId) (src : SourceRef)
  deriving DecidableEq, Repr

/-- The reply to an operation on the shared memory. -/
@[reducible] def MemoryReply : MemoryOp → Type
  | .getInstance .. => Option ObjectSyncInstance
  | .removeInstance .. => Option GroupVersionKind
  | .insertInstance .. | .dropInstance .. => Unit
  | .upgradeOrNew .. => ControllerId
  | .register .. => ObjectSyncHandle
  | .lookup .. => Option (List ObjectSyncRef)

/-- Anything the controller asks of its surroundings. -/
inductive Call where
  /-- A request to the API server. -/
  | api (request : ApiRequest)
  /-- An operation on the shared memory. -/
  | memory (op : MemoryOp)
  /-- `Store::state` of the namespace cache. -/
  | namespaces
  /-- `Timestamp::now`, formatted as a transition time. -/
  | clock
  deriving DecidableEq, Repr

/-- The reply to a call. -/
@[reducible] def Reply : Call → Type
  | .api request => Except KubeError (ApiValue request)
  | .memory op => MemoryReply op
  | .namespaces => List Namespace
  | .clock => String

/-- An asynchronous function of the controller. -/
abbrev Async := Program Call Reply

namespace Async

/-- Send a request and wait for its answer. -/
def api (request : ApiRequest) : Async (Except KubeError (ApiValue request)) :=
  Program.perform (Call.api request)

/-- Work on the shared memory. -/
def memory (op : MemoryOp) : Async (MemoryReply op) := Program.perform (Call.memory op)

/-- Read the namespace cache. -/
def namespaces : Async (List Namespace) := Program.perform Call.namespaces

/-- Read the clock. -/
def clock : Async String := Program.perform Call.clock

end Async

end ObjectSyncer
