import ObjectSyncer.Calls

/-!
# Modifications of an ObjectSync

An ObjectSync as it was read and as the controller has changed it since. The status is written
as a whole, against the resource version read right before; the rest is patched with the
difference to the object read right before.
-/
namespace ObjectSyncer

/-- `ObjectSyncModifications`. -/
structure ObjectSyncModifications where
  original : ObjectSync
  modified : ObjectSync
  deriving DecidableEq, Repr

namespace ObjectSyncModifications

/-- `ObjectSyncModifications::new`. -/
def new (original : ObjectSync) : ObjectSyncModifications := ⟨original, original⟩

/-- `ObjectSyncModifications::id`. -/
def id (self : ObjectSyncModifications) : ObjectSyncRef := ObjectSyncRef.ofSync self.modified

/-- `ObjectSyncModifications::is_deleted`. -/
def isDeleted (self : ObjectSyncModifications) : Bool := self.modified.metadata.terminating

/-- The object that the requests of `ObjectSyncModifications::api` address. -/
def address (self : ObjectSyncModifications) : NamespacedName :=
  ⟨self.modified.metadata.nameAny, self.original.metadata.namespace_.getD ""⟩

/-- Change the modified object. -/
def modify (self : ObjectSyncModifications) (change : ObjectSync → ObjectSync) :
    ObjectSyncModifications :=
  { self with modified := change self.modified }

/-- Requests address the same object at whatever resource version. -/
@[simp] theorem address_withResourceVersion (self : ObjectSyncModifications)
    (resourceVersion : Option String) :
    (self.modify (·.withResourceVersion resourceVersion)).address = self.address := rfl

/-- `ObjectSyncModifications::latest`. -/
def latest (self : ObjectSyncModifications) : Async (Except KubeError ObjectSync) :=
  Async.api (.getSyncStatus self.address)

/-- `ObjectSyncModifications::status_has_changed`: the JSON of both statuses differs exactly
when they do, as absent fields are not serialized. -/
def statusHasChanged (self : ObjectSyncModifications) : Bool :=
  self.original.status != self.modified.status

/-- `ObjectSyncModifications::get_spec_patch`. -/
def getSpecPatch (self : ObjectSyncModifications) (latest : ObjectSync) : Option ObjectSyncPatch :=
  let patch := ObjectSyncPatch.diff latest self.modified
  if patch.isEmpty then none else some patch

/-- `ObjectSyncModifications::spec_has_changed`. -/
def specHasChanged (self : ObjectSyncModifications) : Bool :=
  (self.getSpecPatch self.original).isSome

/-- `ObjectSyncModifications::_replace_status`: the resource version sent is that of `latest`,
so the request does not conflict with writes that `latest` already includes. -/
def replaceStatusWith (self : ObjectSyncModifications) (latest : ObjectSync) :
    Async (ObjectSyncModifications × Except KubeError Unit) := do
  let self := self.modify (·.withResourceVersion latest.metadata.resourceVersion)
  match ← Async.api (.replaceSyncStatus self.address self.modified) with
  | .ok modified => return (⟨modified, modified⟩, .ok ())
  | .error e => return (self, .error e)

/-- `ObjectSyncModifications::replace_status`. -/
def replaceStatus (self : ObjectSyncModifications) :
    Async (ObjectSyncModifications × Except ControllerError Unit) :=
  if self.statusHasChanged then do
    match ← self.latest with
    | .error e => return (self, .error (.kubeApi e))
    | .ok latest =>
      let (self, result) ← self.replaceStatusWith latest
      return (self, result.mapError .kubeApi)
  else return (self, .ok ())

/-- `ObjectSyncModifications::_patch_spec`. -/
def patchSpecNow (self : ObjectSyncModifications) :
    Async (ObjectSyncModifications × Except ControllerError Unit) := do
  match ← Async.api (.getSync self.address) with
  | .error e => return (self, .error (.kubeApi e))
  | .ok latest =>
    match self.getSpecPatch latest with
    | none => return (self, .ok ())
    | some patch =>
      match ← Async.api (.jsonPatchSync self.address patch) with
      | .ok new => return (⟨new, new⟩, .ok ())
      | .error e => return (self, .error (.kubeApi e))

/-- `ObjectSyncModifications::patch_spec`. -/
def patchSpec (self : ObjectSyncModifications) :
    Async (ObjectSyncModifications × Except ControllerError Unit) :=
  if self.specHasChanged then self.patchSpecNow else return (self, .ok ())

/-- `ObjectSync::update_condition` on the modified object, reading the clock. -/
def updateCondition (self : ObjectSyncModifications) (condition : Condition) :
    Async ObjectSyncModifications := do
  let time ← Async.clock
  return self.modify (·.updateCondition time condition)

/-- `ObjectSync::update_destinations` on the modified object. -/
def updateDestinations (self : ObjectSyncModifications) (destinations : List DestinationStatus) :
    ObjectSyncModifications :=
  self.modify (·.updateDestinations destinations)

end ObjectSyncModifications

end ObjectSyncer
