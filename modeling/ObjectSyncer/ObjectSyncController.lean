import ObjectSyncer.ResourceController

/-!
# The controller of ObjectSyncs

The main controller discovers the kind of the source of an ObjectSync, registers the ObjectSync
with the resource controller of that kind, moves it when its source changes, and tears it down
when it is deleted.
-/
namespace ObjectSyncer

/-- Type of the condition of an ObjectSync being registered. -/
def ready : String := "Ready"

/-- `ObjectSyncInstance::source_changed`: the kind, the name or the namespace differs. -/
def ObjectSyncInstance.sourceChanged (self : ObjectSyncInstance) (new : ObjectSync)
    (gvk : GroupVersionKind) : Bool :=
  let oldSrc := self.resourceControllerHandle.src.name
  self.gvk != gvk || oldSrc.name != new.spec.source.name ||
    oldSrc.namespace_ != new.sourceNamespace.getD ""

/-- Group, version and kind separated by slashes. -/
def GroupVersionKind.display (gvk : GroupVersionKind) : String :=
  gvk.group ++ "/" ++ gvk.version ++ "/" ++ gvk.kind

namespace ObjectSyncController

/-- The resource that `ObjectSyncController::get_api_resource` picks from a discovered group. -/
def findApiResource (source : SourceObject) (apigroup : ApiGroup) :
    Except ControllerError (GroupVersionKind × Scope) :=
  match source.version with
  | some version =>
    match apigroup.recommendedResources.find? fun resource =>
        resource.1.kind == source.kind && resource.1.version == version with
    | some resource => .ok resource
    | none => .error (.apiDiscoveryError
        s!"Kind {source.kind} in API Group {source.group} with version {version} does not exist")
  | none =>
    match apigroup.recommendedKind source.kind with
    | some resource => .ok resource
    | none => .error (.apiDiscoveryError
        s!"unable to resolve preferred version for Kind {source.kind} in API Group {source.group}")

/-- The end of `ObjectSyncController::get_api_resource`: only namespaced kinds can be synced. -/
def requireNamespaced : GroupVersionKind × Scope → Except ControllerError GroupVersionKind
  | (apiResource, .cluster) => .error (.clusterScopedResource
      (s!"resource {apiResource.display} is cluster scoped, " ++
        "resource syncer only supports namespace scoped resources"))
  | (apiResource, .namespaced) => .ok apiResource

/-- `ObjectSyncController::get_gvk`, and with it `get_api_resource`. -/
def getGvk (source : SourceObject) : Async (Except ControllerError GroupVersionKind) := do
  match ← Async.api (.discoverGroup source.group) with
  | .error (.discovery message) => return .error (.apiDiscoveryError
      s!"API discovery failed for group {source.group}: {message}")
  | .error e => return .error (.kubeApi e)
  | .ok apigroup => return (findApiResource source apigroup).bind requireNamespaced

/-- An error on its way through `anyhow`. -/
def throughAnyhow (result : Except ControllerError Unit) : Except ControllerError Unit :=
  result.mapError fun e => .any e.message

/-- Put a list of finalizers into the modified object. -/
def setFinalizers (event : ObjectSyncModifications) (finalizers : List String) :
    ObjectSyncModifications :=
  event.modify fun sync =>
    { sync with metadata := { sync.metadata with finalizers := some finalizers } }

/-- `ObjectSyncController::remove_finalizer`. -/
def removeFinalizer (event : ObjectSyncModifications) :
    Async (ObjectSyncModifications × Except ControllerError Unit) :=
  let finalizers := event.modified.metadata.finalizerList
  let retained := finalizers.filter (· != finalizer)
  let event := setFinalizers event retained
  if retained.length ≠ finalizers.length then do
    let (event, result) ← event.patchSpec
    return (event, throughAnyhow result)
  else return (event, .ok ())

/-- `ObjectSyncController::add_finalizer_if_missing`. -/
def addFinalizerIfMissing (event : ObjectSyncModifications) :
    Async (ObjectSyncModifications × Except ControllerError Unit) :=
  let finalizers := event.modified.metadata.finalizerList
  if finalizer ∈ finalizers then return (setFinalizers event finalizers, .ok ())
  else do
    let (event, result) ← (setFinalizers event (finalizers ++ [finalizer])).patchSpec
    return (event, throughAnyhow result)

/-- `ObjectSyncController::remove`. -/
def remove (event : ObjectSyncModifications) : Async (Option GroupVersionKind) :=
  Async.memory (.removeInstance event.id)

/-- `ObjectSyncController::add`; starting a resource controller cannot fail. -/
def add (event : ObjectSyncModifications) (gvk : GroupVersionKind) : Async Unit := do
  let controller ← Async.memory (.upgradeOrNew event.id gvk)
  let handle ← Async.memory (.register event.id controller (SourceRef.ofSync event.modified))
  Async.memory (.insertInstance event.id ⟨controller, handle, gvk⟩)

/-- The InSync condition after destinations were removed. -/
def removalCondition (destinations remaining : Nat) : Condition :=
  if remaining > 0 then
    Condition.new inSync (some false) failure
      s!"failed to remove {remaining} out of {destinations} destination objects"
  else
    Condition.new inSync (some true) success
      s!"successfully removed all {destinations} destination objects"

/-- `ObjectSyncController::delete_destinations`. -/
def deleteDestinations (event : ObjectSyncModifications) :
    Async (ObjectSyncModifications × Except ControllerError Unit) :=
  match event.modified.statusDestinations with
  | none => return (event, .ok ())
  | some destinations => do
    match ← ObjectSyncer.deleteDestinations destinations with
    | .error e => return (event, .error e)
    | .ok remaining =>
      let event ← event.updateCondition (removalCondition destinations.length remaining.length)
      match ← (event.updateDestinations remaining).replaceStatus with
      | (event, .error e) => return (event, .error e)
      | (event, .ok ()) =>
        if remaining.length > 0 then
          return (event, .error (.destinationRemovalError
            (s!"failed to deleted {remaining.length} out of {destinations.length} " ++
              s!"destinations of {event.id.name.display}")))
        else return (event, .ok ())

/-- The best-effort step of `delete`: remove the finalizer from the source object. -/
def releaseSource (event : ObjectSyncModifications) : Async (Except ControllerError Unit) := do
  match ← getGvk event.modified.spec.source with
  | .ok gvk =>
    let api : DynamicApi := ⟨gvk, event.modified.sourceNamespace.getD ""⟩
    match ← Async.api (.get api event.modified.sourceName) with
    | .ok source =>
      let (_, result) ← ObjectSyncer.removeFinalizer api (ensureGvk source gvk) finalizer
      return result.map fun _ => ()
    | .error e => if e.isNotFound then return .ok () else return .error (.kubeApi e)
  | .error (.apiDiscoveryError _) => return .ok ()
  | .error e => return .error e

/-- `ObjectSyncController::delete`. -/
def delete (event : ObjectSyncModifications) :
    Async (ObjectSyncModifications × Except ControllerError Unit) := do
  let _ ← remove event
  match ← deleteDestinations event with
  | (event, .error e) => return (event, .error e)
  | (event, .ok ()) =>
    match ← releaseSource event with
    | .error e => return (event, .error e)
    | .ok () => do
      let (event, result) ← removeFinalizer event
      return (event, throughAnyhow result)

/-- The Ready condition after a move. -/
def movedCondition (active : ObjectSyncInstance) (event : ObjectSyncModifications)
    (currentGvk : GroupVersionKind) : Condition :=
  Condition.new ready (some true) success
    (s!"Successfully moved from ResourceController {active.gvk.display} to {currentGvk.display} " ++
      s!"and updated source from {active.resourceControllerHandle.src.name.display} " ++
      s!"to {(SourceRef.ofSync event.modified).name.display}")

/-- The Ready condition after a first registration. -/
def registeredCondition (event : ObjectSyncModifications) (currentGvk : GroupVersionKind) :
    Condition :=
  Condition.new ready (some true) success
    (s!"Successfully registered with ResourceController {currentGvk.display} and " ++
      s!"source {(SourceRef.ofSync event.modified).name.display}")

/-- The branch of `check` for a changed source: leave the current resource controller, clean up
the destinations, and register anew. -/
def moveSource (event : ObjectSyncModifications) (currentGvk : GroupVersionKind) :
    Async (ObjectSyncModifications × Except ControllerError Unit) := do
  let _ ← remove event
  match ← deleteDestinations event with
  | (event, .error e) => return (event, .error e)
  | (event, .ok ()) => do
    add event currentGvk
    return (event, .ok ())

/-- The end of `check`: publish a condition. -/
def publish (event : ObjectSyncModifications) (condition : Condition) :
    Async (ObjectSyncModifications × Except ControllerError Unit) := do
  let event ← event.updateCondition condition
  event.replaceStatus

/-- `ObjectSyncController::check`. The clone `active` of the instance lives until its branch is
left, by an error or not. -/
def check (event : ObjectSyncModifications) :
    Async (ObjectSyncModifications × Except ControllerError Unit) := do
  match ← addFinalizerIfMissing event with
  | (event, .error e) => return (event, .error e)
  | (event, .ok ()) =>
    match ← getGvk event.modified.spec.source with
    | .error e => return (event, .error e)
    | .ok currentGvk =>
      match ← Async.memory (.getInstance event.id) with
      | some active =>
        if active.sourceChanged event.modified currentGvk then do
          match ← moveSource event currentGvk with
          | (event, .error e) =>
            Async.memory (.dropInstance event.id active)
            return (event, .error e)
          | (event, .ok ()) =>
            Async.memory (.dropInstance event.id active)
            publish event (movedCondition active event currentGvk)
        else do
          Async.memory (.dropInstance event.id active)
          return (event, .ok ())
      | none => do
        add event currentGvk
        publish event (registeredCondition event currentGvk)

/-- Whether an ObjectSync lies in a watched namespace. -/
def watches (configuration : Configuration) (namespace_ : String) : Bool :=
  match configuration.watchNamespaces with
  | none => true
  | some v => v.isEmpty || v.contains namespace_ || v.contains "*"

/-- The part of `reconcile` for an ObjectSync that is not deleted. -/
def checkOrReport (event : ObjectSyncModifications) : Async (Except ControllerError Unit) := do
  match ← check event with
  | (_, .ok ()) => return .ok ()
  | (event, .error e) =>
    let event ← event.updateCondition (Condition.new ready (some false) failure e.message)
    match ← event.replaceStatus with
    | (_, .error e) => return .error e
    | (_, .ok ()) => return .error e

/-- `ObjectSyncController::reconcile`. -/
def reconcile (configuration : Configuration) (object : ObjectSync) :
    Async (Except ControllerError Action) := do
  let event := ObjectSyncModifications.new object
  if watches configuration (event.modified.metadata.namespace_.getD "") then
    if event.isDeleted then do
      let (_, result) ← delete event
      return result.map fun _ => .requeue 3600
    else do
      let result ← checkOrReport event
      return result.map fun _ => .requeue 3600
  else return .ok (.requeue 3600)

/-- `ObjectSyncController::error_policy`. -/
def errorPolicy (error : ControllerError) : Action :=
  if error.isTemporary then .requeue 30 else .requeue 300

end ObjectSyncController

end ObjectSyncer
