import ObjectSyncer.ObjectSyncController

/-!
# Reconciliation of a source object

The entry point of a resource controller: find the ObjectSyncs registered for an object, then
delete their destinations, synchronize them, or release the object when nobody refers to it.
Calls made on behalf of one ObjectSync carry its identity as a label.
-/
namespace ObjectSyncer

open Interaction

/-- Calls labelled with the ObjectSync they are made for. -/
abbrev LabelledAsync := Program (Option ObjectSyncRef × Call) fun call => Reply call.2

namespace ResourceControllerImpl

/-- `ResourceControllerImpl::source_deleted`. -/
def sourceDeleted (rs : ObjectSyncModifications) :
    Async (ObjectSyncModifications × Except ControllerError Unit) :=
  ObjectSyncController.deleteDestinations rs

/-- `ResourceControllerImpl::get_object_sync`: every error is turned into none. -/
def getObjectSync (syncConfiguration : ObjectSyncRef) :
    Async (Option ObjectSyncModifications) := do
  match ← Async.api (.getSync syncConfiguration.name) with
  | .ok rs => return some (.new rs)
  | .error _ => return none

/-- The loop of `lookup_object_syncs_for_source`: keep the ObjectSyncs whose source still is the
object. -/
def fetchObjectSyncs (sourceRef : SourceRef) :
    List ObjectSyncRef → Async (List ObjectSyncModifications)
  | [] => return []
  | r :: refs => do
    match ← getObjectSync r with
    | some rs =>
      if SourceRef.ofSync rs.modified = sourceRef then do
        let objs ← fetchObjectSyncs sourceRef refs
        return rs :: objs
      else fetchObjectSyncs sourceRef refs
    | none => fetchObjectSyncs sourceRef refs

/-- Whether an object lies in a source namespace. -/
def isSourceNamespace (self : ResourceControllerImpl) (namespace_ : String) : Bool :=
  match self.configuration.sourceNamespaces with
  | none => true
  | some v => v.isEmpty || v.contains namespace_ || v.contains "*"

/-- `ResourceControllerImpl::lookup_object_syncs_for_source`. -/
def lookupObjectSyncsForSource (self : ResourceControllerImpl) (sourceRef : SourceRef) :
    Async (Option (List ObjectSyncModifications)) :=
  if self.isSourceNamespace sourceRef.name.namespace_ then do
    match ← Async.memory (.lookup self.sources sourceRef) with
    | some refs =>
      if refs.isEmpty then return none
      else do
        let objs ← fetchObjectSyncs sourceRef refs
        return some objs
    | none => return none
  else return none

/-- The loop over the ObjectSyncs of a deleted source: whether all destinations were deleted. -/
def deleteAll : List ObjectSyncModifications → LabelledAsync Bool
  | [] => return true
  | rs :: rest => do
    let (_, result) ← (sourceDeleted rs).label (some rs.id)
    let allSucceeded ← deleteAll rest
    return result.isOk && allSucceeded

/-- The loop over the ObjectSyncs of a live source; errors are only logged. -/
def reconcileAll (self : ResourceControllerImpl) (source : DynamicObject) :
    List ObjectSyncModifications → LabelledAsync Unit
  | [] => return ()
  | rs :: rest => do
    let _ ← (self.reconcileSource rs source).label (some rs.id)
    self.reconcileAll source rest

/-- Whether an object is a copy made by the controller. -/
def isCopy (object : DynamicObject) : Bool :=
  ((object.metadata.annotations.getD []).lookup sourceObjectAnnotation).isSome

/-- `ResourceControllerImpl::reconcile`. -/
def reconcile (self : ResourceControllerImpl) (source : DynamicObject) : LabelledAsync Action := do
  let sourceRef := SourceRef.ofObject source
  let api := self.namespacedApi sourceRef.name.namespace_
  let syncConfigurations ← (self.lookupObjectSyncsForSource sourceRef).label none
  let source := ensureGvk source self.gvk
  match syncConfigurations with
  | some syncConfigurations =>
    if source.metadata.terminating then do
      let allSucceeded ← deleteAll syncConfigurations
      if allSucceeded then do
        let _ ← (removeFinalizer api source finalizer).label none
        return .requeue fullReconcileIntervalSecs
      else return .requeue fullReconcileIntervalSecs
    else do
      let (source, _) ← (addFinalizerIfMissing api source finalizer).label none
      self.reconcileAll source syncConfigurations
      return .requeue fullReconcileIntervalSecs
  | none =>
    -- A live copy keeps its finalizer, a source nobody refers to loses it.
    if !isCopy source || source.metadata.terminating then do
      match ← (removeFinalizer api source finalizer).label none with
      | (_, .error _) => return .requeue 5
      | (_, .ok _) => return .awaitChange
    else return .awaitChange

/-- `ResourceControllerImpl::error_policy`. -/
def errorPolicy (error : ControllerError) : Action :=
  if error.isTemporary then .requeue 30 else .requeue fullReconcileIntervalSecs

end ResourceControllerImpl

end ObjectSyncer
