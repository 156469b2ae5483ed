import Mathlib.Data.List.Sort

/-!
# The ObjectSync resource and the objects it copies

The types of the API crate with the functions it defines on them: the spec with its sources and
destinations, the status with its conditions and tracked destinations, and the parts of object
metadata that the controller reads or writes. `ResourceExt` accessors of the client library are
here too. A `BTreeMap` of strings is an association list kept in key order.
-/
namespace ObjectSyncer

/-- The API group of the custom resource. -/
def apiGroup : String := "sync.rustrial.org"

/-- The annotation that names the source of a copy. -/
def sourceObjectAnnotation : String := "sync.rustrial.org/source-object"

/-- One observed condition of an ObjectSync. -/
structure Condition where
  /-- Time of the last transition from one status to another. -/
  lastTransitionTime : Option String
  /-- Human readable details. -/
  message : String
  /-- The generation the condition was set upon. -/
  observedGeneration : Option Int
  /-- Programmatic reason of the last transition. -/
  reason : String
  /-- One of `True`, `False` and `Unknown`. -/
  status : String
  /-- Type of the condition. -/
  type_ : String
  deriving DecidableEq, Repr

/-- `Condition::new`. -/
def Condition.new (tpe : String) (status : Option Bool) (reason message : String) : Condition where
  lastTransitionTime := none
  message := message
  reason := reason
  status := (status.map fun value => if value then "True" else "False").getD "Unknown"
  type_ := tpe
  observedGeneration := none

/-- Reference to a source object; the version defaults to the preferred one, the namespace to
that of the ObjectSync. -/
structure SourceObject where
  /-- API group without the version. -/
  group : String
  /-- API version. -/
  version : Option String
  /-- API kind. -/
  kind : String
  /-- Name of the object. -/
  name : String
  /-- Namespace of the object. -/
  namespace_ : Option String
  deriving DecidableEq, Repr

/-- How a destination is written. -/
inductive SyncStrategy where
  /-- Server-side apply, with shared ownership. -/
  | apply
  /-- Replace, with exclusive ownership. -/
  | replace
  deriving DecidableEq, Repr

/-- `Default for SyncStrategy`. -/
def SyncStrategy.default : SyncStrategy := .apply

/-- One entry of the list of destinations. -/
structure Destination where
  /-- New name of the copy, by default that of the source. -/
  name : Option String
  /-- Target namespace; `""` and `"*"` mean every namespace. -/
  namespace_ : String
  /-- The strategy to use. -/
  strategy : Option SyncStrategy
  deriving DecidableEq, Repr

/-- What to copy, and where to. -/
structure ObjectSyncSpec where
  /-- The source object. -/
  source : SourceObject
  /-- The destinations. -/
  destinations : List Destination
  deriving DecidableEq, Repr

/-- One revision of one object. -/
structure ObjectRevision where
  /-- The object's UID. -/
  uid : Option String
  /-- The object's resource version. -/
  resourceVersion : Option String
  deriving DecidableEq, Repr

/-- A tracked destination object. -/
structure DestinationStatus where
  /-- Name of the copy. -/
  name : String
  /-- Namespace of the copy. -/
  namespace_ : String
  /-- API group of the copy. -/
  group : String
  /-- API version of the copy. -/
  version : String
  /-- API kind of the copy. -/
  kind : String
  /-- The last source revision written. -/
  sourceVersion : Option ObjectRevision
  /-- The revision of the copy after the last write. -/
  syncedVersion : Option ObjectRevision
  /-- The strategy of this destination. -/
  strategy : Option SyncStrategy
  deriving DecidableEq, Repr

/-- `DestinationStatus::strategy`: the effective strategy. -/
def DestinationStatus.effectiveStrategy (status : DestinationStatus) : SyncStrategy :=
  status.strategy.getD .default

/-- `Ord for DestinationStatus`: by namespace, then by name; nothing else is compared. -/
def DestinationStatus.le (left right : DestinationStatus) : Bool :=
  if left.namespace_ = right.namespace_ then left.name ≤ right.name
  else left.namespace_ ≤ right.namespace_

/-- The status sub-resource. -/
structure ObjectSyncStatus where
  /-- Observed conditions. -/
  conditions : Option (List Condition)
  /-- Every destination object tracked for garbage collection. -/
  destinations : Option (List DestinationStatus)
  deriving DecidableEq, Repr

/-- `Default for ObjectSyncStatus`. -/
def ObjectSyncStatus.default : ObjectSyncStatus := ⟨none, none⟩

/-- `ObjectSyncStatus::update_condition`, with the clock reading as an argument. A condition of
the same type is replaced only when something else than its transition time differs. -/
def ObjectSyncStatus.updateCondition (status : ObjectSyncStatus) (time : String)
    (condition : Condition) : ObjectSyncStatus :=
  let condition := { condition with lastTransitionTime := some time }
  let conditions := status.conditions.getD []
  let conditions :=
    match conditions.find? fun existing => existing.type_ == condition.type_ with
    | some existing =>
      if existing.status ≠ condition.status ∨ existing.reason ≠ condition.reason
          ∨ existing.message ≠ condition.message
          ∨ existing.observedGeneration ≠ condition.observedGeneration then
        (conditions.filter fun v => v.type_ != condition.type_) ++ [condition]
      else conditions
    | none => conditions ++ [condition]
  { status with conditions := some conditions }

/-- `ObjectSyncStatus::update_destinations`. -/
def ObjectSyncStatus.updateDestinations (status : ObjectSyncStatus)
    (destinations : List DestinationStatus) : ObjectSyncStatus :=
  { status with destinations := some destinations }

/-- Updating a condition leaves the destinations of a status. -/
@[simp] theorem ObjectSyncStatus.updateCondition_destinations (status : ObjectSyncStatus)
    (time : String) (condition : Condition) :
    (status.updateCondition time condition).destinations = status.destinations := rfl

/-- A map of strings in key order. -/
abbrev StringMap := List (String × String)

/-- `BTreeMap::insert`. -/
def StringMap.insert : StringMap → String → String → StringMap
  | [], key, value => [(key, value)]
  | (key', value') :: rest, key, value =>
    if key = key' then (key, value) :: rest
    else if key < key' then (key, value) :: (key', value') :: rest
    else (key', value') :: StringMap.insert rest key value

/-- `ObjectMeta`, with the fields the controller reads or resets. -/
structure ObjectMeta where
  name : Option String := none
  namespace_ : Option String := none
  uid : Option String := none
  resourceVersion : Option String := none
  generation : Option Int := none
  generateName : Option String := none
  managedFields : Option (List String) := none
  ownerReferences : Option (List String) := none
  selfLink : Option String := none
  creationTimestamp : Option Int := none
  deletionTimestamp : Option Int := none
  finalizers : Option (List String) := none
  labels : Option StringMap := none
  annotations : Option StringMap := none
  deriving DecidableEq, Repr

/-- `ResourceExt::name_any`. -/
def ObjectMeta.nameAny (metadata : ObjectMeta) : String :=
  (metadata.name.or metadata.generateName).getD ""

/-- `ResourceExt::finalizers`. -/
def ObjectMeta.finalizerList (metadata : ObjectMeta) : List String := metadata.finalizers.getD []

/-- The revision of an object. -/
def ObjectMeta.revision (metadata : ObjectMeta) : ObjectRevision :=
  ⟨metadata.uid, metadata.resourceVersion⟩

/-- An object is terminating once its deletion timestamp is set. -/
def ObjectMeta.terminating (metadata : ObjectMeta) : Bool := metadata.deletionTimestamp.isSome

/-- Kind and API version, as an object carries them. -/
structure TypeMeta where
  apiVersion : String
  kind : String
  deriving DecidableEq, Repr

/-- An object of any kind. The body is the list of its leaf fields, from path to value. -/
structure DynamicObject where
  types : Option TypeMeta
  metadata : ObjectMeta
  data : StringMap
  deriving DecidableEq, Repr

/-- Put a list of finalizers into an object. -/
def DynamicObject.withFinalizers (object : DynamicObject) (finalizers : List String) :
    DynamicObject :=
  { object with metadata := { object.metadata with finalizers := some finalizers } }

/-- Finalizers are no part of the name of an object. -/
@[simp] theorem DynamicObject.withFinalizers_nameAny (object : DynamicObject)
    (finalizers : List String) :
    (object.withFinalizers finalizers).metadata.nameAny = object.metadata.nameAny := rfl

/-- Putting finalizers into an object leaves its revision. -/
@[simp] theorem DynamicObject.withFinalizers_revision (object : DynamicObject)
    (finalizers : List String) :
    (object.withFinalizers finalizers).metadata.revision = object.metadata.revision := rfl

/-- A namespace, as the reflector caches it. -/
structure Namespace where
  name : String
  creationTimestamp : Option Int
  deletionTimestamp : Option Int
  deriving DecidableEq, Repr

/-- The custom resource. -/
structure ObjectSync where
  metadata : ObjectMeta
  spec : ObjectSyncSpec
  status : Option ObjectSyncStatus
  deriving DecidableEq, Repr

namespace ObjectSync

/-- `ObjectSync::status_destinations`. -/
def statusDestinations (sync : ObjectSync) : Option (List DestinationStatus) :=
  sync.status.bind (·.destinations)

/-- The tracked destinations, none when there is no list. -/
def destinationList (sync : ObjectSync) : List DestinationStatus := sync.statusDestinations.getD []

/-- `ObjectSync::update_condition`, with the clock reading as an argument. -/
def updateCondition (sync : ObjectSync) (time : String) (condition : Condition) : ObjectSync :=
  { sync with status := some ((sync.status.getD .default).updateCondition time condition) }

/-- `ObjectSync::update_destinations`. -/
def updateDestinations (sync : ObjectSync) (destinations : List DestinationStatus) : ObjectSync :=
  { sync with status := some ((sync.status.getD .default).updateDestinations destinations) }

/-- Put a resource version into an ObjectSync. -/
def withResourceVersion (sync : ObjectSync) (resourceVersion : Option String) : ObjectSync :=
  { sync with metadata := { sync.metadata with resourceVersion := resourceVersion } }

/-- A resource version is no part of the status. -/
@[simp] theorem withResourceVersion_status (sync : ObjectSync) (resourceVersion : Option String) :
    (sync.withResourceVersion resourceVersion).status = sync.status := rfl

/-- A resource version leaves the tracked destinations. -/
@[simp] theorem withResourceVersion_destinationList (sync : ObjectSync)
    (resourceVersion : Option String) :
    (sync.withResourceVersion resourceVersion).destinationList = sync.destinationList := rfl

/-- `ObjectSync::source_name`. -/
def sourceName (sync : ObjectSync) : String := sync.spec.source.name

/-- `ObjectSync::source_namespace`: by default the namespace of the ObjectSync. -/
def sourceNamespace (sync : ObjectSync) : Option String :=
  sync.spec.source.namespace_.or sync.metadata.namespace_

/-- The tracked destinations are part of the status. -/
theorem destinationList_eq_of_status {left right : ObjectSync} (same : left.status = right.status) :
    left.destinationList = right.destinationList := by
  rw [destinationList, destinationList, statusDestinations, statusDestinations, same]

/-- The tracked destinations are those of the list, if there is one. -/
theorem destinationList_of_tracked {sync : ObjectSync} {destinations : List DestinationStatus}
    (tracked : sync.statusDestinations = some destinations) :
    sync.destinationList = destinations := by
  rw [destinationList, tracked, Option.getD_some]

/-- Updating a condition leaves the tracked destinations. -/
@[simp] theorem updateCondition_destinationList (sync : ObjectSync) (time : String)
    (condition : Condition) :
    (sync.updateCondition time condition).destinationList = sync.destinationList := by
  cases status : sync.status <;>
    simp [updateCondition, destinationList, statusDestinations, status, ObjectSyncStatus.default]

/-- The tracked destinations are those that were put there. -/
@[simp] theorem updateDestinations_destinationList (sync : ObjectSync)
    (destinations : List DestinationStatus) :
    (sync.updateDestinations destinations).destinationList = destinations := rfl

/-- Updating a condition leaves the metadata. -/
@[simp] theorem updateCondition_metadata (sync : ObjectSync) (time : String)
    (condition : Condition) : (sync.updateCondition time condition).metadata = sync.metadata := rfl

/-- Updating a condition leaves the specification. -/
@[simp] theorem updateCondition_spec (sync : ObjectSync) (time : String) (condition : Condition) :
    (sync.updateCondition time condition).spec = sync.spec := rfl

/-- Updating the tracked destinations leaves the metadata. -/
@[simp] theorem updateDestinations_metadata (sync : ObjectSync)
    (destinations : List DestinationStatus) :
    (sync.updateDestinations destinations).metadata = sync.metadata := rfl

/-- Updating the tracked destinations leaves the specification. -/
@[simp] theorem updateDestinations_spec (sync : ObjectSync)
    (destinations : List DestinationStatus) :
    (sync.updateDestinations destinations).spec = sync.spec := rfl

end ObjectSync

namespace Destination

/-- `Destination::applies_to_all_namespaces`. -/
def appliesToAllNamespaces (destination : Destination) : Bool :=
  destination.namespace_ == "" || destination.namespace_ == "*"

/-- `Destination::applies_to_namespace`. -/
def appliesToNamespace (destination : Destination) (namespace_ : String) : Bool :=
  destination.namespace_ == namespace_ || destination.appliesToAllNamespaces

/-- `Destination::applies_to`: the namespace and name of the copy, unless it would be the
source itself. -/
def appliesTo (destination : Destination) (obj : ObjectSync) (dstNamespace : String) :
    Option (String × String) :=
  let srcName := obj.spec.source.name
  let srcNamespace := (obj.spec.source.namespace_.or obj.metadata.namespace_).getD ""
  let dstName := destination.name.getD obj.spec.source.name
  if destination.appliesToNamespace dstNamespace ∧
      (srcName ≠ dstName ∨ srcNamespace ≠ dstNamespace) then
    some (dstNamespace, dstName)
  else none

/-- A destination never is the source, and lies in the namespace asked for. -/
theorem appliesTo_spec {destination : Destination} {obj : ObjectSync} {dstNamespace : String}
    {target : String × String} (applies : destination.appliesTo obj dstNamespace = some target) :
    target.1 = dstNamespace ∧ ¬(target.2 = obj.sourceName ∧
      target.1 = obj.sourceNamespace.getD "") := by
  unfold appliesTo at applies
  dsimp only at applies
  split at applies
  · rename_i distinct
    obtain rfl := Option.some.inj applies
    refine ⟨rfl, fun same => ?_⟩
    rcases distinct.2 with names | namespaces
    · exact names same.1.symm
    · exact namespaces same.2.symm
  · contradiction

end Destination

end ObjectSyncer
