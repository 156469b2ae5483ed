import ObjectSyncer.Calls
import ObjectSyncer.Collections.SetMap

/-!
# The registry of a resource controller

`sources` maps each source of one kind to the ObjectSyncs registered for it. Registering returns
a handle, and dropping the last reference to a handle takes its registration out again. Both
sides of the map are namespaced names, of sources and of ObjectSyncs.
-/
namespace ObjectSyncer

open Collections

/-- `HashMap<SourceRef, HashSet<ObjectSyncRef>>`. -/
abbrev Registry := SetMap SourceRef ObjectSyncRef

namespace Registry

/-- The map update of `ResourceController::register`. -/
def register (registry : Registry) (src : SourceRef) (crd : ObjectSyncRef) : Registry :=
  SetMap.add registry src crd

/-- `Drop for ObjectSyncHandle`. -/
def dropHandle (registry : Registry) (src : SourceRef) (crd : ObjectSyncRef) : Registry :=
  SetMap.remove registry src crd

/-- An ObjectSync is registered under a source. -/
abbrev Registered (registry : Registry) (src : SourceRef) (crd : ObjectSyncRef) : Prop :=
  SetMap.Holds registry src crd

/-- The registries that registrations and drops of their handles lead to, with the handles that
are alive. -/
inductive Reachable : Registry → List (SourceRef × ObjectSyncRef) → Prop
  /-- A new resource controller has no registrations. -/
  | start : Reachable ∅ []
  /-- One ObjectSync is registered. -/
  | register {registry : Registry} {handles : List (SourceRef × ObjectSyncRef)} (src : SourceRef)
      (crd : ObjectSyncRef) : Reachable registry handles →
      Reachable (registry.register src crd) ((src, crd) :: handles)
  /-- One handle is dropped. -/
  | drop {registry : Registry} {handles : List (SourceRef × ObjectSyncRef)} {src : SourceRef}
      {crd : ObjectSyncRef} : Reachable registry handles → (src, crd) ∈ handles →
      Reachable (registry.dropHandle src crd) (handles.erase (src, crd))

/-- No source is mapped to an empty set. -/
theorem Reachable.nonEmpty {registry : Registry} {handles : List (SourceRef × ObjectSyncRef)}
    (reachable : Reachable registry handles) : SetMap.NonEmpty registry := by
  induction reachable with
  | start => exact SetMap.nonEmpty_empty
  | register src crd _ ih => exact SetMap.nonEmpty_add src crd ih
  | drop _ _ ih => exact SetMap.nonEmpty_remove _ _ ih

end Registry

end ObjectSyncer
