import ObjectSyncer.Collections.RefCount
import ObjectSyncer.Registry

/-!
# The shared memory of the controller

The two maps of the main controller, the resource controllers they refer to, and the strong counts
by which these and the registration handles are dropped. Every operation runs under a lock, as one
step.
-/
namespace ObjectSyncer

open Collections

/-- `ResourceController`, behind its `Arc`. -/
structure ResourceController where
  /-- The kind of source it watches. -/
  gvk : GroupVersionKind
  /-- The registered ObjectSyncs, which its handles refer to as well. -/
  sources : Registry

/-- The memory that the tasks of the controller share. -/
structure Memory where
  /-- Every resource controller ever started. -/
  controllers : ControllerId → Option ResourceController
  /-- The strong count of each resource controller; it is stopped when that becomes zero. -/
  strong : RefCounts ControllerId
  /-- The strong count of each registration handle. -/
  handles : RefCounts ObjectSyncHandle
  /-- `ObjectSyncController::resource_controllers`, whose references are weak. -/
  resourceControllers : GroupVersionKind → Option ControllerId
  /-- `ObjectSyncController::instances`. -/
  instances : ObjectSyncRef → Option ObjectSyncInstance
  /-- The identity of the next resource controller. -/
  nextController : ControllerId
  /-- The identity of the next handle. -/
  nextHandle : HandleId

namespace Memory

/-- The memory when the controller starts. -/
def empty : Memory where
  controllers := fun _ => none
  strong := fun _ => 0
  handles := fun _ => 0
  resourceControllers := fun _ => none
  instances := fun _ => none
  nextController := 0
  nextHandle := 0

/-- The `sources` map of a resource controller. -/
def sources (memory : Memory) (controller : ControllerId) : Registry :=
  ((memory.controllers controller).map (·.sources)).getD ∅

/-- A resource controller is alive while there is a strong reference to it. -/
def Alive (memory : Memory) (controller : ControllerId) : Prop := 0 < memory.strong controller

/-- Whether a resource controller is alive can be computed. -/
instance (memory : Memory) (controller : ControllerId) : Decidable (memory.Alive controller) :=
  inferInstanceAs (Decidable (0 < _))

/-- Change the `sources` map of a resource controller. -/
def changeSources (memory : Memory) (controller : ControllerId) (change : Registry → Registry) :
    Memory :=
  { memory with
    controllers := Function.update memory.controllers controller
      ((memory.controllers controller).map fun found =>
        { found with sources := change found.sources }) }

/-- Drop a reference to a handle; the last one deregisters its ObjectSync. -/
def dropHandle (memory : Memory) (handle : ObjectSyncHandle) : Memory :=
  let memory := { memory with handles := memory.handles.release handle }
  if memory.handles handle = 0 then
    memory.changeSources handle.sources (·.dropHandle handle.src handle.crd)
  else memory

/-- Clone an instance, which counts its references once more. -/
def retain (memory : Memory) (inst : ObjectSyncInstance) : Memory :=
  { memory with
    strong := memory.strong.retain inst.resourceController
    handles := memory.handles.retain inst.resourceControllerHandle }

/-- Drop an instance, which counts its references once less. -/
def release (memory : Memory) (inst : ObjectSyncInstance) : Memory :=
  { memory.dropHandle inst.resourceControllerHandle with
    strong := memory.strong.release inst.resourceController }

/-- Take an entry out of `instances` and drop it. -/
def discard (memory : Memory) (id : ObjectSyncRef) : Memory :=
  match memory.instances id with
  | none => memory
  | some inst =>
    { memory with instances := Function.update memory.instances id none }.release inst

/-- `Weak::upgrade` of an entry of `resource_controllers`. -/
def upgrade (memory : Memory) (gvk : GroupVersionKind) : Option ControllerId :=
  (memory.resourceControllers gvk).filter fun controller => memory.Alive controller

/-- `ResourceController::new`, and its entry in `resource_controllers`. -/
def start (memory : Memory) (gvk : GroupVersionKind) : Memory :=
  { memory with
    controllers := Function.update memory.controllers memory.nextController (some ⟨gvk, ∅⟩)
    resourceControllers :=
      Function.update memory.resourceControllers gvk (some memory.nextController)
    nextController := memory.nextController + 1 }

/-- What each operation replies and does. -/
def exec (memory : Memory) : (op : MemoryOp) → MemoryReply op × Memory
  | .getInstance id =>
    match memory.instances id with
    | none => (none, memory)
    | some inst => (some inst, memory.retain inst)
  | .removeInstance id => ((memory.instances id).map (·.gvk), memory.discard id)
  | .insertInstance id inst =>
    let memory := memory.discard id
    ((), { memory with instances := Function.update memory.instances id (some inst) })
  | .dropInstance _ inst => ((), memory.release inst)
  | .upgradeOrNew _ gvk =>
    match memory.upgrade gvk with
    | some controller =>
      (controller, { memory with strong := memory.strong.retain controller })
    | none =>
      let controller := memory.nextController
      (controller, { memory.start gvk with strong := memory.strong.retain controller })
  | .register id controller src =>
    let handle : ObjectSyncHandle := ⟨memory.nextHandle, controller, src, id⟩
    (handle,
      { memory.changeSources controller (·.register src id) with
        handles := memory.handles.retain handle
        nextHandle := memory.nextHandle + 1 })
  | .lookup controller src => ((memory.sources controller).lookup src, memory)

/-- The clone of an instance is that of its entry. -/
theorem exec_getInstance (memory : Memory) (id : ObjectSyncRef) :
    (memory.exec (.getInstance id)).1 = memory.instances id := by
  cases entry : memory.instances id <;> simp only [exec, entry]

/-- Cloning an instance leaves the entries. -/
theorem exec_getInstance_instances (memory : Memory) (id : ObjectSyncRef) :
    (memory.exec (.getInstance id)).2.instances = memory.instances := by
  cases entry : memory.instances id <;> simp only [exec, entry, retain]

end Memory

end ObjectSyncer
