import ObjectSyncer.Memory

/-!
# References into the shared memory

Which resource controller and which handle the entry of an ObjectSync in `instances` and the local
variables of its run refer to. The strong counts are exact for these references, and the `sources`
maps hold the registrations of the handles that are referred to.
-/
namespace ObjectSyncer

open Collections

/-- Where a reference to a resource controller or a handle is kept. -/
inductive Slot where
  /-- In the entry of `instances`. -/
  | entry
  /-- In the local variable `active` of `check`. -/
  | active
  /-- In the local variables of `add`. -/
  | adding
  deriving DecidableEq, Repr

/-- A slot of an ObjectSync. -/
abbrev Owner := ObjectSyncRef × Slot

/-- What a slot refers to. -/
structure Held where
  /-- The resource controller. -/
  controller : ControllerId
  /-- The kind it is kept for. -/
  gvk : GroupVersionKind
  /-- The handle, once the ObjectSync is registered. -/
  handle : Option ObjectSyncHandle
  deriving DecidableEq, Repr

/-- What an instance refers to. -/
def ObjectSyncInstance.held (inst : ObjectSyncInstance) : Held :=
  ⟨inst.resourceController, inst.gvk, some inst.resourceControllerHandle⟩

/-- The resource controller that a reference is to. -/
def controllerOf (held : Option Held) : Option ControllerId := held.map (·.controller)

/-- The handle that a reference is to. -/
def handleOf (held : Option Held) : Option ObjectSyncHandle := held.bind (·.handle)

namespace Memory

/-- The kind that a resource controller watches. -/
def kind (memory : Memory) (controller : ControllerId) : Option GroupVersionKind :=
  (memory.controllers controller).map (·.gvk)

section Helpers

variable (memory : Memory) (controller other : ControllerId) (change : Registry → Registry)
  (handle : ObjectSyncHandle)

/-- Changing a `sources` map leaves the kinds. -/
@[simp] theorem kind_changeSources :
    (memory.changeSources controller change).kind other = memory.kind other := by
  by_cases same : other = controller
  · subst same
    simp [kind, changeSources, Function.comp_def]
  · simp [kind, changeSources, same]

variable {memory controller} in
/-- Changing a `sources` map leaves the others. -/
theorem sources_changeSources (known : (memory.kind controller).isSome) :
    (memory.changeSources controller change).sources other =
      if other = controller then change (memory.sources controller) else memory.sources other := by
  rw [kind, Option.isSome_map] at known
  obtain ⟨found, there⟩ := Option.isSome_iff_exists.mp known
  by_cases same : other = controller
  · subst same
    simp [sources, changeSources, there]
  · simp [sources, changeSources, same]

/-- Dropping a handle leaves the kinds of the resource controllers. -/
@[simp] theorem kind_dropHandle : (memory.dropHandle handle).kind other = memory.kind other := by
  unfold dropHandle
  dsimp only
  split
  · rw [kind_changeSources]
    rfl
  · rfl

/-- Dropping a handle releases one reference to it. -/
theorem dropHandle_handles :
    (memory.dropHandle handle).handles = memory.handles.release handle := by
  unfold dropHandle
  dsimp only
  split <;> rfl

variable {memory handle} in
/-- The last reference to a handle takes its registration out. -/
theorem sources_dropHandle (known : (memory.kind handle.sources).isSome) :
    (memory.dropHandle handle).sources other =
      if memory.handles.release handle handle = 0 ∧ other = handle.sources then
        (memory.sources other).dropHandle handle.src handle.crd
      else memory.sources other := by
  have known' : (kind { memory with handles := memory.handles.release handle }
    handle.sources).isSome := known
  unfold dropHandle
  dsimp only
  by_cases last : memory.handles.release handle handle = 0
  · rw [if_pos last, sources_changeSources _ _ known']
    by_cases same : other = handle.sources
    · rw [if_pos same, if_pos ⟨last, same⟩, same]
      rfl
    · rw [if_neg same, if_neg fun both => same both.2]
      rfl
  · rw [if_neg last, if_neg fun both => last both.1]
    rfl

variable {memory handle} in
/-- Dropping a handle leaves all other registrations. -/
theorem registered_dropHandle (known : (memory.kind handle.sources).isSome) (src : SourceRef)
    (id : ObjectSyncRef) :
    ((memory.dropHandle handle).sources other).Registered src id ↔
      (memory.sources other).Registered src id ∧
        ¬(memory.handles.release handle handle = 0 ∧ other = handle.sources ∧
          src = handle.src ∧ id = handle.crd) := by
  rw [sources_dropHandle _ known]
  split
  · rename_i dropped
    simp only [dropped, true_and]
    exact SetMap.holds_remove ..
  · rename_i kept
    exact (and_iff_left fun all => kept ⟨all.1, all.2.1⟩).symm

variable {memory handle} in
/-- Dropping a handle leaves no empty set. -/
theorem nonEmpty_dropHandle (known : (memory.kind handle.sources).isSome)
    (full : ∀ controller, (memory.sources controller).NonEmpty) :
    ((memory.dropHandle handle).sources other).NonEmpty := by
  rw [sources_dropHandle _ known]
  split
  · exact SetMap.nonEmpty_remove _ _ (full other)
  · exact full other

/-- Dropping a handle touches nothing but counts and `sources`. -/
theorem dropHandle_frame : (memory.dropHandle handle).strong = memory.strong ∧
    (memory.dropHandle handle).resourceControllers = memory.resourceControllers ∧
    (memory.dropHandle handle).instances = memory.instances ∧
    (memory.dropHandle handle).nextController = memory.nextController ∧
    (memory.dropHandle handle).nextHandle = memory.nextHandle := by
  unfold dropHandle
  dsimp only
  split <;> exact ⟨rfl, rfl, rfl, rfl, rfl⟩

end Helpers

/-- An ObjectSync refers to a controller, and perhaps to a handle, in one of its slots. -/
def Refers (refs : Owner → Option Held) (id : ObjectSyncRef) (held : Held) : Prop :=
  ∃ slot, refs (id, slot) = some held

/-- The registrations are those of the handles that ObjectSyncs refer to. -/
structure Accounts (memory : Memory) (refers : ObjectSyncRef → Held → Prop) : Prop where
  registered : ∀ controller src id, (memory.sources controller).Registered src id ↔
    ∃ held handle, refers id held ∧ held.handle = some handle ∧ handle.sources = controller ∧
      handle.src = src
  /-- No two handles stand for the same registration. -/
  single : ∀ id held held' handle handle', refers id held → refers id held' →
    held.handle = some handle → held'.handle = some handle' →
      handle.sources = handle'.sources → handle.src = handle'.src → handle = handle'
  /-- A handle is kept with its controller, for its ObjectSync. -/
  owned : ∀ id held handle, refers id held → held.handle = some handle →
    handle.crd = id ∧ handle.id < memory.nextHandle ∧ handle.sources = held.controller
  /-- A controller that is referred to watches the kind it is kept for. -/
  kinds : ∀ id held, refers id held → memory.kind held.controller = some held.gvk

/-- The counts of the memory, its maps and the references of all slots agree. -/
structure Consistent (memory : Memory) (refs : Owner → Option Held) : Prop where
  strong : memory.strong.Exact (controllerOf ∘ refs)
  handles : memory.handles.Exact (handleOf ∘ refs)
  accounts : memory.Accounts (Refers refs)
  fresh : ∀ controller, memory.nextController ≤ controller → memory.kind controller = none
  listed : ∀ gvk controller, memory.resourceControllers gvk = some controller →
    memory.kind controller = some gvk
  /-- The controller that is alive for a kind is the one that a run finds. -/
  current : ∀ controller gvk, memory.kind controller = some gvk → memory.Alive controller →
    memory.resourceControllers gvk = some controller
  nonEmpty : ∀ controller, (memory.sources controller).NonEmpty

/-- The part of consistency that is not about registrations. -/
structure Counted (memory : Memory) (refs : Owner → Option Held) : Prop where
  strong : memory.strong.Exact (controllerOf ∘ refs)
  handles : memory.handles.Exact (handleOf ∘ refs)
  owned : ∀ id held handle, Refers refs id held → held.handle = some handle →
    handle.crd = id ∧ handle.id < memory.nextHandle ∧ handle.sources = held.controller
  kinds : ∀ id held, Refers refs id held → memory.kind held.controller = some held.gvk
  fresh : ∀ controller, memory.nextController ≤ controller → memory.kind controller = none
  listed : ∀ gvk controller, memory.resourceControllers gvk = some controller →
    memory.kind controller = some gvk
  current : ∀ controller gvk, memory.kind controller = some gvk → memory.Alive controller →
    memory.resourceControllers gvk = some controller

/-- A property of the memory and the references into it that everything runs do to them keeps, where
registrations may be restricted. -/
structure Preserved (holds : Memory → (Owner → Option Held) → Prop)
    (permits : Memory → MemoryOp → Prop) : Prop where
  /-- An instance is dropped. -/
  release : ∀ {memory refs owner} {inst : ObjectSyncInstance}, holds memory refs →
    refs owner = some inst.held → holds (memory.release inst) (Function.update refs owner none)
  /-- A slot is handed over to another one of the same ObjectSync. -/
  move : ∀ {memory refs id slot heir held} {handle : ObjectSyncHandle}, holds memory refs →
    refs (id, slot) = some held → held.handle = some handle → refs (id, heir) = none →
      holds memory (Function.update (Function.update refs (id, slot) none) (id, heir) (some held))
  /-- An instance is cloned into a free slot. -/
  retain : ∀ {memory refs id slot free} {inst : ObjectSyncInstance}, holds memory refs →
    refs (id, slot) = some inst.held → refs (id, free) = none →
      holds (memory.retain inst) (Function.update refs (id, free) (some inst.held))
  /-- A resource controller is started when none is alive for its kind. -/
  start : ∀ {memory refs gvk}, holds memory refs → memory.upgrade gvk = none →
    holds (memory.start gvk) refs
  /-- A slot takes hold of the resource controller of a kind. -/
  hold : ∀ {memory refs id slot controller gvk}, holds memory refs → refs (id, slot) = none →
    memory.resourceControllers gvk = some controller →
      holds { memory with strong := memory.strong.retain controller }
        (Function.update refs (id, slot) (some ⟨controller, gvk, none⟩))
  /-- An ObjectSync is registered. -/
  register : ∀ {memory refs id slot controller gvk src}, holds memory refs →
    refs (id, slot) = some ⟨controller, gvk, none⟩ →
    permits memory (.register id controller src) →
      holds (memory.exec (.register id controller src)).2 (Function.update refs (id, slot)
        (some ⟨controller, gvk, some (memory.exec (.register id controller src)).1⟩))
  /-- Where the instances are kept does not matter. -/
  withInstances : ∀ {memory refs}, holds memory refs →
    ∀ instances, holds { memory with instances := instances } refs

section Slots

variable {refs : Owner → Option Held} {id id' : ObjectSyncRef} {held held' : Held}

/-- What other slots refer to is referred to still. -/
theorem Refers.of_cleared {owner : Owner}
    (refers : Refers (Function.update refs owner none) id held) : Refers refs id held := by
  obtain ⟨slot, kept⟩ := refers
  by_cases same : (id, slot) = owner
  · rw [same, Function.update_self] at kept
    cases kept
  · rw [Function.update_of_ne same] at kept
    exact ⟨slot, kept⟩

/-- Handing a slot over changes nothing about what is referred to. -/
theorem refers_moved {slot heir : Slot} (referred : refs (id, slot) = some held)
    (free : refs (id, heir) = none) :
    Refers (Function.update (Function.update refs (id, slot) none) (id, heir) (some held)) =
      Refers refs := by
  funext id' held'
  refine propext ⟨?_, ?_⟩
  · rintro ⟨slot', kept⟩
    by_cases here : (id', slot') = (id, heir)
    · rw [here, Function.update_self] at kept
      obtain ⟨rfl, rfl⟩ := Prod.mk.inj here
      exact ⟨slot, referred.trans kept⟩
    · rw [Function.update_of_ne here] at kept
      by_cases there : (id', slot') = (id, slot)
      · rw [there, Function.update_self] at kept
        cases kept
      · rw [Function.update_of_ne there] at kept
        exact ⟨slot', kept⟩
  · rintro ⟨slot', kept⟩
    by_cases there : (id', slot') = (id, slot)
    · obtain ⟨rfl, rfl⟩ := Prod.mk.inj there
      exact ⟨heir, by rw [Function.update_self, ← referred, kept]⟩
    · have here : (id', slot') ≠ (id, heir) := by
        intro here
        rw [here, free] at kept
        cases kept
      exact ⟨slot', by rwa [Function.update_of_ne here, Function.update_of_ne there]⟩

/-- A clone adds nothing to what is referred to. -/
theorem refers_cloned {slot free : Slot} (referred : refs (id, slot) = some held)
    (empty : refs (id, free) = none) :
    Refers (Function.update refs (id, free) (some held)) = Refers refs := by
  funext id' held'
  refine propext ⟨?_, ?_⟩
  · rintro ⟨slot', kept⟩
    by_cases here : (id', slot') = (id, free)
    · rw [here, Function.update_self] at kept
      obtain ⟨rfl, rfl⟩ := Prod.mk.inj here
      exact ⟨slot, referred.trans kept⟩
    · rw [Function.update_of_ne here] at kept
      exact ⟨slot', kept⟩
  · rintro ⟨slot', kept⟩
    have here : (id', slot') ≠ (id, free) := by
      intro here
      rw [here, empty] at kept
      cases kept
    exact ⟨slot', by rwa [Function.update_of_ne here]⟩

/-- After a slot is set, it is what refers to something, or that was referred to before. -/
theorem Refers.of_set {slot : Slot}
    (refers : Refers (Function.update refs (id, slot) (some held)) id' held') :
    (id' = id ∧ held' = held) ∨ Refers refs id' held' := by
  obtain ⟨slot', kept⟩ := refers
  by_cases here : (id', slot') = (id, slot)
  · rw [here, Function.update_self] at kept
    exact .inl ⟨congrArg Prod.fst here, (Option.some.inj kept).symm⟩
  · rw [Function.update_of_ne here] at kept
    exact .inr ⟨slot', kept⟩

/-- Setting a slot that does not refer to something leaves what does. -/
theorem Refers.set {slot : Slot} {value : Option Held} (refers : Refers refs id' held')
    (other : refs (id, slot) ≠ some held') :
    Refers (Function.update refs (id, slot) value) id' held' := by
  obtain ⟨slot', kept⟩ := refers
  have here : (id', slot') ≠ (id, slot) := by
    intro here
    rw [here] at kept
    exact other kept
  exact ⟨slot', by rwa [Function.update_of_ne here]⟩

end Slots

section Change

variable {memory : Memory}

/-- A new resource controller has a new identity. -/
theorem kind_start (gvk : GroupVersionKind) (controller : ControllerId) :
    (memory.start gvk).kind controller =
      if controller = memory.nextController then some gvk else memory.kind controller := by
  by_cases same : controller = memory.nextController
  · simp [kind, Memory.start, same]
  · simp [kind, Memory.start, same]

/-- Registering an ObjectSync leaves the kinds of the resource controllers. -/
theorem kind_register (id : ObjectSyncRef) (controller other : ControllerId) (src : SourceRef) :
    (memory.exec (.register id controller src)).2.kind other = memory.kind other :=
  memory.kind_changeSources controller other (·.register src id)

/-- Registering adds to one `sources` map. -/
theorem sources_register {controller : ControllerId} {gvk : GroupVersionKind}
    (known : memory.kind controller = some gvk) (id : ObjectSyncRef) (src : SourceRef)
    (other : ControllerId) :
    (memory.exec (.register id controller src)).2.sources other =
      if other = controller then (memory.sources controller).register src id
      else memory.sources other :=
  @sources_changeSources memory controller other (·.register src id)
    (Option.isSome_iff_exists.mpr ⟨_, known⟩)

end Change

namespace Counted

variable {memory : Memory} {refs : Owner → Option Held} {owner : Owner}

/-- The controller of a reference has a kind. -/
theorem known (counted : memory.Counted refs) {inst : ObjectSyncInstance}
    (held : refs owner = some inst.held) :
    (memory.kind inst.resourceControllerHandle.sources).isSome := by
  have owned := counted.owned owner.1 _ _ ⟨owner.2, held⟩ rfl
  rw [owned.2.2, counted.kinds owner.1 _ ⟨owner.2, held⟩]
  rfl

/-- Dropping an instance leaves the counts exact. -/
theorem release (counted : memory.Counted refs) {inst : ObjectSyncInstance}
    (held : refs owner = some inst.held) :
    (memory.release inst).Counted (Function.update refs owner none) := by
  have controller : controllerOf (refs owner) = some inst.resourceController := by
    rw [held]; rfl
  have handle : handleOf (refs owner) = some inst.resourceControllerHandle := by
    rw [held]; rfl
  obtain ⟨strong, found, instances, nextController, nextHandle⟩ :=
    memory.dropHandle_frame inst.resourceControllerHandle
  constructor
  · show (RefCounts.release _ _).Exact _
    rw [Function.comp_update]
    exact counted.strong.release controller
  · show (memory.dropHandle _).handles.Exact _
    rw [memory.dropHandle_handles, Function.comp_update]
    exact counted.handles.release handle
  · intro id held' handle' refers some'
    show _ ∧ handle'.id < (memory.dropHandle _).nextHandle ∧ _
    rw [nextHandle]
    exact counted.owned id held' handle' refers.of_cleared some'
  · intro id held' refers
    show (memory.dropHandle _).kind _ = _
    rw [kind_dropHandle]
    exact counted.kinds id held' refers.of_cleared
  · intro controller' beyond
    show (memory.dropHandle _).kind _ = _
    rw [kind_dropHandle]
    exact counted.fresh controller' (nextController ▸ beyond)
  · intro gvk controller' entry
    show (memory.dropHandle _).kind _ = _
    rw [kind_dropHandle]
    exact counted.listed gvk controller' (found ▸ entry)
  · intro controller' gvk kind alive
    show (memory.dropHandle _).resourceControllers _ = _
    rw [found]
    refine counted.current controller' gvk (memory.kind_dropHandle _ _ ▸ kind) ?_
    by_cases same : controller' = inst.resourceController
    · exact same ▸ counted.strong.pos controller
    · have positive : 0 < memory.strong.release inst.resourceController controller' := alive
      rwa [RefCounts.release, Function.update_of_ne same] at positive

/-- Handing a slot over leaves the counts exact. -/
theorem move (counted : memory.Counted refs) {id : ObjectSyncRef} {slot heir : Slot}
    {held : Held} {handle : ObjectSyncHandle} (referred : refs (id, slot) = some held)
    (complete : held.handle = some handle) (free : refs (id, heir) = none) :
    memory.Counted
      (Function.update (Function.update refs (id, slot) none) (id, heir) (some held)) := by
  have refers := refers_moved referred free
  refine ⟨?_, ?_, refers ▸ counted.owned, refers ▸ counted.kinds, counted.fresh, counted.listed,
    counted.current⟩
  · rw [Function.comp_update, Function.comp_update]
    exact counted.strong.move (congrArg controllerOf referred) (congrArg controllerOf free)
  · rw [Function.comp_update, Function.comp_update]
    have handed : handleOf (some held) = some handle := complete
    rw [handed]
    exact counted.handles.move ((congrArg handleOf referred).trans handed)
      (congrArg handleOf free)

/-- Cloning an instance leaves the counts exact. -/
theorem retain (counted : memory.Counted refs) {id : ObjectSyncRef} {slot free : Slot}
    {inst : ObjectSyncInstance} (referred : refs (id, slot) = some inst.held)
    (empty : refs (id, free) = none) :
    (memory.retain inst).Counted (Function.update refs (id, free) (some inst.held)) := by
  have refers := refers_cloned referred empty
  have alive : memory.Alive inst.resourceController :=
    counted.strong.pos (congrArg controllerOf referred)
  refine ⟨?_, ?_, refers ▸ counted.owned, refers ▸ counted.kinds, counted.fresh, counted.listed, ?_⟩
  · rw [Function.comp_update]
    exact counted.strong.retain (congrArg controllerOf empty) _
  · rw [Function.comp_update]
    exact counted.handles.retain (congrArg handleOf empty) _
  · intro controller gvk kind alive'
    refine counted.current controller gvk kind ?_
    by_cases same : controller = inst.resourceController
    · exact same ▸ alive
    · have positive : 0 < memory.strong.retain inst.resourceController controller := alive'
      rwa [RefCounts.retain, Function.update_of_ne same] at positive

/-- The kinds of the controllers that were there stay. -/
theorem kind_start_of_kind (counted : memory.Counted refs) (gvk : GroupVersionKind)
    {controller : ControllerId} {gvk' : GroupVersionKind}
    (kind : memory.kind controller = some gvk') :
    (memory.start gvk).kind controller = some gvk' := by
  rw [kind_start, if_neg, kind]
  rintro rfl
  rw [counted.fresh _ le_rfl] at kind
  cases kind

/-- Starting a resource controller leaves the `sources` maps. -/
theorem sources_start (counted : memory.Counted refs) (gvk : GroupVersionKind) :
    (memory.start gvk).sources = memory.sources := by
  funext controller
  by_cases same : controller = memory.nextController
  · subst same
    have absent : memory.controllers memory.nextController = none :=
      Option.map_eq_none_iff.mp (counted.fresh _ le_rfl)
    simp [Memory.sources, Memory.start, absent]
  · simp [Memory.sources, Memory.start, same]

/-- A new resource controller becomes the current one of its kind. -/
theorem start (counted : memory.Counted refs) {gvk : GroupVersionKind}
    (dead : memory.upgrade gvk = none) : (memory.start gvk).Counted refs := by
  refine ⟨counted.strong, counted.handles, counted.owned, ?_, ?_, ?_, ?_⟩
  · exact fun id held refers => counted.kind_start_of_kind gvk (counted.kinds id held refers)
  · intro controller beyond
    rw [kind_start, if_neg (Nat.ne_of_gt beyond)]
    exact counted.fresh controller (Nat.le_of_succ_le beyond)
  · intro gvk' controller entry
    have updated : Function.update memory.resourceControllers gvk (some memory.nextController)
      gvk' = some controller := entry
    by_cases same : gvk' = gvk
    · rw [same, Function.update_self] at updated
      rw [kind_start, if_pos (Option.some.inj updated).symm, same]
    · rw [Function.update_of_ne same] at updated
      exact counted.kind_start_of_kind gvk (counted.listed gvk' controller updated)
  · intro controller gvk' kind alive
    show Function.update memory.resourceControllers gvk _ gvk' = _
    rw [kind_start] at kind
    split at kind
    · rename_i new
      obtain rfl := Option.some.inj kind
      rw [Function.update_self, new]
    · have found := counted.current controller gvk' kind alive
      have other : gvk' ≠ gvk := by
        rintro rfl
        have alive' : memory.Alive controller := alive
        rw [upgrade, found, Option.filter_some, if_pos (decide_eq_true alive')] at dead
        cases dead
      rw [Function.update_of_ne other, found]

/-- Taking hold of a resource controller leaves the counts exact. -/
theorem hold (counted : memory.Counted refs) {id : ObjectSyncRef} {slot : Slot}
    {controller : ControllerId} {gvk : GroupVersionKind} (empty : refs (id, slot) = none)
    (found : memory.resourceControllers gvk = some controller) :
    Counted { memory with strong := memory.strong.retain controller }
      (Function.update refs (id, slot) (some ⟨controller, gvk, none⟩)) := by
  have known := counted.listed gvk controller found
  refine ⟨?_, ?_, ?_, ?_, counted.fresh, counted.listed, ?_⟩
  · rw [Function.comp_update]
    exact counted.strong.retain (congrArg controllerOf empty) _
  · rw [Function.comp_update]
    have same : handleOf (some ⟨controller, gvk, none⟩) = (handleOf ∘ refs) (id, slot) :=
      (congrArg handleOf empty).symm
    rw [same, Function.update_eq_self]
    exact counted.handles
  · intro id' held handle refers complete
    rcases refers.of_set with ⟨-, rfl⟩ | refers
    · cases complete
    · exact counted.owned id' held handle refers complete
  · intro id' held refers
    rcases refers.of_set with ⟨-, rfl⟩ | refers
    · exact known
    · exact counted.kinds id' held refers
  · intro controller' gvk' kind alive
    by_cases same : controller' = controller
    · subst same
      obtain rfl := Option.some.inj (known.symm.trans kind)
      exact found
    · have positive : 0 < memory.strong.retain controller controller' := alive
      rw [RefCounts.retain, Function.update_of_ne same] at positive
      exact counted.current controller' gvk' kind positive

/-- Counts that are exact stay exact when a slot gets a handle by registering its ObjectSync. -/
theorem register (counted : memory.Counted refs) {id : ObjectSyncRef} {slot : Slot}
    {controller : ControllerId} {gvk : GroupVersionKind} {src : SourceRef}
    (referred : refs (id, slot) = some ⟨controller, gvk, none⟩) :
    (memory.exec (.register id controller src)).2.Counted (Function.update refs (id, slot)
      (some ⟨controller, gvk, some (memory.exec (.register id controller src)).1⟩)) := by
  have kinds := @kind_register memory id controller
  have known := counted.kinds id _ ⟨slot, referred⟩
  constructor
  · have same : controllerOf (some ⟨controller, gvk, some
        (memory.exec (.register id controller src)).1⟩) = (controllerOf ∘ refs) (id, slot) :=
      (congrArg controllerOf referred).symm
    rw [Function.comp_update, same, Function.update_eq_self]
    exact counted.strong
  · rw [Function.comp_update]
    exact counted.handles.retain (congrArg handleOf referred) _
  · intro id' held handle' refers complete
    rcases refers.of_set with ⟨rfl, rfl⟩ | refers
    · obtain rfl := Option.some.inj complete
      exact ⟨rfl, Nat.lt_succ_self _, rfl⟩
    · obtain ⟨crd, less, sources⟩ := counted.owned id' held handle' refers complete
      exact ⟨crd, Nat.lt_succ_of_lt less, sources⟩
  · intro id' held refers
    rw [kinds]
    rcases refers.of_set with ⟨-, rfl⟩ | refers
    · exact known
    · exact counted.kinds id' held refers
  · exact fun other beyond => (kinds other src).trans (counted.fresh other beyond)
  · exact fun gvk' other entry => (kinds other src).trans (counted.listed gvk' other entry)
  · exact fun other gvk' kind alive =>
      counted.current other gvk' ((kinds other src).symm.trans kind) alive

/-- All operations leave the counts exact. -/
theorem preserved : Preserved Counted fun _ _ => True where
  release := fun holding held => holding.release held
  move := fun holding referred complete free => holding.move referred complete free
  retain := fun holding referred empty => holding.retain referred empty
  start := fun holding dead => holding.start dead
  hold := fun counted empty found => counted.hold empty found
  register := fun counted referred _ => counted.register referred
  withInstances := fun counted _ => ⟨counted.strong, counted.handles, counted.owned, counted.kinds,
    counted.fresh, counted.listed, counted.current⟩

end Counted

namespace Consistent

variable {memory : Memory} {refs : Owner → Option Held} {owner : Owner}

/-- In a consistent memory the counts are exact. -/
theorem counted (consistent : memory.Consistent refs) : memory.Counted refs :=
  ⟨consistent.strong, consistent.handles, consistent.accounts.owned, consistent.accounts.kinds,
    consistent.fresh, consistent.listed, consistent.current⟩

/-- With exact counts, it remains to see to the registrations. -/
theorem of_counted (counted : memory.Counted refs)
    (registered : ∀ controller src id, (memory.sources controller).Registered src id ↔
      ∃ held handle, Refers refs id held ∧ held.handle = some handle ∧
        handle.sources = controller ∧ handle.src = src)
    (single : ∀ id held held' handle handle', Refers refs id held → Refers refs id held' →
      held.handle = some handle → held'.handle = some handle' →
        handle.sources = handle'.sources → handle.src = handle'.src → handle = handle')
    (nonEmpty : ∀ controller, (memory.sources controller).NonEmpty) : memory.Consistent refs :=
  ⟨counted.strong, counted.handles, ⟨registered, single, counted.owned, counted.kinds⟩,
    counted.fresh, counted.listed, counted.current, nonEmpty⟩

/-- Dropping an instance leaves what other slots refer to. -/
theorem release (consistent : memory.Consistent refs) {inst : ObjectSyncInstance}
    (held : refs owner = some inst.held) :
    (memory.release inst).Consistent (Function.update refs owner none) := by
  have counted := consistent.counted.release held
  have known := consistent.counted.known held
  have owned := consistent.accounts.owned owner.1 _ _ ⟨owner.2, held⟩ rfl
  have handles : (memory.handles.release inst.resourceControllerHandle).Exact
      (handleOf ∘ Function.update refs owner none) := by
    rw [← memory.dropHandle_handles]
    exact counted.handles
  refine of_counted counted ?_ ?_ ?_
  · intro controller' src id
    show ((memory.dropHandle _).sources _).Registered _ _ ↔ _
    rw [registered_dropHandle _ known, consistent.accounts.registered, handles.eq_zero_iff]
    constructor
    · rintro ⟨⟨held', handle', ⟨slot, kept⟩, some', rfl, rfl⟩, others⟩
      have crd := (consistent.accounts.owned id held' handle' ⟨slot, kept⟩ some').1
      by_cases same : handle' = inst.resourceControllerHandle
      · -- Another slot refers to the handle, or its registration were out.
        have shared : ¬∀ owner', handleOf (Function.update refs owner none owner') ≠
            some inst.resourceControllerHandle :=
          fun last => others ⟨last, by rw [same], by rw [same], by rw [← same, crd]⟩
        push Not at shared
        obtain ⟨⟨id', slot'⟩, kept'⟩ := shared
        obtain ⟨held'', refers, some''⟩ := Option.bind_eq_some_iff.mp kept'
        have crd' := (consistent.accounts.owned id' held'' _ (Refers.of_cleared ⟨slot', refers⟩)
          some'').1
        obtain rfl : id' = id := by rw [← crd', ← same, crd]
        exact ⟨held'', _, ⟨slot', refers⟩, some'', by rw [same], by rw [same]⟩
      · refine ⟨held', handle', ⟨slot, ?_⟩, some', rfl, rfl⟩
        have other : (id, slot) ≠ owner := by
          rintro rfl
          rw [held, Option.some.injEq] at kept
          subst kept
          exact same (Option.some.inj some'.symm)
        rwa [Function.update_of_ne other]
    · rintro ⟨held', handle', refers, some', rfl, rfl⟩
      refine ⟨⟨held', handle', refers.of_cleared, some', rfl, rfl⟩, ?_⟩
      rintro ⟨last, sources, src, crd⟩
      obtain rfl : owner.1 = id := owned.1.symm.trans crd.symm
      have same := consistent.accounts.single owner.1 _ _ _ _ refers.of_cleared ⟨owner.2, held⟩
        some' rfl sources src
      obtain ⟨slot, kept⟩ := refers
      refine last (owner.1, slot) ?_
      rw [Function.comp_apply, kept]
      exact same ▸ some'
  · intro id first second handle₁ handle₂ refers refers'
    exact consistent.accounts.single id first second handle₁ handle₂ refers.of_cleared
      refers'.of_cleared
  · exact fun other => nonEmpty_dropHandle other known consistent.nonEmpty

/-- A slot is handed over to another one of the same ObjectSync. -/
theorem move (consistent : memory.Consistent refs) {id : ObjectSyncRef} {slot heir : Slot}
    {held : Held} {handle : ObjectSyncHandle} (referred : refs (id, slot) = some held)
    (complete : held.handle = some handle) (free : refs (id, heir) = none) :
    memory.Consistent
      (Function.update (Function.update refs (id, slot) none) (id, heir) (some held)) := by
  have refers := refers_moved referred free
  refine of_counted (consistent.counted.move referred complete free) ?_ ?_ consistent.nonEmpty
  · rw [refers]
    exact consistent.accounts.registered
  · rw [refers]
    exact consistent.accounts.single

/-- An instance is cloned into a free slot. -/
theorem retain (consistent : memory.Consistent refs) {id : ObjectSyncRef} {slot free : Slot}
    {inst : ObjectSyncInstance} (referred : refs (id, slot) = some inst.held)
    (empty : refs (id, free) = none) :
    (memory.retain inst).Consistent (Function.update refs (id, free) (some inst.held)) := by
  have refers := refers_cloned referred empty
  refine of_counted (consistent.counted.retain referred empty) ?_ ?_ consistent.nonEmpty
  · rw [refers]
    exact consistent.accounts.registered
  · rw [refers]
    exact consistent.accounts.single

/-- A new resource controller is started when none is alive for its kind. -/
theorem start (consistent : memory.Consistent refs) {gvk : GroupVersionKind}
    (dead : memory.upgrade gvk = none) : (memory.start gvk).Consistent refs := by
  have sources := consistent.counted.sources_start gvk
  refine of_counted (consistent.counted.start dead) ?_ consistent.accounts.single ?_
  · rw [sources]
    exact consistent.accounts.registered
  · rw [sources]
    exact consistent.nonEmpty

/-- A slot takes hold of the resource controller of a kind. -/
theorem hold (consistent : memory.Consistent refs) {id : ObjectSyncRef} {slot : Slot}
    {controller : ControllerId} {gvk : GroupVersionKind} (empty : refs (id, slot) = none)
    (found : memory.resourceControllers gvk = some controller) :
    Consistent { memory with strong := memory.strong.retain controller }
      (Function.update refs (id, slot) (some ⟨controller, gvk, none⟩)) := by
  have still {id' : ObjectSyncRef} {held : Held} {handle : ObjectSyncHandle}
      (refers : Refers (Function.update refs (id, slot) (some ⟨controller, gvk, none⟩)) id' held)
      (complete : held.handle = some handle) : Refers refs id' held := by
    rcases refers.of_set with ⟨-, rfl⟩ | refers
    · cases complete
    · exact refers
  refine of_counted (consistent.counted.hold empty found) ?_ ?_ consistent.nonEmpty
  · intro controller' src id'
    refine (consistent.accounts.registered controller' src id').trans ⟨?_, ?_⟩
    · rintro ⟨held, handle, refers, complete⟩
      exact ⟨held, handle, refers.set (by rw [empty]; nofun), complete⟩
    · rintro ⟨held, handle, refers, complete⟩
      exact ⟨held, handle, still refers complete.1, complete⟩
  · intro id' held held' handle handle' refers refers' complete complete'
    exact consistent.accounts.single id' held held' handle handle' (still refers complete)
      (still refers' complete') complete complete'

/-- A memory that is consistent with the references stays so when a slot gets a handle by
registering an ObjectSync where it was not registered before. -/
theorem register (consistent : memory.Consistent refs) {id : ObjectSyncRef} {slot : Slot}
    {controller : ControllerId} {gvk : GroupVersionKind} {src : SourceRef}
    (referred : refs (id, slot) = some ⟨controller, gvk, none⟩)
    (new : ¬(memory.sources controller).Registered src id) :
    (memory.exec (.register id controller src)).2.Consistent (Function.update refs (id, slot)
      (some ⟨controller, gvk, some (memory.exec (.register id controller src)).1⟩)) := by
  have counted := @Counted.register _ _ consistent.counted _ _ _ _ src referred
  generalize handle_eq : (memory.exec (.register id controller src)).1 = handle at counted ⊢
  obtain ⟨number, sources, source, crd⟩ : handle.id = memory.nextHandle ∧
      handle.sources = controller ∧ handle.src = src ∧ handle.crd = id := by
    subst handle_eq
    exact ⟨rfl, rfl, rfl, rfl⟩
  have known := consistent.accounts.kinds id _ ⟨slot, referred⟩
  have maps := sources_register known id src
  have later {id' : ObjectSyncRef} {held : Held} {handle' : ObjectSyncHandle}
      (refers : Refers refs id' held) (complete : held.handle = some handle') :
      Refers (Function.update refs (id, slot) (some ⟨controller, gvk, some handle⟩)) id' held := by
    refine refers.set ?_
    rw [referred]
    rintro ⟨⟩
    cases complete
  -- No other handle stands for the new registration.
  have alone {held : Held} {handle' : ObjectSyncHandle} (refers : Refers refs id held)
      (complete : held.handle = some handle') (same : handle'.sources = controller)
      (same' : handle'.src = src) : False :=
    new ((consistent.accounts.registered controller src id).mpr
      ⟨held, handle', refers, complete, same, same'⟩)
  refine of_counted counted ?_ ?_ ?_
  · intro other src' id'
    rw [maps]
    constructor
    · intro registered
      have cases_ : (other = controller ∧ src' = src ∧ id' = id) ∨
          (memory.sources other).Registered src' id' := by
        by_cases same : other = controller
        · rw [if_pos same] at registered
          rcases (SetMap.holds_add ..).mp registered with ⟨source', id'⟩ | before
          · exact .inl ⟨same, source', id'⟩
          · exact .inr (same ▸ before)
        · rw [if_neg same] at registered
          exact .inr registered
      rcases cases_ with ⟨rfl, rfl, rfl⟩ | before
      · exact ⟨_, handle, ⟨slot, Function.update_self ..⟩, rfl, sources, source⟩
      · obtain ⟨held, handle', refers, complete, rest⟩ :=
          (consistent.accounts.registered ..).mp before
        exact ⟨held, handle', later refers complete, complete, rest⟩
    · rintro ⟨held, handle', refers, complete, rfl, rfl⟩
      rcases refers.of_set with ⟨rfl, rfl⟩ | refers
      · obtain rfl := Option.some.inj complete
        rw [if_pos sources, source]
        exact (SetMap.holds_add ..).mpr (.inl ⟨rfl, rfl⟩)
      · have before := (consistent.accounts.registered ..).mpr
          ⟨held, handle', refers, complete, rfl, rfl⟩
        by_cases same : handle'.sources = controller
        · rw [if_pos same]
          exact (SetMap.holds_add ..).mpr (.inr (same ▸ before))
        · rw [if_neg same]
          exact before
  · intro id' held held' handle₁ handle₂ refers refers' complete complete' same same'
    rcases refers.of_set with ⟨rfl, rfl⟩ | old
    · obtain rfl := Option.some.inj complete
      rcases refers'.of_set with ⟨-, rfl⟩ | old'
      · exact Option.some.inj complete'
      · exact (alone old' complete' (same.symm.trans sources) (same'.symm.trans source)).elim
    · rcases refers'.of_set with ⟨rfl, rfl⟩ | old'
      · obtain rfl := Option.some.inj complete'
        exact (alone old complete (same.trans sources) (same'.trans source)).elim
      · exact consistent.accounts.single id' held held' _ _ old old' complete complete' same same'
  · intro other
    rw [maps]
    split
    · exact SetMap.nonEmpty_add _ _ (consistent.nonEmpty controller)
    · exact consistent.nonEmpty other

end Consistent

end Memory
end ObjectSyncer
