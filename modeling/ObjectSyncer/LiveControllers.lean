import ObjectSyncer.Registration

/-!
# Live resource controllers

A resource controller is alive as long as an instance or the local variable of a run refers to it.
In every interleaving of runs there is at most one for each kind, and it is the one that the
instances of its kind use.
-/
namespace ObjectSyncer

open Collections Interaction

/-- A run refers to a resource controller of a kind. -/
def Locals.Holds (locals : Locals) (gvk : GroupVersionKind) : Prop :=
  (∃ inst, locals.active = some inst ∧ inst.gvk = gvk) ∨
    ∃ held, locals.adding = some held ∧ held.gvk = gvk

/-- Every kind has one resource controller at most, which lives exactly as long as it is used. -/
structure OneControllerPerKind (pool : RunPool) : Prop where
  /-- No two live resource controllers watch the same kind. -/
  single : ∀ first second gvk, pool.world.system.memory.kind first = some gvk →
    pool.world.system.memory.kind second = some gvk → pool.world.system.memory.Alive first →
      pool.world.system.memory.Alive second → first = second
  /-- An instance uses the live resource controller that is listed for its kind, and its handle
  points into the `sources` map of that controller. -/
  instances : ∀ id inst, pool.world.system.memory.instances id = some inst →
    pool.world.system.memory.Alive inst.resourceController ∧
      pool.world.system.memory.kind inst.resourceController = some inst.gvk ∧
      pool.world.system.memory.resourceControllers inst.gvk = some inst.resourceController ∧
      inst.resourceControllerHandle.sources = inst.resourceController
  /-- Without an instance of a kind, and without a run that refers to its resource controller, there
  is no live one. -/
  dropped : ∀ gvk, (∀ id inst, pool.world.system.memory.instances id = some inst → inst.gvk ≠ gvk) →
    (∀ id program, pool.running id = some program → ¬(pool.world.locals id).Holds gvk) →
      ∀ controller, pool.world.system.memory.kind controller = some gvk →
        ¬pool.world.system.memory.Alive controller

namespace Memory

variable {memory : Memory} {refs : Owner → Option Held}

/-- A resource controller that is alive is referred to, for its kind. -/
theorem Counted.exists_refers (counted : memory.Counted refs) {controller : ControllerId}
    {gvk : GroupVersionKind} (kind : memory.kind controller = some gvk)
    (alive : memory.Alive controller) :
    ∃ id held, Refers refs id held ∧ held.controller = controller ∧ held.gvk = gvk := by
  have positive : memory.strong controller ≠ 0 := Nat.ne_of_gt alive
  have referred : ¬∀ owner, (controllerOf ∘ refs) owner ≠ some controller := by
    intro none
    exact positive (counted.strong.eq_zero_iff.mpr none)
  push Not at referred
  obtain ⟨⟨id, slot⟩, found⟩ := referred
  obtain ⟨held, refers, same⟩ := Option.map_eq_some_iff.mp found
  have kinds := counted.kinds id held ⟨slot, refers⟩
  rw [same, kind] at kinds
  exact ⟨id, held, ⟨slot, refers⟩, same, (Option.some.inj kinds).symm⟩

/-- There is at most one live resource controller of a kind. -/
theorem Counted.single (counted : memory.Counted refs) {first second : ControllerId}
    {gvk : GroupVersionKind} (kind : memory.kind first = some gvk)
    (kind' : memory.kind second = some gvk) (alive : memory.Alive first)
    (alive' : memory.Alive second) : first = second := by
  have listed := counted.current first gvk kind alive
  have listed' := counted.current second gvk kind' alive'
  rw [listed] at listed'
  exact Option.some.inj listed'

/-- What is referred to is the live resource controller of its kind. -/
theorem Counted.listed_of_refers (counted : memory.Counted refs) {id : ObjectSyncRef} {held : Held}
    (refers : Refers refs id held) :
    memory.Alive held.controller ∧ memory.kind held.controller = some held.gvk ∧
      memory.resourceControllers held.gvk = some held.controller := by
  have kind := counted.kinds id held refers
  obtain ⟨slot, found⟩ := refers
  have alive : memory.Alive held.controller := counted.strong.pos (congrArg controllerOf found)
  exact ⟨alive, kind, counted.current _ _ kind alive⟩

/-- The counts of a controller that has just started are exact. -/
theorem counted_empty (locals : ObjectSyncRef → Locals) (idle : ∀ id, locals id = Locals.none) :
    Memory.empty.Counted (references Memory.empty locals) :=
  (Memory.consistent_empty locals idle).counted

end Memory

/-- **Live controllers.** In every interleaving of runs of `check` and `delete`, from a controller
that has just started, every kind has at most one live resource controller; the instances use it,
and it is dropped with the last instance or run that refers to it. -/
theorem one_controller_per_kind {start pool : RunPool}
    (empty : start.world.system.memory = Memory.empty)
    (idle : ∀ id, start.running id = none ∧ start.world.locals id = Locals.none)
    (reach : (registrations fun _ _ => True).Reach start pool) : OneControllerPerKind pool := by
  have holds := accounting_holds Memory.Counted.preserved Memory.counted_empty empty idle reach
  have counted : pool.world.system.memory.Counted
      (references pool.world.system.memory pool.world.locals) := holds.world
  constructor
  · intro first second gvk kind kind' alive alive'
    exact counted.single kind kind' alive alive'
  · intro id inst entry
    have refers : Memory.Refers (references pool.world.system.memory pool.world.locals) id
        inst.held := ⟨.entry, by rw [references, entry]; rfl⟩
    have listed := counted.listed_of_refers refers
    have owned := counted.owned id inst.held _ refers rfl
    exact ⟨listed.1, listed.2.1, listed.2.2, owned.2.2⟩
  · intro gvk unused unheld controller kind alive
    obtain ⟨id, held, ⟨slot, refers⟩, -, same⟩ := counted.exists_refers kind alive
    -- The local variables of an ObjectSync without a run refer to nothing.
    have running (other : pool.world.locals id ≠ Locals.none) :
        ¬(pool.world.locals id).Holds gvk := by
      cases found : pool.running id with
      | none => exact absurd (holds.idle id found).symm other
      | some program => exact unheld id program found
    cases slot with
    | entry =>
      obtain ⟨inst, entry, rfl⟩ := Option.map_eq_some_iff.mp refers
      exact unused id inst entry same
    | active =>
      obtain ⟨inst, active, rfl⟩ := Option.map_eq_some_iff.mp refers
      have busy : pool.world.locals id ≠ Locals.none := by
        intro none
        rw [none] at active
        cases active
      exact running busy (.inl ⟨inst, active, same⟩)
    | adding =>
      have adding : (pool.world.locals id).adding = some held := refers
      have busy : pool.world.locals id ≠ Locals.none := by
        intro none
        rw [none] at adding
        cases adding
      exact running busy (.inr ⟨held, adding, same⟩)

/-- After a source was changed and changed back, the ObjectSync uses the only live controller. -/
theorem registrationLost_one_controller :
    (registrationLost.world.system.memory.instances settingsRef).map (·.resourceController) =
        some 0 ∧
      OneControllerPerKind registrationLost :=
  ⟨by decide +kernel,
    one_controller_per_kind rfl (fun _ => ⟨rfl, rfl⟩) registrationLost_reached⟩

end ObjectSyncer
