import ObjectSyncer.Accounts
import ObjectSyncer.Interaction.Pool
import ObjectSyncer.System

/-!
# Registrations and instances

Runs of `check` and `delete` for all ObjectSyncs, interleaved in any way. The local variables of
each run are recorded next to the shared memory, so that every reference has its owner; then the
registrations are those of the instances, as long as no ObjectSync is registered a second time
under one source.
-/
namespace ObjectSyncer

open Collections Interaction Interaction.Program

/-- The local variables of a run of `check` that refer to shared memory. -/
structure Locals where
  /-- The clone of the instance. -/
  active : Option ObjectSyncInstance
  /-- What `add` has obtained so far. -/
  adding : Option Held
  deriving DecidableEq, Repr

namespace Locals

/-- Outside of a run nothing is referred to. -/
def none : Locals := ⟨.none, .none⟩

/-- What a run refers to after a call. -/
def see (locals : Locals) : (call : Call) → Reply call → Locals
  | .memory (.getInstance _), found => { locals with active := found }
  | .memory (.dropInstance ..), _ => { locals with active := .none }
  | .memory (.upgradeOrNew _ gvk), controller =>
    { locals with adding := some ⟨controller, gvk, .none⟩ }
  | .memory (.register ..), handle =>
    { locals with adding := locals.adding.map fun held => { held with handle := some handle } }
  | .memory (.insertInstance ..), _ => { locals with adding := .none }
  | _, _ => locals

/-- What a run for an ObjectSync may do with its local variables. -/
def Permits (locals : Locals) (id : ObjectSyncRef) : MemoryOp → Prop
  | .getInstance id' => id' = id ∧ locals.active = .none
  | .removeInstance id' => id' = id
  | .insertInstance id' inst => id' = id ∧ locals.adding = some inst.held
  | .dropInstance id' inst => id' = id ∧ locals.active = some inst
  | .upgradeOrNew id' _ => id' = id ∧ locals.adding = .none
  | .register id' controller _ => id' = id ∧ ∃ gvk, locals.adding = some ⟨controller, gvk, .none⟩
  | .lookup .. => True

end Locals

/-- All references into the memory. -/
def references (memory : Memory) (locals : ObjectSyncRef → Locals) : Owner → Option Held
  | (id, .entry) => (memory.instances id).map (·.held)
  | (id, .active) => (locals id).active.map (·.held)
  | (id, .adding) => (locals id).adding

section References

variable {memory : Memory} {locals : ObjectSyncRef → Locals} {id : ObjectSyncRef}

/-- References depend on no other part of the memory than `instances`. -/
theorem references_congr {memory' : Memory} (same : memory'.instances = memory.instances) :
    references memory' locals = references memory locals := by
  funext ⟨id', slot⟩
  cases slot <;> simp only [references, same]

/-- An entry of `instances` is put or removed. -/
theorem references_entry (memory : Memory) (locals : ObjectSyncRef → Locals) (id : ObjectSyncRef)
    (inst : Option ObjectSyncInstance) :
    references { memory with instances := Function.update memory.instances id inst } locals =
      Function.update (references memory locals) (id, .entry) (inst.map (·.held)) := by
  funext ⟨id', slot⟩
  by_cases same : id' = id
  · subst same
    cases slot <;> simp [references]
  · cases slot <;> simp [references, same]

/-- The clone of an instance is set or dropped. -/
theorem references_active (memory : Memory) (locals : ObjectSyncRef → Locals) (id : ObjectSyncRef)
    (inst : Option ObjectSyncInstance) :
    references memory (Function.update locals id { locals id with active := inst }) =
      Function.update (references memory locals) (id, .active) (inst.map (·.held)) := by
  funext ⟨id', slot⟩
  by_cases same : id' = id
  · subst same
    cases slot <;> simp [references]
  · cases slot <;> simp [references, same]

/-- What `add` has obtained is set or handed over. -/
theorem references_adding (memory : Memory) (locals : ObjectSyncRef → Locals) (id : ObjectSyncRef)
    (held : Option Held) :
    references memory (Function.update locals id { locals id with adding := held }) =
      Function.update (references memory locals) (id, .adding) held := by
  funext ⟨id', slot⟩
  by_cases same : id' = id
  · subst same
    cases slot <;> simp [references]
  · cases slot <;> simp [references, same]

/-- Dropping an instance leaves `instances`. -/
theorem Memory.release_instances (memory : Memory) (inst : ObjectSyncInstance) :
    (memory.release inst).instances = memory.instances :=
  (memory.dropHandle_frame inst.resourceControllerHandle).2.2.1

/-- Discarding an entry removes what it refers to. -/
theorem references_discard (memory : Memory) (locals : ObjectSyncRef → Locals)
    (id : ObjectSyncRef) :
    references (memory.discard id) locals =
      Function.update (references memory locals) (id, .entry) none := by
  unfold Memory.discard
  cases entry : memory.instances id with
  | none =>
    have empty : references memory locals (id, .entry) = none := by simp [references, entry]
    rw [← empty, Function.update_eq_self]
  | some inst =>
    dsimp only
    rw [references_congr (Memory.release_instances _ _), references_entry]
    rfl

end References

namespace Memory.Preserved

variable {holds : Memory → (Owner → Option Held) → Prop} {permits : Memory → MemoryOp → Prop}
  {memory : Memory} {locals : ObjectSyncRef → Locals} {id : ObjectSyncRef}

/-- Discarding an entry keeps the property. -/
theorem discard (preserved : Preserved holds permits)
    (holding : holds memory (references memory locals)) (id : ObjectSyncRef) :
    holds (memory.discard id) (references (memory.discard id) locals) := by
  rw [references_discard]
  unfold Memory.discard
  cases entry : memory.instances id with
  | none =>
    have empty : references memory locals (id, .entry) = none := by simp [references, entry]
    rw [← empty, Function.update_eq_self]
    exact holding
  | some inst =>
    have referred : references memory locals (id, .entry) = some inst.held := by
      simp [references, entry]
    exact preserved.release (preserved.withInstances holding _) referred

/-- Everything that a run does with the shared memory keeps the property, as far as its operations
are permitted. -/
theorem exec (preserved : Preserved holds permits)
    (holding : holds memory (references memory locals)) {op : MemoryOp}
    (proper : (locals id).Permits id op) (permitted : permits memory op) :
    holds (memory.exec op).2 (references (memory.exec op).2
      (Function.update locals id ((locals id).see (.memory op) (memory.exec op).1))) := by
  cases op with
  | getInstance id' =>
    obtain ⟨rfl, idle⟩ := proper
    have free : references memory locals (id', .active) = none := by simp [references, idle]
    simp only [Memory.exec]
    cases entry : memory.instances id' with
    | none =>
      dsimp only [Locals.see]
      rw [references_active, Option.map_none, ← free, Function.update_eq_self]
      exact holding
    | some inst =>
      have referred : references memory locals (id', .entry) = some inst.held := by
        simp [references, entry]
      dsimp only [Locals.see]
      rw [references_active]
      have cloned := preserved.retain holding referred free
      exact cloned
  | removeInstance id' =>
    obtain rfl : id' = id := proper
    show holds (memory.discard id') (references _ (Function.update locals id' (locals id')))
    rw [Function.update_eq_self]
    exact preserved.discard holding id'
  | insertInstance id' inst =>
    obtain ⟨rfl, complete⟩ := proper
    have discarded := preserved.discard holding id'
    have adding : references (memory.discard id') locals (id', .adding) = some inst.held := complete
    have free : references (memory.discard id') locals (id', .entry) = none := by
      rw [references_discard, Function.update_self]
    dsimp only [Memory.exec, Locals.see]
    rw [references_adding, references_entry, Function.update_comm (by simp)]
    have moved := preserved.move discarded adding rfl free
    exact preserved.withInstances moved _
  | dropInstance id' inst =>
    obtain ⟨rfl, cloned⟩ := proper
    have referred : references memory locals (id', .active) = some inst.held := by
      simp [references, cloned]
    dsimp only [Memory.exec, Locals.see]
    rw [references_active, references_congr (Memory.release_instances _ _)]
    exact preserved.release holding referred
  | upgradeOrNew id' gvk =>
    obtain ⟨rfl, idle⟩ := proper
    have free : references memory locals (id', .adding) = none := idle
    simp only [Memory.exec]
    cases found : memory.upgrade gvk with
    | some controller =>
      dsimp only [Locals.see]
      rw [references_adding]
      have kept := preserved.hold holding free (Option.filter_eq_some_iff.mp found).1
      exact kept
    | none =>
      dsimp only [Locals.see]
      rw [references_adding]
      have started := preserved.start holding found
      have kept := preserved.hold started free (Function.update_self ..)
      exact kept
  | register id' controller src =>
    obtain ⟨rfl, gvk, held⟩ := proper
    have referred : references memory locals (id', .adding) = some ⟨controller, gvk, none⟩ := held
    have registered := preserved.register holding referred permitted
    dsimp only [Locals.see]
    rw [held, Option.map_some, references_adding]
    exact registered
  | lookup controller src =>
    show holds memory (references _ (Function.update locals id (locals id)))
    rw [Function.update_eq_self]
    exact holding

end Memory.Preserved

/-- What a run does with its local variables. -/
@[reducible] def localRun (id : ObjectSyncRef) : Contract Call Reply Locals where
  rely := fun before after => before = after
  answers := fun before call reply after => Honest call reply ∧ after = before.see call reply
  guarantee := fun before call _ _ => ∀ op, call = .memory op → before.Permits id op

section Runs

variable {α : Type} {id : ObjectSyncRef} {locals : Locals} {event : ObjectSyncModifications}

/-- Calls other than to the memory leave the local variables. -/
theorem wp_outside {result : α → Prop} {program : Async α}
    (shape : program.wp (.requests Honest Outside) (fun value _ => result value) ()) :
    program.wp (localRun id) (fun value after => result value ∧ locals = after) locals := by
  refine wp_requests shape (fun _ _ _ _ answered => answered.1) ?_ ?_ rfl
  · intro before moved same still
    exact same.trans still
  · intro before call reply after same outside answered
    cases call with
    | memory op => exact outside.elim
    | api request => exact ⟨by rintro op ⟨⟩, same.trans answered.2.symm⟩
    | namespaces => exact ⟨by rintro op ⟨⟩, same.trans answered.2.symm⟩
    | clock => exact ⟨by rintro op ⟨⟩, same.trans answered.2.symm⟩

/-- Registering leaves nothing in the local variables of `add`. -/
theorem wp_add {active : Option ObjectSyncInstance} (of : event.Of id) (gvk : GroupVersionKind) :
    (ObjectSyncController.add event gvk).wp (localRun id)
      (fun _ after => Locals.mk active none = after) ⟨active, none⟩ := by
  unfold ObjectSyncController.add
  rw [of.identity, wp_memory]
  rintro _ rfl controller _ ⟨-, rfl⟩
  refine ⟨by rintro op ⟨⟩; exact ⟨rfl, rfl⟩, ?_⟩
  rw [wp_memory]
  rintro _ rfl handle _ ⟨-, rfl⟩
  refine ⟨by rintro op ⟨⟩; exact ⟨rfl, gvk, rfl⟩, ?_⟩
  unfold Async.memory Program.perform
  rw [wp_call]
  rintro _ rfl reply _ ⟨-, rfl⟩
  exact ⟨by rintro op ⟨⟩; exact ⟨rfl, rfl⟩, rfl⟩

/-- Moving to another source leaves the clone of the instance. -/
theorem wp_moveSource {active : Option ObjectSyncInstance} (of : event.Of id)
    (gvk : GroupVersionKind) :
    (ObjectSyncController.moveSource event gvk).wp (localRun id)
      (fun value after => value.1.Of id ∧ Locals.mk active none = after) ⟨active, none⟩ := by
  unfold ObjectSyncController.moveSource ObjectSyncController.remove
  rw [of.identity, wp_memory]
  rintro _ rfl removed _ ⟨-, rfl⟩
  refine ⟨by rintro op ⟨⟩; exact rfl, ?_⟩
  rw [wp_bind]
  refine wp_imp ?_ (wp_outside (ObjectSyncController.of_deleteDestinations of))
  rintro ⟨event', result⟩ _ ⟨of', rfl⟩
  cases result with
  | error e => exact ⟨of', rfl⟩
  | ok =>
    dsimp only
    rw [wp_bind]
    exact wp_imp (fun _ _ same => ⟨of', same⟩) (wp_add of' gvk)

/-- A run of `check` leaves nothing in its local variables. -/
theorem wp_check (of : event.Of id) :
    (ObjectSyncController.check event).wp (localRun id) (fun _ after => Locals.none = after)
      Locals.none := by
  unfold ObjectSyncController.check
  rw [wp_bind]
  refine wp_imp ?_ (wp_outside (ObjectSyncController.of_addFinalizerIfMissing of))
  rintro ⟨event, result⟩ _ ⟨of, rfl⟩
  cases result with
  | error e => rfl
  | ok =>
    dsimp only at of ⊢
    rw [wp_bind]
    refine wp_imp ?_ (wp_outside (@ObjectSyncController.requests_getGvk Outside _ trivial))
    rintro result _ ⟨-, rfl⟩
    cases result with
    | error e => rfl
    | ok currentGvk =>
      dsimp only
      rw [wp_memory]
      rintro _ rfl found _ ⟨-, rfl⟩
      refine ⟨by rintro op ⟨⟩; exact ⟨of.identity, rfl⟩, ?_⟩
      cases found with
      | none =>
        dsimp only
        rw [wp_bind]
        refine wp_imp ?_ (wp_add of currentGvk)
        rintro _ _ rfl
        exact wp_imp (fun _ _ kept => kept.2)
          (wp_outside (ObjectSyncController.of_publish of _))
      | some active =>
        dsimp only
        split
        · rw [wp_bind]
          refine wp_imp ?_ (wp_moveSource of currentGvk)
          rintro ⟨event, result⟩ _ ⟨of, rfl⟩
          cases result with
          | error e =>
            dsimp only at of ⊢
            rw [wp_memory]
            rintro _ rfl _ _ ⟨-, rfl⟩
            exact ⟨by rintro op ⟨⟩; exact ⟨of.identity, rfl⟩, rfl⟩
          | ok =>
            dsimp only at of ⊢
            rw [wp_memory]
            rintro _ rfl _ _ ⟨-, rfl⟩
            refine ⟨by rintro op ⟨⟩; exact ⟨of.identity, rfl⟩, ?_⟩
            exact wp_imp (fun _ _ kept => kept.2)
              (wp_outside (ObjectSyncController.of_publish of _))
        · rw [wp_memory]
          rintro _ rfl _ _ ⟨-, rfl⟩
          exact ⟨by rintro op ⟨⟩; exact ⟨of.identity, rfl⟩, rfl⟩

/-- A run of `delete` uses no local variables. -/
theorem wp_delete_locals (of : event.Of id) :
    (ObjectSyncController.delete event).wp (localRun id) (fun _ after => Locals.none = after)
      Locals.none := by
  unfold ObjectSyncController.delete ObjectSyncController.remove
  rw [of.identity, wp_memory]
  rintro _ rfl removed _ ⟨-, rfl⟩
  refine ⟨by rintro op ⟨⟩; exact rfl, ?_⟩
  rw [wp_bind]
  refine wp_imp ?_ (wp_outside (ObjectSyncController.of_deleteDestinations of))
  rintro ⟨event', result⟩ _ ⟨of', rfl⟩
  cases result with
  | error e => rfl
  | ok =>
    dsimp only
    rw [wp_bind]
    refine wp_imp ?_ (wp_outside (@ObjectSyncController.requests_releaseSource Outside event'
      trivial (fun _ => trivial) fun _ _ => trivial))
    rintro result _ ⟨-, rfl⟩
    cases result with
    | error e => rfl
    | ok =>
      dsimp only
      rw [wp_bind]
      exact wp_imp (fun _ _ kept => kept.2)
        (wp_outside (ObjectSyncController.of_removeFinalizer of'))

end Runs

/-! ## All runs together -/

/-- The system with the local variables of the run for each ObjectSync. -/
structure Registrations where
  system : System
  locals : ObjectSyncRef → Locals

/-- An operation registers no ObjectSync where it is registered already. -/
def RegistersAnew (memory : Memory) : MemoryOp → Prop
  | .register id controller src => ¬(memory.sources controller).Registered src id
  | _ => True

/-- Whether an operation registers nobody twice can be computed. -/
instance (memory : Memory) (op : MemoryOp) : Decidable (RegistersAnew memory op) := by
  cases op <;> unfold RegistersAnew <;> infer_instance

/-- Runs of `check` and `delete`, at most one for each ObjectSync at a time, from any snapshot of
it and with any replies, while users and others change the server at will. The operations on the
memory may be restricted. -/
def registrations (permits : Memory → MemoryOp → Prop) :
    Rules ObjectSyncRef Call Reply Registrations
    (ObjectSyncModifications × Except ControllerError Unit) where
  starts := fun id before program after => ∃ sync, ObjectSyncRef.ofSync sync = id ∧
    (program = ObjectSyncController.check (.new sync) ∨
      program = ObjectSyncController.delete (.new sync)) ∧ after = before
  answers := fun id before call reply after =>
    System.answersBy (Faulty (some id)) before.system call reply after.system ∧
      (∀ op, call = .memory op → permits before.system.memory op) ∧
      after.locals = Function.update before.locals id ((before.locals id).see call reply)
  ends := fun _ before _ after => after = before
  moves := fun before after =>
    after.system.memory = before.system.memory ∧ after.locals = before.locals

/-- As long as nothing is registered twice, all operations keep the memory consistent. -/
theorem Memory.Consistent.preserved : Memory.Preserved Memory.Consistent RegistersAnew where
  release := fun holding held => holding.release held
  move := fun holding referred complete free => holding.move referred complete free
  retain := fun holding referred empty => holding.retain referred empty
  start := fun holding dead => holding.start dead
  hold := fun consistent empty found => consistent.hold empty found
  register := fun consistent referred new => consistent.register referred new
  withInstances := fun consistent _ => of_counted
    (Memory.Counted.preserved.withInstances consistent.counted _) consistent.accounts.registered
    consistent.accounts.single consistent.nonEmpty

section Accounting

variable {holds : Memory → (Owner → Option Held) → Prop} {permits : Memory → MemoryOp → Prop}

/-- Each run relies on its local variables, and all of them keep a property of the memory that the
permitted operations keep. -/
def accountingDiscipline (holds : Memory → (Owner → Option Held) → Prop)
    (permits : Memory → MemoryOp → Prop) : Discipline (registrations permits) where
  invariant := fun state => holds state.system.memory (references state.system.memory state.locals)
  rely := fun id before after => before.locals id = after.locals id
  ensures := fun _ _ _ _ _ => True
  idle := fun id state => Locals.none = state.locals id
  post := fun id _ state => Locals.none = state.locals id
  rely_refl := fun _ _ => rfl
  rely_trans := fun first second => first.trans second
  idle_stable := fun _ _ same idle => idle.trans same
  post_stable := fun same _ idle => idle.trans same
  ends := by
    rintro id before value after holding idle rfl
    exact ⟨holding, idle, fun _ _ => rfl⟩
  moves := by
    rintro before after holding ⟨memory, locals⟩
    rw [memory, locals]
    exact ⟨holding, fun _ => rfl⟩

/-- A call that uses the local variables as it may keeps the property. -/
theorem accounting_kept (preserved : Memory.Preserved holds permits) {id : ObjectSyncRef}
    {before after : Registrations} {call : Call} {reply : Reply call}
    (holding : (accountingDiscipline holds permits).invariant before)
    (answered : (registrations permits).answers id before call reply after)
    (proper : ∀ op, call = .memory op → (before.locals id).Permits id op) :
    (accountingDiscipline holds permits).invariant after := by
  obtain ⟨served, permitted, locals⟩ := answered
  show holds after.system.memory (references after.system.memory after.locals)
  rw [locals]
  cases call with
  | memory op =>
    have executed := served.1
    have kept := preserved.exec holding (proper op rfl) (permitted op rfl)
    rw [executed] at kept
    exact kept
  | api request =>
    rw [served.2]
    have same : (before.locals id).see (.api request) reply = before.locals id := rfl
    rw [same, Function.update_eq_self]
    exact holding
  | namespaces =>
    have same : (before.locals id).see .namespaces reply = before.locals id := rfl
    have still : after.system = before.system := served
    rw [same, Function.update_eq_self, still]
    exact holding
  | clock =>
    have same : (before.locals id).see .clock reply = before.locals id := rfl
    have still : after.system = before.system := served
    rw [same, Function.update_eq_self, still]
    exact holding

/-- A run that keeps its local variables in order keeps its part. -/
theorem wp_accounting (preserved : Memory.Preserved holds permits) {id : ObjectSyncRef}
    {program : Async (ObjectSyncModifications × Except ControllerError Unit)}
    {state : Registrations}
    (kept : program.wp (localRun id) (fun _ after => Locals.none = after) (state.locals id)) :
    program.wp ((accountingDiscipline holds permits).contract id)
      ((accountingDiscipline holds permits).post id) state := by
  refine wp_mono ?_ ?_ ?_ ?_
    (wp_view ((accountingDiscipline holds permits).contract id) (·.locals id) ?_ ?_ kept)
  · exact fun _ _ moves => moves
  · exact fun _ _ _ _ answered => answered
  · intro before call reply after answered proper
    refine ⟨accounting_kept preserved answered.1 answered.2 proper, fun other different => ?_,
      trivial⟩
    show before.locals other = after.locals other
    rw [answered.2.2.2, Function.update_of_ne different]
  · exact fun _ _ kept => kept
  · exact fun _ _ moves => moves.1
  · intro before call reply after answered
    refine ⟨System.answersBy_honest answered.2.1, ?_⟩
    rw [answered.2.2.2, Function.update_self]

/-- All runs of the main controller keep their parts of the discipline. -/
theorem accountingDiscipline_kept (preserved : Memory.Preserved holds permits) :
    (accountingDiscipline holds permits).Kept := by
  rintro id before program after holding idle ⟨sync, same, runs, rfl⟩
  refine ⟨holding, fun _ _ => rfl, wp_accounting preserved ?_⟩
  have none : after.locals id = Locals.none := idle.symm
  rw [none]
  have of := ObjectSyncModifications.of_new same
  rcases runs with rfl | rfl
  · exact wp_check of
  · exact wp_delete_locals of

end Accounting

/-- Each run relies on its local variables, and all of them keep the memory consistent. -/
def registrationDiscipline : Discipline (registrations RegistersAnew) :=
  accountingDiscipline Memory.Consistent RegistersAnew

/-- The memory of a controller that has just started is consistent. -/
theorem Memory.consistent_empty (locals : ObjectSyncRef → Locals)
    (idle : ∀ id, locals id = Locals.none) :
    Memory.empty.Consistent (references Memory.empty locals) := by
  have nothing : references Memory.empty locals = fun _ => Option.none := by
    funext ⟨id, slot⟩
    cases slot <;> simp [references, Memory.empty, idle, Locals.none]
  rw [nothing]
  refine ⟨RefCounts.exact_zero, RefCounts.exact_zero, ⟨?_, ?_, ?_, ?_⟩, ?_, ?_, ?_, ?_⟩
  · intro controller src id
    refine ⟨fun registered => absurd registered (SetMap.not_holds_empty src id), ?_⟩
    rintro ⟨held, handle, ⟨slot, refers⟩, -⟩
    cases refers
  · rintro id held held' handle handle' ⟨slot, refers⟩
    cases refers
  · rintro id held handle ⟨slot, refers⟩
    cases refers
  · rintro id held ⟨slot, refers⟩
    cases refers
  · exact fun _ _ => rfl
  · intro gvk controller entry
    cases entry
  · intro controller gvk kind
    cases kind
  · exact fun _ => SetMap.nonEmpty_empty

/-- In a consistent memory, an ObjectSync without a run is registered under a source of a live
controller exactly when its entry in `instances` says so. -/
theorem Memory.Consistent.registered_iff {memory : Memory} {locals : ObjectSyncRef → Locals}
    (consistent : memory.Consistent (references memory locals)) {id : ObjectSyncRef}
    (idle : locals id = Locals.none) {controller : ControllerId} {gvk : GroupVersionKind}
    (kind : memory.kind controller = some gvk) (alive : memory.Alive controller)
    (src : SourceRef) :
    (memory.sources controller).Registered src id ↔
      ∃ inst, memory.instances id = some inst ∧ inst.gvk = gvk ∧
        inst.resourceControllerHandle.src = src := by
  rw [consistent.accounts.registered]
  constructor
  · rintro ⟨held, handle, ⟨slot, refers⟩, complete, rfl, rfl⟩
    have kinds := consistent.accounts.kinds id held ⟨slot, refers⟩
    have owned := consistent.accounts.owned id held handle ⟨slot, refers⟩ complete
    cases slot with
    | entry =>
      obtain ⟨inst, entry, rfl⟩ := Option.map_eq_some_iff.mp refers
      obtain rfl := Option.some.inj complete
      rw [owned.2.2, kinds] at kind
      exact ⟨inst, entry, Option.some.inj kind, rfl⟩
    | active =>
      rw [references, idle] at refers
      cases refers
    | adding =>
      rw [references, idle] at refers
      cases refers
  · rintro ⟨inst, entry, rfl, rfl⟩
    have refers : references memory locals (id, .entry) = some inst.held := by
      rw [references, entry]
      rfl
    have owned := consistent.accounts.owned id _ _ ⟨.entry, refers⟩ rfl
    have kinds := consistent.accounts.kinds id _ ⟨.entry, refers⟩
    have alive' : memory.Alive inst.resourceController :=
      consistent.strong.pos (congrArg controllerOf refers)
    -- There is one live controller for each kind.
    have same : inst.resourceController = controller := by
      have found := consistent.current inst.resourceController inst.gvk kinds alive'
      rw [consistent.current controller inst.gvk kind alive] at found
      exact (Option.some.inj found).symm
    exact ⟨inst.held, _, ⟨.entry, refers⟩, rfl, owned.2.2.trans same, rfl⟩

/-- The pools of runs of the main controller. -/
abbrev RunPool := Pool ObjectSyncRef Call Reply Registrations
  (ObjectSyncModifications × Except ControllerError Unit)

/-- From a controller that has just started, every interleaving of permitted operations keeps a
property that they keep, and the local variables of every run. -/
theorem accounting_holds {holds : Memory → (Owner → Option Held) → Prop}
    {permits : Memory → MemoryOp → Prop} (preserved : Memory.Preserved holds permits)
    (first : ∀ locals, (∀ id, locals id = Locals.none) →
      holds Memory.empty (references Memory.empty locals))
    {start pool : RunPool} (empty : start.world.system.memory = Memory.empty)
    (idle : ∀ id, start.running id = none ∧ start.world.locals id = Locals.none)
    (reach : (registrations permits).Reach start pool) :
    (accountingDiscipline holds permits).Holds pool := by
  refine Discipline.Holds.reach (accountingDiscipline_kept preserved)
    ⟨?_, fun id _ => (idle id).2.symm, fun id program running => ?_⟩ reach
  · show holds start.world.system.memory _
    rw [empty]
    exact first _ fun id => (idle id).2
  · rw [(idle id).1] at running
    cases running

/-- In every interleaving in which nothing is registered twice, the assertions of all runs hold. -/
theorem registrations_hold
    {start pool : Pool ObjectSyncRef Call Reply Registrations
      (ObjectSyncModifications × Except ControllerError Unit)}
    (empty : start.world.system.memory = Memory.empty)
    (idle : ∀ id, start.running id = none ∧ start.world.locals id = Locals.none)
    (reach : (registrations RegistersAnew).Reach start pool) :
    registrationDiscipline.Holds pool :=
  accounting_holds Memory.Consistent.preserved Memory.consistent_empty empty idle reach

/-- **Registrations.** As long as no run registers an ObjectSync where it is registered already, in
every interleaving of runs no source is mapped to an empty set, and an ObjectSync without a run is
registered with a live controller under a source if and only if its instance says so. -/
theorem registered_iff_instance
    {start pool : Pool ObjectSyncRef Call Reply Registrations
      (ObjectSyncModifications × Except ControllerError Unit)}
    (empty : start.world.system.memory = Memory.empty)
    (idle : ∀ id, start.running id = none ∧ start.world.locals id = Locals.none)
    (reach : (registrations RegistersAnew).Reach start pool) :
    (∀ controller, (pool.world.system.memory.sources controller).NonEmpty) ∧
      ∀ id, pool.running id = none → ∀ controller gvk src,
        pool.world.system.memory.kind controller = some gvk →
        pool.world.system.memory.Alive controller →
          ((pool.world.system.memory.sources controller).Registered src id ↔
            ∃ inst, pool.world.system.memory.instances id = some inst ∧ inst.gvk = gvk ∧
              inst.resourceControllerHandle.src = src) := by
  have holds := registrations_hold empty idle reach
  refine ⟨holds.world.nonEmpty, fun id stopped controller gvk src kind alive => ?_⟩
  exact holds.world.registered_iff (holds.idle id stopped).symm kind alive src

/-! ## A lost registration -/

/-- Answer all calls of a run, with nothing failing. -/
def Registrations.answer (id : ObjectSyncRef) (resourceVersion : String) :
    Handler Call Reply Registrations :=
  fun state call =>
    let (reply, system) :=
      state.system.answer (some id) ⟨"u", resourceVersion, 0, []⟩ [] "now" call
    (reply, ⟨system, Function.update state.locals id ((state.locals id).see call reply)⟩)

/-- The answers to a run are possible, where the operations on the memory are permitted. -/
theorem Registrations.answer_allowed {permits : Memory → MemoryOp → Prop} (id : ObjectSyncRef)
    (resourceVersion : String) (state : Registrations) (call : Call)
    (permitted : ∀ op, call = .memory op → permits state.system.memory op) :
    (registrations permits).answers id state call
      (Registrations.answer id resourceVersion state call).1
      (Registrations.answer id resourceVersion state call).2 :=
  ⟨System.answersBy_mono (fun _ _ _ _ => .served) (System.answer_allowed ..), permitted, rfl⟩

/-- The ObjectSync with one tracked destination. -/
def trackedSync : ObjectSync :=
  settingsSync.updateDestinations [configMaps.expectedStatus ("team", "settings", none)]

/-- An ObjectSync with another source and one tracked destination. -/
def labelsSync : ObjectSync :=
  { settingsSync with
    metadata := { settingsSync.metadata with name := some "labels" }
    spec := ⟨⟨"", none, "ConfigMap", "labels", none⟩, [⟨none, "team", none⟩]⟩
    status := some (ObjectSyncStatus.default.updateDestinations
      [configMaps.expectedStatus ("team", "labels", none)]) }

/-- The identity of the ObjectSync of the labels. -/
def labelsRef : ObjectSyncRef := ⟨⟨"labels", "default"⟩⟩

namespace RunPool

/-- An ObjectSync as it is stored. -/
def current (pool : RunPool) (id : ObjectSyncRef) : ObjectSync :=
  (pool.world.system.server.syncs id.name).getD trackedSync

/-- The ObjectSync is there and no run of the controller has started. -/
def fresh : RunPool :=
  ⟨⟨⟨Server.empty.putSync settingsRef.name (some trackedSync) (by rintro _ ⟨⟩; exact ⟨rfl, rfl⟩),
    Memory.empty⟩, fun _ => Locals.none⟩, fun _ => none⟩

/-- Two ObjectSyncs are there and no run of the controller has started. -/
def freshBoth : RunPool :=
  ⟨⟨⟨fresh.world.system.server.putSync labelsRef.name (some labelsSync)
    (by rintro _ ⟨⟩; exact ⟨rfl, rfl⟩), Memory.empty⟩, fun _ => Locals.none⟩, fun _ => none⟩

/-- The pool after a run of `check` has started. -/
def check (pool : RunPool) (id : ObjectSyncRef) : RunPool :=
  pool.set id (some (ObjectSyncController.check (.new (pool.current id)))) pool.world

/-- A user changes the name of the source of the settings. -/
def edit (pool : RunPool) (source resourceVersion : String) : RunPool :=
  { pool with
    world :=
      { pool.world with
        system :=
          { pool.world.system with
            server := pool.world.system.server.writeSync settingsRef.name
              (fun sync =>
                { sync with
                  metadata := { sync.metadata with resourceVersion := some resourceVersion }
                  spec := { sync.spec with source := { sync.spec.source with name := source } } })
              fun _ => ⟨rfl, rfl⟩ } } }

/-- The pool after some calls of a run are answered. -/
def answered (pool : RunPool) (id : ObjectSyncRef) (resourceVersion : String) (count : Nat) :
    RunPool :=
  pool.calls id (Registrations.answer id resourceVersion) count

/-- The pool after a run has ended. -/
def ended (pool : RunPool) (id : ObjectSyncRef) : RunPool := pool.set id none pool.world

end RunPool

/-- The pool after a first run has registered the ObjectSync. -/
def registeredOnce : RunPool :=
  ((RunPool.fresh.check settingsRef).answered settingsRef "2" 8).ended settingsRef

/-- The source is changed, and changed back before the run for the first change has read the
ObjectSync again. -/
def changedBack : RunPool :=
  (((((registeredOnce.edit "other" "3").check settingsRef).answered settingsRef "3" 6).edit
    "settings" "4").answered settingsRef "5" 7).answered settingsRef "6" 2

/-- The pool after the run that loses the registration has ended. -/
def registrationLost : RunPool := changedBack.ended settingsRef

/-- Both ObjectSyncs have been registered, by runs that take turns. -/
def registeredBoth : RunPool :=
  (((((RunPool.freshBoth.check settingsRef).answered settingsRef "2" 3).check labelsRef).answered
    labelsRef "3" 8).answered settingsRef "4" 5).ended settingsRef |>.ended labelsRef

/-- After both have been registered, a user changes the source of the settings, and a run registers
them under the new one and drops the registration under the old one. -/
def registeredAnew : RunPool :=
  (((registeredBoth.edit "other" "5").check settingsRef).answered settingsRef "6" 15).ended
    settingsRef

/-- A registration is made where the ObjectSync is not registered. -/
def registersAnew (state : Registrations) : Call → Bool
  | .memory op => decide (RegistersAnew state.system.memory op)
  | _ => true

section Schedules

variable {permits : Memory → MemoryOp → Prop} {pool : RunPool} {id : ObjectSyncRef}

/-- A run of `check` may start. -/
theorem RunPool.reach_check (idle : pool.running id = none)
    (same : ObjectSyncRef.ofSync (pool.current id) = id) :
    (registrations permits).Reach pool (pool.check id) :=
  .single (.start id idle ⟨_, same, .inl rfl, rfl⟩)

/-- A user may change the source. -/
theorem RunPool.reach_edit (pool : RunPool) (source resourceVersion : String) :
    (registrations permits).Reach pool (pool.edit source resourceVersion) :=
  .single (.move ⟨rfl, rfl⟩)

/-- A run that is done may end. -/
theorem RunPool.reach_ended (done : (pool.result id).isSome = true) :
    (registrations permits).Reach pool (pool.ended id) := by
  obtain ⟨value, done⟩ := Option.isSome_iff_exists.mp done
  exact .single (.finish id (Pool.running_of_result done) rfl)

/-- Calls are answered as long as nothing is registered twice. -/
theorem RunPool.reach_answered (pool : RunPool) (id : ObjectSyncRef) (resourceVersion : String)
    (count : Nat)
    (pass : pool.callsPass id (Registrations.answer id resourceVersion) registersAnew
      count = true) :
    (registrations RegistersAnew).Reach pool (pool.answered id resourceVersion count) := by
  refine Rules.reach_calls_of_pass (fun state call passes => ?_) pool count pass
  refine Registrations.answer_allowed id resourceVersion state call ?_
  rintro op rfl
  exact of_decide_eq_true passes

end Schedules

/-- The first run is an interleaving in which nothing is registered twice. -/
theorem registeredOnce_reached :
    (registrations RegistersAnew).Reach RunPool.fresh registeredOnce :=
  ((RunPool.reach_check rfl (by decide +kernel)).trans (RunPool.reach_answered
    (RunPool.fresh.check settingsRef) settingsRef "2" 8 (by decide +kernel))).trans
      (RunPool.reach_ended (by decide +kernel))

/-- Two registrations that take turns are an interleaving in which nothing is registered twice. -/
theorem registeredBoth_reached :
    (registrations RegistersAnew).Reach RunPool.freshBoth registeredBoth := by
  have first := (RunPool.reach_check rfl (by decide +kernel)).trans (RunPool.reach_answered
    (RunPool.freshBoth.check settingsRef) settingsRef "2" 3 (by decide +kernel))
  have second := (first.trans (@RunPool.reach_check _ _ labelsRef rfl (by decide +kernel))).trans
    (RunPool.reach_answered _ labelsRef "3" 8 (by decide +kernel))
  have both := second.trans (RunPool.reach_answered _ settingsRef "4" 5 (by decide +kernel))
  exact (both.trans (@RunPool.reach_ended _ _ settingsRef (by decide +kernel))).trans
    (RunPool.reach_ended (by decide +kernel))

/-- The interleaving with the run for the changed source registers nothing twice. -/
theorem registeredAnew_reached :
    (registrations RegistersAnew).Reach RunPool.freshBoth registeredAnew := by
  have edited := registeredBoth_reached.trans (RunPool.reach_edit registeredBoth "other" "5")
  have checked := (edited.trans (@RunPool.reach_check _ _ settingsRef (by decide +kernel)
    (by decide +kernel))).trans (RunPool.reach_answered _ settingsRef "6" 15 (by decide +kernel))
  exact checked.trans (RunPool.reach_ended (by decide +kernel))

/-- The dropped registration is none any more, the one of the other ObjectSync is left, and both are
as their instances say. -/
theorem registeredAnew_registered_iff :
    (¬(registeredAnew.world.system.memory.sources 0).Registered (SourceRef.ofSync trackedSync)
        settingsRef ∧
      (registeredAnew.world.system.memory.sources 0).Registered
        (SourceRef.ofSync (registeredAnew.current settingsRef)) settingsRef) ∧
      (registeredAnew.world.system.memory.sources 0).Registered (SourceRef.ofSync labelsSync)
        labelsRef := by
  have agrees := (registered_iff_instance rfl (fun _ => ⟨rfl, rfl⟩) registeredAnew_reached).2
  have settings (src : SourceRef) := agrees settingsRef (by decide +kernel) 0 configMaps.gvk src
    (by decide +kernel) (by decide +kernel)
  have labels := agrees labelsRef (by decide +kernel) 0 configMaps.gvk (SourceRef.ofSync labelsSync)
    (by decide +kernel) (by decide +kernel)
  have moved : registeredAnew.world.system.memory.instances settingsRef =
      some ⟨0, ⟨2, 0, SourceRef.ofSync (registeredAnew.current settingsRef), settingsRef⟩,
        configMaps.gvk⟩ := by decide +kernel
  have kept : registeredAnew.world.system.memory.instances labelsRef =
      some ⟨0, ⟨0, 0, SourceRef.ofSync labelsSync, labelsRef⟩, configMaps.gvk⟩ := by
    decide +kernel
  refine ⟨⟨fun old => ?_, (settings _).mpr ⟨_, moved, rfl, rfl⟩⟩, labels.mpr ⟨_, kept, rfl, rfl⟩⟩
  obtain ⟨inst, entry, -, same⟩ := (settings _).mp old
  obtain rfl := Option.some.inj (moved.symm.trans entry)
  exact absurd same (by decide +kernel)

/-- Changing the source back during a run is an interleaving, and so is the end of that run. -/
theorem registrationLost_reached :
    (registrations fun _ _ => True).Reach RunPool.fresh registrationLost := by
  have allowed (resourceVersion : String) (state : Registrations) (call : Call) :=
    @Registrations.answer_allowed (fun _ _ => True) settingsRef resourceVersion state call
      fun _ _ => trivial
  have answers (pool : RunPool) (resourceVersion : String) (count : Nat) :
      (registrations fun _ _ => True).Reach pool
        (pool.answered settingsRef resourceVersion count) :=
    Rules.reach_calls (allowed resourceVersion) pool count
  have first := ((RunPool.reach_check rfl (by decide +kernel)).trans
    (answers (RunPool.fresh.check settingsRef) "2" 8)).trans
      (@RunPool.reach_ended _ _ settingsRef (by decide +kernel))
  have second := ((first.trans (RunPool.reach_edit registeredOnce "other" "3")).trans
    (@RunPool.reach_check _ _ settingsRef (by decide +kernel) (by decide +kernel))).trans
      (answers _ "3" 6)
  have third := ((second.trans (RunPool.reach_edit _ "settings" "4")).trans
    (answers _ "5" 7)).trans (answers _ "6" 2)
  exact third.trans (RunPool.reach_ended (by decide +kernel))

/-- After the lost registration, the ObjectSync has an instance of a live controller and is not
registered with it. -/
theorem registrationLost_not_registered :
    (registrations fun _ _ => True).Reach RunPool.fresh registrationLost ∧
      registrationLost.running settingsRef = none ∧
      registrationLost.world.system.memory.kind 0 = some configMaps.gvk ∧
      registrationLost.world.system.memory.Alive 0 ∧
      ¬((registrationLost.world.system.memory.sources 0).Registered
          (SourceRef.ofSync trackedSync) settingsRef ↔
        ∃ inst, registrationLost.world.system.memory.instances settingsRef = some inst ∧
          inst.gvk = configMaps.gvk ∧
          inst.resourceControllerHandle.src = SourceRef.ofSync trackedSync) := by
  refine ⟨registrationLost_reached, rfl, by decide +kernel, by decide +kernel, fun same => ?_⟩
  have entry : registrationLost.world.system.memory.instances settingsRef =
      some ⟨0, ⟨1, 0, SourceRef.ofSync trackedSync, settingsRef⟩, configMaps.gvk⟩ := by
    decide +kernel
  have registered := same.mpr ⟨_, entry, rfl, rfl⟩
  revert registered
  decide +kernel

end ObjectSyncer
