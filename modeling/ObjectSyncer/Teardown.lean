import ObjectSyncer.Registration

/-!
# Teardown against reconciliation

A run of `delete` for an ObjectSync and runs of the resource controller, call by call in any order.
The live copies always are among the keys that `delete` has still to delete; a run that looks for
ObjectSyncs after the deregistration does not find this one, and an earlier one must create in time.
-/
namespace ObjectSyncer

open Interaction Interaction.Program

/-- The keys that a run of `delete` has still to delete, after a call. -/
def remainingKeys (left : Option (List ObjectKey)) : (call : Call) → Reply call →
    Option (List ObjectKey)
  | .api (.delete api name), reply =>
    if deletionSettled reply then left.map (·.filter (· ≠ api.key name)) else left
  | _, _ => left

/-- A call by which an instance is removed. -/
def Removes : Call → Bool
  | .memory (.removeInstance _) => true
  | _ => false

/-- A call that brings no object into being. -/
def Barren : Call → Prop
  | .api request => ¬request.Creates
  | _ => True

/-- A call that deletes nothing, brings nothing into being and leaves the memory alone. -/
def Calm : Call → Prop
  | .api (.delete ..) | .api (.create ..) | .api (.apply ..) | .memory _ => False
  | _ => True

/-- What a run of `delete` relies on and guarantees: it creates nothing and removes its instance,
and only it changes what it has still to delete. -/
@[reducible] def deletion (o : ObjectSyncRef) :
    Contract Call Reply (Option (List ObjectKey)) where
  rely := fun before after => before = after
  answers := fun before call reply after => Honest call reply ∧
    after = remainingKeys before call reply
  guarantee := fun _ call _ _ => Barren call ∧ ∀ op, call = .memory op → op = .removeInstance o

section Deletion

variable {α : Type} {o : ObjectSyncRef} {left : Option (List ObjectKey)}

/-- Calls that delete nothing leave what has still to be deleted. -/
theorem wp_calm {result : α → Prop} {program : Async α}
    (shape : program.wp (.requests Honest Calm) (fun value _ => result value) ()) :
    program.wp (deletion o) (fun value after => result value ∧ left = after) left := by
  refine wp_requests shape (fun _ _ _ _ answered => answered.1) ?_ ?_ rfl
  · intro before moved same still
    exact same.trans still
  · intro before call reply after same calm answered
    cases call with
    | api request =>
      cases request <;> first
        | exact calm.elim
        | exact ⟨⟨id, by rintro op ⟨⟩⟩, same.trans answered.2.symm⟩
    | memory op => exact calm.elim
    | namespaces => exact ⟨⟨trivial, by rintro op ⟨⟩⟩, same.trans answered.2.symm⟩
    | clock => exact ⟨⟨trivial, by rintro op ⟨⟩⟩, same.trans answered.2.symm⟩

/-- What is left to delete is among some keys. -/
def LeftAmong (keys : List ObjectKey) (left : Option (List ObjectKey)) : Prop :=
  ∃ current, left = some current ∧ ∀ key ∈ current, key ∈ keys

/-- What `delete_destinations` does not return has been deleted. -/
theorem wp_deleteDestinations_left (destinations : List DestinationStatus)
    (among : LeftAmong (destinations.map (·.key)) left) :
    (deleteDestinations destinations).wp (deletion o) (fun result after => ∀ remaining,
      result = .ok remaining → LeftAmong (remaining.map (·.key)) after) left := by
  refine wp_imp ?_ (@wp_deleteDestinations_loop _ (deletion o)
    (fun failed todo left => LeftAmong ((failed ++ todo).map (·.key)) left) (fun _ => True)
    ?_ ?_ ?_ ?_ (fun _ _ _ _ _ _ _ _ _ => trivial) [] destinations left among)
  · intro result after kept remaining finished
    have last := kept.2 remaining finished
    rwa [List.nil_append, List.append_nil] at last
  · exact fun _ _ _ _ answered => answered.1
  · intro failed todo before moved among still
    exact still ▸ among
  · intro failed d todo before request reply after removal other among answered
    cases removal with
    | get => exact ⟨⟨id, by rintro op ⟨⟩⟩, answered.2 ▸ among⟩
    | release patch => exact ⟨⟨id, by rintro op ⟨⟩⟩, answered.2 ▸ among⟩
    | delete => exact absurd rfl (other _ _)
  · intro failed d todo before reply after among answered
    refine ⟨⟨id, by rintro op ⟨⟩⟩, ?_⟩
    obtain ⟨current, rfl, listed⟩ := among
    obtain ⟨-, rfl⟩ := answered
    by_cases settled : deletionSettled reply = true
    · rw [if_pos settled, List.append_nil]
      refine ⟨current.filter (· ≠ d.key), if_pos settled, fun key member => ?_⟩
      obtain ⟨member, other⟩ := List.mem_filter.mp member
      have key_ := listed key member
      rw [List.map_append, List.map_cons, List.mem_append, List.mem_cons] at key_
      rw [List.map_append, List.mem_append]
      simpa [of_decide_eq_true other] using key_
    · rw [if_neg settled]
      refine ⟨current, if_neg settled, fun key member => ?_⟩
      have key_ := listed key member
      rwa [List.append_assoc, List.singleton_append]

/-- When a run of `delete` succeeds, it has nothing left to delete. -/
theorem wp_delete_left {event : ObjectSyncModifications} (identity : event.id = o)
    (among : LeftAmong (event.modified.destinationList.map (·.key)) left) :
    (ObjectSyncController.delete event).wp (deletion o)
      (fun value after => value.2 = .ok () → after = some []) left := by
  have calmly {event : ObjectSyncModifications} (left : Option (List ObjectKey)) :=
    @wp_calm _ o left _ _ (@ObjectSyncController.requests_removeFinalizer Calm event trivial
      fun _ => trivial)
  unfold ObjectSyncController.delete ObjectSyncController.remove
  rw [wp_memory]
  rintro _ rfl removed _ ⟨-, rfl⟩
  refine ⟨⟨trivial, by rintro op ⟨⟩; rw [identity]⟩, ?_⟩
  rw [wp_bind]
  refine wp_imp ?_ (?_ : (ObjectSyncController.deleteDestinations event).wp (deletion o)
    (fun value after => value.2 = .ok () → after = some []) _)
  · rintro ⟨event', result⟩ after deleted
    cases result with
    | error e => rintro ⟨⟩
    | ok =>
      obtain rfl := deleted rfl
      dsimp only
      rw [wp_bind]
      refine wp_imp ?_ (wp_calm (@ObjectSyncController.requests_releaseSource Calm event'
        trivial (fun _ => trivial) fun _ _ => trivial))
      rintro result _ ⟨-, rfl⟩
      cases result with
      | error e => rintro ⟨⟩
      | ok =>
        dsimp only
        rw [wp_bind]
        exact wp_imp (fun _ _ kept _ => kept.2.symm) (calmly (some []))
  · unfold ObjectSyncController.deleteDestinations
    cases tracked : event.modified.statusDestinations with
    | none =>
      rintro -
      obtain ⟨current, rfl, listed⟩ := among
      rw [ObjectSync.destinationList, tracked, Option.getD_none, List.map_nil] at listed
      exact congrArg some (List.eq_nil_iff_forall_not_mem.mpr fun key member =>
        List.not_mem_nil (listed key member))
    | some destinations =>
      have same : event.modified.destinationList = destinations :=
        ObjectSync.destinationList_of_tracked tracked
      dsimp only
      rw [wp_bind]
      refine wp_imp ?_ (wp_deleteDestinations_left destinations (same ▸ among))
      intro result after deleted
      cases result with
      | error e => rintro ⟨⟩
      | ok remaining =>
        obtain ⟨current, rfl, listed⟩ := deleted remaining rfl
        dsimp only
        rw [wp_bind]
        refine wp_imp ?_ (wp_calm (@ObjectSyncModifications.requests_updateCondition Calm _ _
          trivial))
        rintro event' _ ⟨-, rfl⟩
        rw [wp_bind]
        refine wp_imp ?_ (wp_calm (@ObjectSyncModifications.requests_replaceStatus Calm
          (event'.updateDestinations remaining) fun request write => by cases write <;> trivial))
        rintro ⟨event'', result⟩ _ ⟨-, rfl⟩
        cases result with
        | error e => rintro ⟨⟩
        | ok =>
          dsimp only
          split
          · rintro ⟨⟩
          · rename_i none
            rintro -
            have empty : remaining = [] :=
              List.eq_nil_of_length_eq_zero (Nat.eq_zero_of_not_pos none)
            rw [empty, List.map_nil] at listed
            exact congrArg some (List.eq_nil_iff_forall_not_mem.mpr fun key member =>
              List.not_mem_nil (listed key member))

end Deletion

/-- A call by which a run of the resource controller looks for ObjectSyncs. -/
def LooksUp : Option ObjectSyncRef × Call → Bool
  | (none, .memory (.lookup ..)) => true
  | _ => false

/-- A run of the resource controller finds the ObjectSync. -/
def Finds (o : ObjectSyncRef) : (call : Option ObjectSyncRef × Call) → Reply call.2 → Bool
  | (none, .memory (.lookup ..)), some refs => decide (o ∈ refs)
  | _, _ => false

/-- What a run of `reconcile` relies on and guarantees, where the state says whether it may have
found the ObjectSync: it only works for what it has found. -/
@[reducible] def search (o : ObjectSyncRef) :
    Contract (Option ObjectSyncRef × Call) (fun call => Reply call.2) Bool where
  rely := fun before after => before = after
  answers := fun before call reply after => Honest call.2 reply ∧
    (LooksUp call = false → after = before) ∧ (Finds o call reply = true → after = true)
  guarantee := fun before call _ _ => (call.1 = some o → before = true) ∧
    ∀ op, call.2 = .memory op → ∃ controller src, op = .lookup controller src

section Search

variable {α : Type} {o : ObjectSyncRef} {found : Bool}

/-- A program that only makes calls outside of the memory looks nothing up. -/
theorem wp_unlooked {result : α → Prop} {program : Async α}
    (shape : program.wp (.requests Honest Outside) (fun value _ => result value) ()) :
    (program.label none).wp (search o) (fun value after => result value ∧ found = after) found := by
  rw [wp_label]
  refine wp_requests shape (fun _ _ _ _ answered => answered.1) ?_ ?_ rfl
  · intro before moved same still
    exact same.trans still
  · intro before call reply after same outside answered
    cases call with
    | memory op => exact outside.elim
    | api request => exact ⟨⟨by rintro ⟨⟩, by rintro op ⟨⟩⟩, same.trans (answered.2.1 rfl).symm⟩
    | namespaces => exact ⟨⟨by rintro ⟨⟩, by rintro op ⟨⟩⟩, same.trans (answered.2.1 rfl).symm⟩
    | clock => exact ⟨⟨by rintro ⟨⟩, by rintro op ⟨⟩⟩, same.trans (answered.2.1 rfl).symm⟩

/-- Work for an ObjectSync that was found, or for another one. -/
theorem wp_labelled {result : α → Prop} {program : Async α} {name : ObjectSyncRef}
    (shape : program.wp (.requests Honest Outside) (fun value _ => result value) ())
    (known : name = o → found = true) :
    (program.label (some name)).wp (search o) (fun _ after => found = after) found := by
  rw [wp_label]
  refine wp_imp (fun _ _ kept => kept.2)
    (wp_requests shape (fun _ _ _ _ answered => answered.1) ?_ ?_ rfl)
  · intro before moved same still
    exact same.trans still
  · intro before call reply after same outside answered
    refine ⟨⟨fun here => same ▸ known (Option.some.inj here), ?_⟩,
      same.trans (answered.2.1 rfl).symm⟩
    rintro op rfl
    exact outside.elim

/-- What was looked up includes the ObjectSync only when it was found. -/
theorem wp_lookup (self : ResourceControllerImpl) (sourceRef : SourceRef) :
    ((self.lookupObjectSyncsForSource sourceRef).label none).wp (search o)
      (fun value found => ∀ objs, value = some objs → ∀ rs ∈ objs, rs.id = o → found = true)
      found := by
  rw [wp_label]
  unfold ResourceControllerImpl.lookupObjectSyncsForSource
  split
  · rw [wp_memory]
    rintro _ rfl reply after ⟨-, -, finds⟩
    refine ⟨⟨by rintro ⟨⟩, by rintro op ⟨⟩; exact ⟨_, _, rfl⟩⟩, ?_⟩
    cases reply with
    | none => rintro _ ⟨⟩
    | some refs =>
      dsimp only
      split
      · rintro _ ⟨⟩
      · rw [wp_bind]
        have shape := @ResourceControllerImpl.requests_fetchObjectSyncs Outside sourceRef refs
          fun _ _ => trivial
        refine wp_imp ?_ ((wp_label _ _).mp (@wp_unlooked _ o after _ _ shape))
        rintro fetched _ ⟨listed, rfl⟩ objs ⟨⟩ rs member rfl
        exact finds (decide_eq_true (listed rs member))
  · rintro _ ⟨⟩

/-- A run of `reconcile` works for an ObjectSync only when it has found it. -/
theorem wp_reconcile_search (self : ResourceControllerImpl) (source : DynamicObject) :
    (self.reconcile source).wp (search o) (fun _ _ => True) found := by
  unfold ResourceControllerImpl.reconcile
  dsimp only
  rw [wp_bind]
  refine wp_imp ?_ (wp_lookup self _)
  intro value found known
  cases value with
  | none =>
    dsimp only
    split
    · rw [wp_bind]
      refine wp_imp ?_ (wp_unlooked (@requests_removeFinalizer Outside _ _ _ fun _ => trivial))
      rintro ⟨source', result⟩ after -
      cases result <;> trivial
    · trivial
  | some objs =>
    have each := known objs rfl
    have deletes (rs : ObjectSyncModifications) (member : rs ∈ objs) (world : Bool)
        (same : found = world) :
        ((ResourceControllerImpl.sourceDeleted rs).label (some rs.id)).wp (search o)
          (fun _ after => found = after) world := by
      subst same
      exact wp_labelled (@ObjectSyncController.requests_deleteDestinations Outside rs
        (fun _ _ _ _ => trivial) trivial fun _ _ _ _ => trivial) (each rs member)
    have reconciles (source : DynamicObject) (rs : ObjectSyncModifications) (member : rs ∈ objs)
        (world : Bool) (same : found = world) :
        ((self.reconcileSource rs source).label (some rs.id)).wp (search o)
          (fun _ after => found = after) world := by
      subst same
      exact wp_labelled (@ResourceControllerImpl.requests_reconcileSource Outside self rs source
        trivial trivial (fun _ _ _ => trivial) (fun _ _ _ _ => trivial) fun _ _ _ _ => trivial)
        (each rs member)
    dsimp only
    split
    · rw [wp_bind]
      refine wp_imp ?_ (ResourceControllerImpl.wp_deleteAll deletes rfl)
      rintro succeeded _ rfl
      split
      · rw [wp_bind]
        exact wp_imp (fun _ _ _ => trivial)
          (wp_unlooked (@requests_removeFinalizer Outside _ _ _ fun _ => trivial))
      · trivial
    · rw [wp_bind]
      refine wp_imp ?_ (wp_unlooked (@requests_addFinalizerIfMissing Outside _ _ _ trivial))
      rintro ⟨source', result⟩ _ ⟨-, rfl⟩
      dsimp only
      rw [wp_bind]
      exact wp_imp (fun _ _ _ => trivial)
        (ResourceControllerImpl.wp_reconcileAll (reconciles source') rfl)

end Search

/-! ## Both runs together -/

/-- The run of `delete` and the run of the resource controller. -/
inductive TeardownTask where
  | deleter
  | resourceController
  deriving DecidableEq, Repr

/-- The system, and how far both runs have come. -/
structure Teardown where
  system : System
  /-- The keys that the snapshot of `delete` lists, once it has started. -/
  listed : Option (List ObjectKey)
  /-- The keys whose deletion by this run of `delete` has been answered. -/
  settled : List ObjectKey
  /-- `delete` has deregistered the ObjectSync. -/
  deregistered : Bool
  /-- The run of the resource controller has looked for ObjectSyncs before that. -/
  early : Bool
  /-- `delete` has returned without an error. -/
  finished : Bool

/-- The keys that `delete` has still to delete, once it has started. -/
def Teardown.left (state : Teardown) : Option (List ObjectKey) :=
  state.listed.map (·.filter (· ∉ state.settled))

/-- The keys whose deletion has been answered, after a call. -/
def settledKeys (settled : List ObjectKey) : (call : Call) → Reply call → List ObjectKey
  | .api (.delete api name), reply =>
    if deletionSettled reply then api.key name :: settled else settled
  | _, _ => settled

/-- How far the runs have come after a call. -/
def Teardown.see (before : Teardown) (task : TeardownTask) (call : Option ObjectSyncRef × Call)
    (reply : Reply call.2) (system : System) : Teardown :=
  match task with
  | .deleter =>
    { before with
      system := system
      settled := settledKeys before.settled call.2 reply
      deregistered := before.deregistered || Removes call.2 }
  | .resourceController =>
    { before with
      system := system
      early := if LooksUp call then !before.deregistered else before.early }

/-- A run of `delete` that starts has still to delete all that its snapshot lists. -/
theorem Teardown.left_start (state : Teardown) (keys : List ObjectKey) :
    Teardown.left { state with listed := some keys, settled := [] } = some keys := by
  simp [left]

/-- What `delete` has still to delete follows from the answers to its calls. -/
theorem Teardown.left_see (before : Teardown) (call : Option ObjectSyncRef × Call)
    (reply : Reply call.2) (system : System) :
    (before.see .deleter call reply system).left = remainingKeys before.left call.2 reply := by
  obtain ⟨name, call⟩ := call
  cases call with
  | api request =>
    cases request with
    | delete api name =>
      unfold left see remainingKeys settledKeys
      dsimp only
      split
      · rw [Option.map_map]
        congr 1
        funext keys
        simp only [Function.comp_apply, List.filter_filter]
        congr 1
        funext key
        simp only [List.mem_cons, not_or, Bool.decide_and]
      · rfl
    | _ => rfl
  | _ => rfl

/-- A snapshot of the ObjectSync lists all its live copies. -/
def ListsCopies (o : ObjectSyncRef) (state : Teardown) (snapshot : ObjectSync) : Prop :=
  Within o (snapshot.destinationList.map (·.key)) state.system.server

/-- A run of the resource controller that has looked for ObjectSyncs before the deregistration
creates an object for the ObjectSync before `delete` starts, or where the snapshot of `delete` lists
it, before its deletion is answered. -/
def CreatesInTime (o : ObjectSyncRef) (state : Teardown) : Option ObjectSyncRef × Call → Prop
  | (name, .api request) => name = some o → state.early = true → request.Creates →
      ∀ key, request.target = some key → state.system.server.objects key = none →
        ∀ keys, state.listed = some keys → key ∈ keys ∧ key ∉ state.settled
  | _ => True

/-- Runs of `delete` for an ObjectSync until one succeeds, and runs of `reconcile` for any sources
one after the other, with any replies, while others make no copies of the ObjectSync. The snapshots
of `delete` and the calls of the resource controller may be restricted. -/
def teardown (self : ResourceControllerImpl) (o : ObjectSyncRef)
    (lists : Teardown → ObjectSync → Prop)
    (inTime : Teardown → Option ObjectSyncRef × Call → Prop) :
    Rules TeardownTask (Option ObjectSyncRef × Call) (fun call => Reply call.2) Teardown
      (Option (Except ControllerError Unit)) where
  starts
    | .deleter, before, program, after => ∃ snapshot, ObjectSyncRef.ofSync snapshot = o ∧
        before.finished = false ∧ lists before snapshot ∧
        program = ((ObjectSyncController.delete (.new snapshot)).label (some o) >>=
          fun value => pure (some value.2)) ∧
        after = { before with
          listed := some (snapshot.destinationList.map (·.key))
          settled := [] }
    | .resourceController, before, program, after => ∃ source,
        program = (self.reconcile source >>= fun _ => pure none) ∧
        after = { before with early := false }
  answers := fun task before call reply after =>
    System.answersBy (Faulty call.1) before.system call.2 reply after.system ∧
      (task = .resourceController → inTime before call) ∧
      after = before.see task call reply after.system
  ends
    | .deleter, before, value, after =>
      after = { before with finished := before.finished || value matches some (.ok ()) }
    | .resourceController, before, _, after => after = before
  moves := fun before after => ∃ server, after = { before with system.server := server } ∧
    ∀ key, server.LiveCopy o key → before.system.server.LiveCopy o key

section Teardown

variable {self : ResourceControllerImpl} {o : ObjectSyncRef}

/-- What holds of every state: all live copies are those that `delete` has still to delete. -/
structure Teardown.Invariant (o : ObjectSyncRef) (state : Teardown) : Prop where
  within : ∀ keys, state.left = some keys → Within o keys state.system.server
  finished : state.finished = true → state.left = some []
  consistent : state.system.memory.Consistent
    (references state.system.memory fun _ => Locals.none)
  deregistered : state.deregistered = true → state.system.memory.instances o = none

/-- What `delete` has still to delete depends on its snapshot and its answers alone. -/
theorem Teardown.left_eq {before after : Teardown} (listed : before.listed = after.listed)
    (settled : before.settled = after.settled) : before.left = after.left := by
  unfold left
  rw [listed, settled]

/-- `delete` relies on what it has still to delete, and the resource controller on what it has
found. -/
def teardownDiscipline (self : ResourceControllerImpl) (o : ObjectSyncRef) :
    Discipline (teardown self o (ListsCopies o) (CreatesInTime o)) where
  invariant := Teardown.Invariant o
  rely
    | .deleter, before, after => (before.listed = after.listed ∧ before.settled = after.settled) ∧
        before.finished = after.finished
    | .resourceController, before, after => before.early = after.early
  ensures := fun _ _ _ _ _ => True
  idle := fun _ _ => True
  post
    | .deleter, value, state => value = some (.ok ()) → state.left = some []
    | .resourceController, _, _ => True
  rely_refl := by
    intro task state
    cases task
    · exact ⟨⟨rfl, rfl⟩, rfl⟩
    · rfl
  rely_trans := by
    intro task first second third step next
    cases task
    · exact ⟨⟨step.1.1.trans next.1.1, step.1.2.trans next.1.2⟩, step.2.trans next.2⟩
    · exact step.trans next
  idle_stable := fun _ _ _ _ => trivial
  post_stable := by
    intro task value before after moves _ post
    cases task
    · exact fun success => (Teardown.left_eq moves.1.1 moves.1.2).symm.trans (post success)
    · trivial
  ends := by
    intro task before value after invariant post ends
    cases task with
    | deleter =>
      obtain rfl := ends
      refine ⟨⟨invariant.within, fun finished => ?_, invariant.consistent,
        invariant.deregistered⟩, trivial, fun other different => ?_⟩
      · rcases Bool.or_eq_true_iff.mp finished with already | now
        · exact invariant.finished already
        · refine post ?_
          match value, now with
          | some (.ok ()), _ => rfl
      · cases other
        · exact absurd rfl different
        · rfl
    | resourceController =>
      obtain rfl := ends
      refine ⟨invariant, trivial, fun other different => ?_⟩
      cases other
      · exact ⟨⟨rfl, rfl⟩, rfl⟩
      · exact absurd rfl different
  moves := by
    rintro before after invariant ⟨server, rfl, copies⟩
    refine ⟨⟨fun keys left key live => invariant.within keys left key (copies key live),
      invariant.finished, invariant.consistent, invariant.deregistered⟩, fun task => ?_⟩
    cases task
    · exact ⟨⟨rfl, rfl⟩, rfl⟩
    · rfl

/-- A bound on the live copies survives a call that creates among its keys. -/
theorem Within.answered_system {name : Option ObjectSyncRef} {keys : List ObjectKey}
    {before after : System} {call : Call} {reply : Reply call}
    (within : Within o keys before.server)
    (answered : System.answersBy (Faulty name) before call reply after)
    (among : ∀ request, call = .api request → name = some o → request.Creates → ∀ key,
      request.target = some key → before.server.objects key = none → key ∈ keys) :
    Within o keys after.server := by
  cases call with
  | api request =>
    intro key live
    rcases (Faulty.effect answered.1).liveCopy live with former | ⟨maker, creates, target, absent⟩
    · exact within key former
    · exact among request rfl maker creates key target absent
  | memory op => exact answered.2 ▸ within
  | namespaces =>
    have same : after = before := answered
    exact same ▸ within
  | clock =>
    have same : after = before := answered
    exact same ▸ within

/-- Discarding an entry leaves `instances` without it. -/
theorem Memory.discard_instances (memory : Memory) (id : ObjectSyncRef) :
    (memory.discard id).instances = Function.update memory.instances id none := by
  unfold Memory.discard
  cases entry : memory.instances id with
  | none =>
    have same := Function.update_eq_self id memory.instances
    rw [entry] at same
    exact same.symm
  | some inst => exact Memory.release_instances _ _

/-- A call of `delete` keeps the invariant. -/
theorem Teardown.Invariant.deleter {lists : Teardown → ObjectSync → Prop}
    {inTime : Teardown → Option ObjectSyncRef × Call → Prop} {before after : Teardown}
    {call : Call} {reply : Reply call} (invariant : before.Invariant o)
    (answered : (teardown self o lists inTime).answers .deleter before (some o, call) reply after)
    (guaranteed : Barren call ∧ ∀ op, call = .memory op → op = .removeInstance o) :
    after.Invariant o := by
  obtain ⟨served, -, seen⟩ := answered
  have barren (keys : List ObjectKey) (within : Within o keys before.system.server) :
      Within o keys after.system.server := by
    refine within.answered_system served ?_
    rintro request rfl - creates
    exact absurd creates guaranteed.1
  have left : after.left = remainingKeys before.left call reply := by
    rw [seen]
    exact before.left_see (some o, call) reply _
  have deregistered : after.deregistered = (before.deregistered || Removes call) := by
    rw [seen]
    rfl
  have finished : after.finished = before.finished := by rw [seen]; rfl
  refine ⟨?_, ?_, ?_, ?_⟩
  · intro keys still
    rw [left] at still
    cases call with
    | api request =>
      cases request with
      | delete api name =>
        dsimp only [remainingKeys] at still
        split at still
        · rename_i settled
          obtain ⟨former, was, rfl⟩ := Option.map_eq_some_iff.mp still
          intro key live
          refine List.mem_filter.mpr ⟨barren former (invariant.within former was) key live,
            decide_eq_true ?_⟩
          rintro rfl
          refine Faulty.deleted served.1 ?_ live
          rintro e rfl
          exact settled
        · exact barren keys (invariant.within keys still)
      | _ => exact barren keys (invariant.within keys still)
    | memory op => exact barren keys (invariant.within keys still)
    | namespaces => exact barren keys (invariant.within keys still)
    | clock => exact barren keys (invariant.within keys still)
  · intro done
    rw [left, invariant.finished (finished ▸ done)]
    cases call with
    | api request =>
      cases request with
      | delete api name =>
        dsimp only [remainingKeys]
        split <;> rfl
      | _ => rfl
    | _ => rfl
  · cases call with
    | memory op =>
      obtain rfl := guaranteed.2 op rfl
      have executed : before.system.memory.discard o = after.system.memory :=
        congrArg Prod.snd served.1
      rw [← executed]
      exact Memory.Consistent.preserved.discard invariant.consistent o
    | api request => exact served.2 ▸ invariant.consistent
    | namespaces => exact (served : after.system = before.system) ▸ invariant.consistent
    | clock => exact (served : after.system = before.system) ▸ invariant.consistent
  · intro now
    rw [deregistered] at now
    cases call with
    | memory op =>
      obtain rfl := guaranteed.2 op rfl
      have executed : before.system.memory.discard o = after.system.memory :=
        congrArg Prod.snd served.1
      rw [← executed, Memory.discard_instances, Function.update_self]
    | api request => exact served.2 ▸ invariant.deregistered (by simpa [Removes] using now)
    | namespaces =>
      exact (served : after.system = before.system) ▸ invariant.deregistered
        (by simpa [Removes] using now)
    | clock =>
      exact (served : after.system = before.system) ▸ invariant.deregistered
        (by simpa [Removes] using now)

/-- A call of the resource controller keeps the invariant. -/
theorem Teardown.Invariant.resourceController {lists : Teardown → ObjectSync → Prop}
    {before after : Teardown} {call : Option ObjectSyncRef × Call} {reply : Reply call.2}
    (invariant : before.Invariant o)
    (answered : (teardown self o lists (CreatesInTime o)).answers .resourceController before call
      reply after)
    (guaranteed : (call.1 = some o → before.early = true) ∧
      ∀ op, call.2 = .memory op → ∃ controller src, op = .lookup controller src) :
    after.Invariant o := by
  obtain ⟨served, inTime, seen⟩ := answered
  obtain ⟨name, call⟩ := call
  have left : after.left = before.left := by rw [seen]; rfl
  have deregistered : after.deregistered = before.deregistered := by rw [seen]; rfl
  have finished : after.finished = before.finished := by rw [seen]; rfl
  have memory : after.system.memory = before.system.memory := by
    cases call with
    | memory op =>
      obtain ⟨controller, src, rfl⟩ := guaranteed.2 op rfl
      exact (congrArg Prod.snd served.1).symm
    | api request => exact served.2
    | namespaces => exact congrArg System.memory (served : after.system = before.system)
    | clock => exact congrArg System.memory (served : after.system = before.system)
  refine ⟨?_, ?_, ?_, ?_⟩
  · intro keys still
    rw [left] at still
    refine (invariant.within keys still).answered_system served ?_
    rintro request rfl maker creates key target absent
    obtain ⟨listed, same, rfl⟩ := Option.map_eq_some_iff.mp still
    obtain ⟨member, unsettled⟩ :=
      inTime rfl maker (guaranteed.1 maker) creates key target absent listed same
    exact List.mem_filter.mpr ⟨member, decide_eq_true unsettled⟩
  · rw [left, finished]
    exact invariant.finished
  · rw [memory]
    exact invariant.consistent
  · rw [memory, deregistered]
    exact invariant.deregistered

/-- Once it is deregistered, the ObjectSync is not found any more. -/
theorem Teardown.Invariant.finds {before after : System} {deregistered : Bool}
    (consistent : before.memory.Consistent (references before.memory fun _ => Locals.none))
    (removed : deregistered = true → before.memory.instances o = none)
    {call : Option ObjectSyncRef × Call} {reply : Reply call.2}
    (answered : System.answersBy (Faulty call.1) before call.2 reply after)
    (finds : Finds o call reply = true) : LooksUp call = true ∧ deregistered = false := by
  unfold Finds at finds
  split at finds
  · rename_i controller src refs
    refine ⟨rfl, Bool.eq_false_iff.mpr fun already => ?_⟩
    have found : (before.memory.sources controller).lookup src = some refs :=
      congrArg Prod.fst answered.1
    have registered : (before.memory.sources controller).Registered src o :=
      ⟨refs, found, of_decide_eq_true finds⟩
    obtain ⟨held, handle, ⟨slot, refers⟩, -⟩ :=
      (consistent.accounts.registered controller src o).mp registered
    cases slot with
    | entry =>
      rw [references, removed already] at refers
      cases refers
    | active => cases refers
    | adding => cases refers
  · cases finds

/-- Both runs keep their parts of the discipline. -/
theorem teardownDiscipline_kept : (teardownDiscipline self o).Kept := by
  intro task before program after invariant _ starts
  cases task with
  | deleter =>
    obtain ⟨snapshot, same, unfinished, lists, rfl, rfl⟩ := starts
    refine ⟨⟨?_, ?_, invariant.consistent, invariant.deregistered⟩, fun other different => ?_, ?_⟩
    · intro keys left
      rw [Teardown.left_start] at left
      cases left
      exact lists
    · intro finished
      rw [unfinished] at finished
      cases finished
    · cases other
      · exact absurd rfl different
      · rfl
    · rw [wp_bind]
      refine wp_imp ?_ (?_ : ((ObjectSyncController.delete (.new snapshot)).label (some o)).wp
        ((teardownDiscipline self o).contract .deleter)
        (fun value state => value.2 = .ok () → state.left = some []) _)
      · intro value state done success
        exact done (Option.some.inj success)
      · rw [wp_label]
        have holds := @wp_delete_left o (some (snapshot.destinationList.map (·.key)))
          (.new snapshot) same ⟨_, rfl, fun _ member => member⟩
        rw [← before.left_start (snapshot.destinationList.map (·.key))] at holds
        refine wp_mono ?_ ?_ ?_ ?_ (wp_view
          (((teardownDiscipline self o).contract .deleter).under (some o)) Teardown.left ?_ ?_
          holds)
        · exact fun _ _ moves => moves
        · exact fun _ _ _ _ answered => answered
        · intro first call reply second answered guaranteed
          refine ⟨answered.1.deleter answered.2 guaranteed, fun other different => ?_, trivial⟩
          cases other
          · exact absurd rfl different
          · rw [answered.2.2.2]
            rfl
        · exact fun _ _ kept => kept
        · exact fun _ _ moves => Teardown.left_eq moves.1.1.1 moves.1.1.2
        · intro first call reply second answered
          refine ⟨System.answersBy_honest answered.2.1, ?_⟩
          rw [answered.2.2.2]
          exact first.left_see (some o, call) reply _
  | resourceController =>
    obtain ⟨source, rfl, rfl⟩ := starts
    refine ⟨⟨invariant.within, invariant.finished, invariant.consistent, invariant.deregistered⟩,
      fun other different => ?_, ?_⟩
    · cases other
      · exact ⟨⟨rfl, rfl⟩, rfl⟩
      · exact absurd rfl different
    · rw [wp_bind]
      refine wp_mono ?_ ?_ ?_ ?_ (wp_view ((teardownDiscipline self o).contract .resourceController)
        Teardown.early ?_ ?_ (@wp_reconcile_search o false self source))
      · exact fun _ _ moves => moves
      · exact fun _ _ _ _ answered => answered
      · intro first call reply second answered guaranteed
        refine ⟨answered.1.resourceController answered.2 guaranteed, fun other different => ?_,
          trivial⟩
        cases other
        · rw [answered.2.2.2]
          exact ⟨⟨rfl, rfl⟩, rfl⟩
        · exact absurd rfl different
      · exact fun _ _ _ => trivial
      · exact fun _ _ moves => moves.1
      · intro first call reply second answered
        obtain ⟨invariant, served, -, seen⟩ := answered
        refine ⟨System.answersBy_honest served, fun looks => ?_, fun finds => ?_⟩
        · rw [seen]
          exact if_neg (Bool.eq_false_iff.mp looks)
        · obtain ⟨looks, registered⟩ := Teardown.Invariant.finds invariant.consistent
            invariant.deregistered served finds
          rw [seen]
          show (if LooksUp call then !first.deregistered else first.early) = true
          rw [if_pos looks, registered]
          rfl

/-- **Teardown.** When every snapshot that `delete` starts from lists all live copies, and the
resource controller, where it has looked for ObjectSyncs before `delete` deregistered the
ObjectSync, creates an object for it before `delete` starts, or an object that `delete` lists before
its deletion is answered, then in every interleaving there is no live copy once `delete` has
returned without an error. -/
theorem no_copies_of_finished
    {start pool : Pool TeardownTask (Option ObjectSyncRef × Call) (fun call => Reply call.2)
      Teardown (Option (Except ControllerError Unit))}
    (idle : ∀ task, start.running task = none) (before : start.world.listed = none)
    (registered : start.world.deregistered = false) (unfinished : start.world.finished = false)
    (consistent : start.world.system.memory.Consistent
      (references start.world.system.memory fun _ => Locals.none))
    (reach : (teardown self o (ListsCopies o) (CreatesInTime o)).Reach start pool)
    (finished : pool.world.finished = true) (key : ObjectKey) :
    ¬pool.world.system.server.LiveCopy o key := by
  have initially : (teardownDiscipline self o).Holds start := by
    refine ⟨⟨?_, ?_, consistent, ?_⟩, fun _ _ => trivial, fun task program running => ?_⟩
    · rw [Teardown.left, before]
      rintro keys ⟨⟩
    · rw [unfinished]
      rintro ⟨⟩
    · rw [registered]
      rintro ⟨⟩
    · rw [idle task] at running
      cases running
  have holds := initially.reach teardownDiscipline_kept reach
  have done := holds.world.finished finished
  intro live
  exact List.not_mem_nil (holds.world.within [] done key live)

end Teardown

/-! ## A copy that is left behind -/

/-- Answer all calls of a task, with nothing failing. -/
def Teardown.answer (task : TeardownTask) (resourceVersion : String) :
    Handler (Option ObjectSyncRef × Call) (fun call => Reply call.2) Teardown :=
  fun state call =>
    let (reply, system) := state.system.answer call.1 ⟨"u", resourceVersion, 0, []⟩
      [⟨"team", none, none⟩] "now" call.2
    (reply, state.see task call reply system)

/-- The answers to a task are possible, where its calls are in time. -/
theorem Teardown.answer_allowed {self : ResourceControllerImpl} {o : ObjectSyncRef}
    {lists : Teardown → ObjectSync → Prop}
    {inTime : Teardown → Option ObjectSyncRef × Call → Prop} {task : TeardownTask}
    (resourceVersion : String) {state : Teardown} {call : Option ObjectSyncRef × Call}
    (permitted : task = .resourceController → inTime state call) :
    (teardown self o lists inTime).answers task state call
      (Teardown.answer task resourceVersion state call).1
      (Teardown.answer task resourceVersion state call).2 := by
  have served : System.answersBy (Faulty call.1) state.system call.2 _ _ :=
    System.answersBy_mono (fun _ _ _ _ => .served) (System.answer_allowed call.1
      ⟨"u", resourceVersion, 0, []⟩ [⟨"team", none, none⟩] "now" state.system call.2)
  cases task
  · exact ⟨served, permitted, rfl⟩
  · exact ⟨served, permitted, rfl⟩

/-- The pools of a run of `delete` and a run of `reconcile`. -/
abbrev TeardownPool := Pool TeardownTask (Option ObjectSyncRef × Call) (fun call => Reply call.2)
  Teardown (Option (Except ControllerError Unit))

/-- The ObjectSync has been deleted, and waits for its finalizer to be removed. -/
def deletedSync : ObjectSync :=
  { trackedSync with metadata := { trackedSync.metadata with deletionTimestamp := some 0 } }

/-- The source of the settings, with the finalizer. -/
def heldSource : DynamicObject :=
  settingsSource.withFinalizers [finalizer]

/-- The key of the copy of the settings. -/
def settingsCopy : ObjectKey := ⟨"", "ConfigMap", "team", "settings"⟩

/-- A server with the deleted ObjectSync, its source, and perhaps its copy. -/
def deletedServer (copy : Option Stored) (named : ∀ {new}, copy = some new →
    new.object.metadata.Named settingsCopy.namespace_ settingsCopy.name) : Server :=
  ((Server.empty.putSync settingsRef.name (some deletedSync)
    (by rintro _ ⟨⟩; exact ⟨rfl, rfl⟩)).put ⟨"", "ConfigMap", "default", "settings"⟩
    (some ⟨heldSource, none⟩) (by rintro _ ⟨⟩; exact ⟨rfl, rfl⟩)).put settingsCopy copy named

namespace TeardownPool

/-- The ObjectSync is registered and deleted, and neither run has started. -/
def fresh (copy : Option Stored) (named : ∀ {new}, copy = some new →
    new.object.metadata.Named settingsCopy.namespace_ settingsCopy.name) : TeardownPool :=
  ⟨⟨⟨deletedServer copy named, registeredOnce.world.system.memory⟩, none, [], false, false, false⟩,
    fun _ => none⟩

/-- The pool after a run of `delete` has started. -/
def delete (pool : TeardownPool) : TeardownPool :=
  pool.set .deleter (some ((ObjectSyncController.delete (.new deletedSync)).label
    (some settingsRef) >>= fun value => pure (some value.2)))
    { pool.world with listed := some (deletedSync.destinationList.map (·.key)), settled := [] }

/-- A run of `reconcile` for the source starts. -/
def reconcile (pool : TeardownPool) : TeardownPool :=
  pool.set .resourceController (some (configMaps.reconcile heldSource >>= fun _ => pure none))
    { pool.world with early := false }

/-- The pool after some calls of a task are answered. -/
def answered (pool : TeardownPool) (task : TeardownTask) (resourceVersion : String)
    (count : Nat) : TeardownPool :=
  pool.calls task (Teardown.answer task resourceVersion) count

/-- The pool after the run of `delete` has ended. -/
def deleted (pool : TeardownPool) : TeardownPool :=
  pool.set .deleter none { pool.world with finished := true }

end TeardownPool

/-- The resource controller is about to create the copy when `delete` runs from its start to its
end; then the copy is created. -/
def copyLeftBehind : TeardownPool :=
  ((TeardownPool.fresh none (by rintro _ ⟨⟩)).reconcile.answered .resourceController "2" 4
    |>.delete.answered .deleter "3" 5 |>.answered .deleter "4" 6 |>.deleted).answered
      .resourceController "5" 1

/-- The copy of the settings with the finalizer. -/
def settingsCopied : Stored :=
  ⟨⟨none, { name := some "settings", namespace_ := some "team", finalizers := some [finalizer] },
    []⟩, some settingsRef⟩

/-- The copy of the settings is stored under its key. -/
theorem settingsCopied_named {new : Stored} (stored : some settingsCopied = some new) :
    new.object.metadata.Named settingsCopy.namespace_ settingsCopy.name := by
  cases stored
  exact ⟨rfl, rfl⟩

/-- The resource controller has looked the ObjectSync up and is about to create the copy. -/
def copyAwaited : TeardownPool :=
  (TeardownPool.fresh none (by rintro _ ⟨⟩)).reconcile.answered .resourceController "2" 4

/-- `delete` removes the instance, and then the copy is created. -/
def copyCreated : TeardownPool :=
  (copyAwaited.delete.answered .deleter "3" 1).answered .resourceController "4" 1

/-- After the copy was created in time, `delete` runs to its end, and the resource controller after
it. -/
def copyInTime : TeardownPool :=
  (copyCreated.answered .deleter "5" 11).deleted.answered .resourceController "6" 2

/-- The memory in which the ObjectSync is registered is consistent. -/
theorem registeredOnce_consistent : registeredOnce.world.system.memory.Consistent
    (references registeredOnce.world.system.memory fun _ => Locals.none) := by
  have holds := registrations_hold rfl (fun _ => ⟨rfl, rfl⟩) registeredOnce_reached
  have idle : registeredOnce.world.locals = fun _ => Locals.none := by
    funext id
    refine (holds.idle id ?_).symm
    by_cases same : id = settingsRef
    · rw [same]
      rfl
    · rw [registeredOnce, RunPool.ended, Pool.set_running_of_ne _ _ _ _ same, RunPool.answered,
        Pool.calls_running_of_ne _ same, RunPool.check, Pool.set_running_of_ne _ _ _ _ same]
      rfl
  rw [← idle]
  exact holds.world

section Schedules

variable {lists : Teardown → ObjectSync → Prop}
  {inTime : Teardown → Option ObjectSyncRef × Call → Prop} {pool : TeardownPool}

/-- A run of `delete` may start. -/
theorem TeardownPool.reach_delete (idle : pool.running .deleter = none)
    (unfinished : pool.world.finished = false) (listed : lists pool.world deletedSync) :
    (teardown configMaps settingsRef lists inTime).Reach pool pool.delete := by
  have step : (teardown configMaps settingsRef lists inTime).Step pool pool.delete :=
    .start TeardownTask.deleter idle ⟨deletedSync, by decide +kernel, unfinished, listed, rfl, rfl⟩
  exact .single step

/-- A run of `reconcile` may start. -/
theorem TeardownPool.reach_reconcile (idle : pool.running .resourceController = none) :
    (teardown configMaps settingsRef lists inTime).Reach pool pool.reconcile := by
  have step : (teardown configMaps settingsRef lists inTime).Step pool pool.reconcile :=
    .start TeardownTask.resourceController idle ⟨heldSource, rfl, rfl⟩
  exact .single step

/-- A run of `delete` may end without an error. -/
theorem TeardownPool.reach_deleted (done : pool.result .deleter = some (some (.ok ()))) :
    (teardown configMaps settingsRef lists inTime).Reach pool pool.deleted := by
  have step : (teardown configMaps settingsRef lists inTime).Step pool pool.deleted := by
    refine .finish TeardownTask.deleter (Pool.running_of_result done) ?_
    show _ = { pool.world with finished := pool.world.finished || true }
    rw [Bool.or_true]
  exact .single step

end Schedules

/-- What a call of the resource controller writes exists, or its deletion has not been answered. -/
def inTime (state : Teardown) : Option ObjectSyncRef × Call → Bool
  | (_, .api request) => request.target.all fun key =>
    (state.system.server.objects key).isSome ||
      state.listed.all fun keys => key ∈ keys && key ∉ state.settled
  | _ => true

/-- Calls that pass the check create in time. -/
theorem createsInTime_of_check {state : Teardown} {call : Option ObjectSyncRef × Call}
    (checked : inTime state call = true) : CreatesInTime settingsRef state call := by
  obtain ⟨name, call⟩ := call
  cases call with
  | api request =>
    intro _ _ _ key target absent keys listed
    simpa [inTime, target, absent, listed] using checked
  | _ => trivial

/-- No object in the server is a copy before it is created. -/
theorem deletedSync_lists {state : Teardown}
    (same : state.system.server.objects = (deletedServer none (by rintro _ ⟨⟩)).objects) :
    ListsCopies settingsRef state deletedSync := by
  rintro key ⟨stored, found, copy, -⟩
  rw [same] at found
  by_cases here : key = settingsCopy
  · rw [here]
    decide
  · have kept : Function.update (fun _ => none)
      (⟨"", "ConfigMap", "default", "settings"⟩ : ObjectKey)
        (some (⟨heldSource, none⟩ : Stored)) key = some stored :=
      (Function.update_of_ne here ..).symm.trans found
    by_cases source : key = ⟨"", "ConfigMap", "default", "settings"⟩
    · rw [source, Function.update_self] at kept
      rw [← Option.some.inj kept] at copy
      cases copy
    · rw [Function.update_of_ne source] at kept
      cases kept

/-- Calls that pass the check are answered in an interleaving. -/
theorem TeardownPool.reach_answered (pool : TeardownPool) (task : TeardownTask)
    (resourceVersion : String) (count : Nat)
    (pass : pool.callsPass task (Teardown.answer task resourceVersion) inTime count = true) :
    (teardown configMaps settingsRef (ListsCopies settingsRef) (CreatesInTime settingsRef)).Reach
      pool (pool.answered task resourceVersion count) :=
  Rules.reach_calls_of_pass (fun _ _ checked => Teardown.answer_allowed resourceVersion
    fun _ => createsInTime_of_check checked) pool count pass

/-- The schedule in which the copy is created in time is an interleaving. -/
theorem copyInTime_reached :
    (teardown configMaps settingsRef (ListsCopies settingsRef) (CreatesInTime settingsRef)).Reach
      (TeardownPool.fresh none (by rintro _ ⟨⟩)) copyInTime := by
  have awaited := (TeardownPool.reach_reconcile rfl).trans
    (TeardownPool.reach_answered (TeardownPool.fresh none (by rintro _ ⟨⟩)).reconcile
      .resourceController "2" 4 (by decide +kernel))
  have started := awaited.trans (TeardownPool.reach_delete rfl (by decide +kernel)
    (deletedSync_lists rfl))
  have created := (started.trans (TeardownPool.reach_answered copyAwaited.delete .deleter "3" 1
    (by decide +kernel))).trans (TeardownPool.reach_answered
      (copyAwaited.delete.answered .deleter "3" 1) .resourceController "4" 1 (by decide +kernel))
  have deleted := created.trans (TeardownPool.reach_answered copyCreated .deleter "5" 11
    (by decide +kernel))
  exact (deleted.trans (TeardownPool.reach_deleted (by decide +kernel))).trans
    (TeardownPool.reach_answered (copyCreated.answered .deleter "5" 11).deleted
      .resourceController "6" 2 (by decide +kernel))

/-- A run that has looked the ObjectSync up before creates the copy, and it does not outlive
`delete`. -/
theorem copyInTime_not_live :
    (copyCreated.world.early = true ∧
      copyCreated.world.system.server.LiveCopy settingsRef settingsCopy) ∧
      copyInTime.world.finished = true ∧
        ¬copyInTime.world.system.server.LiveCopy settingsRef settingsCopy :=
  ⟨by decide +kernel, by decide +kernel, no_copies_of_finished (fun _ => rfl) rfl rfl rfl
    registeredOnce_consistent copyInTime_reached (by decide +kernel) settingsCopy⟩

/-- The copy is created after `delete` has succeeded and the ObjectSync is gone. -/
theorem copyLeftBehind_live :
    (teardown configMaps settingsRef (fun _ _ => True) (fun _ _ => True)).Reach
        (TeardownPool.fresh none (by rintro _ ⟨⟩)) copyLeftBehind ∧
      copyLeftBehind.world.finished = true ∧
      copyLeftBehind.world.system.server.syncs settingsRef.name = none ∧
      copyLeftBehind.world.system.server.LiveCopy settingsRef settingsCopy := by
  have answers (pool : TeardownPool) (task : TeardownTask) (resourceVersion : String)
      (count : Nat) :
      (teardown configMaps settingsRef (fun _ _ => True) (fun _ _ => True)).Reach pool
        (pool.answered task resourceVersion count) :=
    Rules.reach_calls (fun _ _ => Teardown.answer_allowed resourceVersion fun _ => trivial) pool
      count
  refine ⟨?_, rfl, by decide +kernel, by decide +kernel⟩
  have looked := (TeardownPool.reach_reconcile rfl).trans
    (answers (TeardownPool.fresh none (by rintro _ ⟨⟩)).reconcile .resourceController "2" 4)
  have started := looked.trans (TeardownPool.reach_delete rfl (by decide +kernel) trivial)
  have ran := (started.trans (answers _ .deleter "3" 5)).trans (answers _ .deleter "4" 6)
  exact (ran.trans (TeardownPool.reach_deleted (by decide +kernel))).trans
    (answers _ .resourceController "5" 1)

end ObjectSyncer
