import ObjectSyncer.Registration
import ObjectSyncer.SourceFinalizer
import ObjectSyncer.Undisturbed

/-!
# Runs one after the other

The runs of both controllers for any number of ObjectSyncs and sources, one at a time and in any
order, with all requests served. Between two runs, users and others change the server at will. Runs
of `check` and `delete` start from the ObjectSync as it is stored, never from an outdated copy in
the cache of the watch; runs of `reconcile` start from any object that the cache may still hold.
-/
namespace ObjectSyncer

open Interaction Interaction.Program

/-- A run of the controller. -/
inductive Run where
  /-- `ObjectSyncController::check` for an ObjectSync. -/
  | check (o : ObjectSyncRef)
  /-- `ObjectSyncController::delete` for an ObjectSync. -/
  | delete (o : ObjectSyncRef)
  /-- `ResourceControllerImpl::reconcile` for an object as it is in the cache of the controller. -/
  | reconcile (controller : ResourceControllerImpl) (object : DynamicObject)
  deriving DecidableEq

/-- The system and the namespace cache of the controller. -/
structure Cluster where
  system : System
  cache : List Namespace
  /-- The objects that have carried the finalizer ever since a resource controller of a kind placed
  it there as on a source. -/
  placed : List (GroupVersionKind × ObjectKey)

/-- The object that a call of a resource controller of some kind marks as a source: it applies the
finalizer, and not on behalf of an ObjectSync. -/
def placedBy : Option ObjectSyncRef × Call → List (GroupVersionKind × ObjectKey)
  | (none, .api (.apply api name _)) => [(api.resource, api.key name)]
  | _ => []

/-- The marks of sources that are still there after a call. -/
def marksAfter (placed : List (GroupVersionKind × ObjectKey)) (server : Server) :
    List (GroupVersionKind × ObjectKey) :=
  placed.filter fun entry => server.CarriesFinalizer entry.2

/-- How the calls of a run are answered: every request is served, and the namespace cache does not
change. -/
def Cluster.answers (cache : List Namespace) :
    Answers (Option ObjectSyncRef × Call) (fun call => Reply call.2) Cluster :=
  fun before call reply after =>
    System.answersBy (Served call.1) before.system call.2 reply after.system ∧
      Cached cache call.2 reply ∧ after.cache = before.cache ∧
        after.placed = marksAfter (before.placed ++ placedBy call) after.system.server

/-- The replies are about what was asked for. -/
theorem Cluster.answers_honest {cache : List Namespace} {before after : Cluster}
    {call : Option ObjectSyncRef × Call} {reply : Reply call.2}
    (answered : Cluster.answers cache before call reply after) : Honest call.2 reply :=
  System.answersBy_honest (System.answersBy_mono (fun _ _ _ _ => .served) answered.1)

/-- The program of a run. A resource controller runs as long as it is alive. -/
inductive Run.Starts (cluster : Cluster) : Run → LabelledAsync Unit → Prop
  /-- An ObjectSync is checked. -/
  | check {o : ObjectSyncRef} {sync : ObjectSync} :
      cluster.system.server.syncs o.name = some sync →
      Run.Starts cluster (.check o)
        ((ObjectSyncController.check (.new sync)).label (some o) >>= fun _ => pure ())
  /-- An ObjectSync is deleted. -/
  | delete {o : ObjectSyncRef} {sync : ObjectSync} :
      cluster.system.server.syncs o.name = some sync →
      Run.Starts cluster (.delete o)
        ((ObjectSyncController.delete (.new sync)).label (some o) >>= fun _ => pure ())
  /-- An object is reconciled. -/
  | reconcile {controller : ResourceControllerImpl} {object : DynamicObject} :
      cluster.system.memory.kind controller.sources = some controller.gvk →
      cluster.system.memory.Alive controller.sources →
      Run.Starts cluster (.reconcile controller object)
        (controller.reconcile object >>= fun _ => pure ())

/-- What happens between two runs. -/
structure Edited (before after : Cluster) : Prop where
  memory : after.system.memory = before.system.memory
  placed : after.placed = marksAfter before.placed after.system.server

/-- The states without a run in flight that runs and edits lead to, each permitted where it
happens. -/
inductive Sequence (permits : Cluster → Run → Prop) (edits : Cluster → Cluster → Prop)
    (start : Cluster) : Cluster → Prop
  /-- Nothing has happened yet. -/
  | start : Sequence permits edits start start
  /-- Users and others change the server, and the namespace cache follows. -/
  | edit {before after : Cluster} : Sequence permits edits start before → Edited before after →
      edits before after → Sequence permits edits start after
  /-- A run is made to its end. -/
  | run {before after : Cluster} {run : Run} {program : LabelledAsync Unit} :
      Sequence permits edits start before → run.Starts before program → permits before run →
      Returns Eq (Cluster.answers before.cache) program before () after →
      Sequence permits edits start after

/-- A call of a run, with the state before and after it, in a sequence of permitted runs from a
controller that has just started. -/
inductive Happens (permits : Cluster → Run → Prop) : Run → Cluster → Cluster → Prop
  | intro {start begun before after : Cluster} {run : Run} {program : LabelledAsync Unit}
      {call : Option ObjectSyncRef × Call} {resume : Reply call.2 → LabelledAsync Unit}
      {reply : Reply call.2} :
      start.system.memory = Memory.empty →
      Sequence permits (fun _ _ => True) start begun → run.Starts begun program →
      permits begun run →
      Steps Eq (Cluster.answers begun.cache) program begun (.call call resume) before →
      Cluster.answers begun.cache before call reply after → Happens permits run before after

/-- Answer all calls of a run for given choices of the server. -/
def Cluster.answer (cache : List Namespace) (choice : Choice) :
    Handler (Option ObjectSyncRef × Call) (fun call => Reply call.2) Cluster :=
  fun cluster call =>
    let (reply, system) := cluster.system.answer call.1 choice cache "now" call.2
    (reply, ⟨system, cluster.cache,
      marksAfter (cluster.placed ++ placedBy call) system.server⟩)

/-- The answers to the calls of a run are possible. -/
theorem Cluster.answer_allowed (cache : List Namespace) (choice : Choice) (cluster : Cluster)
    (call : Option ObjectSyncRef × Call) :
    Cluster.answers cache cluster call (Cluster.answer cache choice cluster call).1
      (Cluster.answer cache choice cluster call).2 := by
  obtain ⟨maker, call⟩ := call
  refine ⟨System.answer_allowed maker choice cache "now" cluster.system call, ?_, rfl, rfl⟩
  cases call with
  | namespaces => rfl
  | _ => trivial

/-- The program of a run that can start. -/
def Run.program (cluster : Cluster) : Run → LabelledAsync Unit
  | .check o =>
    match cluster.system.server.syncs o.name with
    | none => pure ()
    | some sync => (ObjectSyncController.check (.new sync)).label (some o) >>= fun _ => pure ()
  | .delete o =>
    match cluster.system.server.syncs o.name with
    | none => pure ()
    | some sync => (ObjectSyncController.delete (.new sync)).label (some o) >>= fun _ => pure ()
  | .reconcile controller object => controller.reconcile object >>= fun _ => pure ()

/-- Whether a run can start. -/
def Run.canStart (cluster : Cluster) : Run → Bool
  | .check o | .delete o => (cluster.system.server.syncs o.name).isSome
  | .reconcile controller _ =>
    cluster.system.memory.kind controller.sources == some controller.gvk &&
      decide (cluster.system.memory.Alive controller.sources)

/-- A run that can start has its program. -/
theorem Run.starts {cluster : Cluster} {run : Run} (able : run.canStart cluster = true) :
    run.Starts cluster (run.program cluster) := by
  cases run with
  | check o =>
    obtain ⟨sync, found⟩ := Option.isSome_iff_exists.mp able
    have start := @Run.Starts.check cluster o sync found
    rw [Run.program, found]
    exact start
  | delete o =>
    obtain ⟨sync, found⟩ := Option.isSome_iff_exists.mp able
    have start := @Run.Starts.delete cluster o sync found
    rw [Run.program, found]
    exact start
  | reconcile controller object =>
    obtain ⟨kind, alive⟩ := Bool.and_eq_true_iff.mp able
    exact .reconcile (beq_iff_eq.mp kind) (of_decide_eq_true alive)

/-- The choices of a server, with the next resource version. -/
def versioned (resourceVersion : String) : Choice := ⟨"u", resourceVersion, 0, []⟩

/-- The state of a cluster after a run. -/
def Cluster.after (cluster : Cluster) (run : Run) (resourceVersion : String) : Cluster :=
  ((run.program cluster).run (Cluster.answer cluster.cache (versioned resourceVersion)) cluster).2

/-- What is left of a run, and the state, after a number of calls. -/
def Cluster.during (cluster : Cluster) (run : Run) (resourceVersion : String) (count : Nat) :
    LabelledAsync Unit × Cluster :=
  (run.program cluster).runFor (Cluster.answer cluster.cache (versioned resourceVersion)) count
    cluster

section Execution

variable {permits : Cluster → Run → Prop} {edits : Cluster → Cluster → Prop}
  {start cluster : Cluster} {run : Run}

/-- Runs that can start follow each other. -/
theorem Sequence.after (sequence : Sequence permits edits start cluster)
    (able : run.canStart cluster = true) (permitted : permits cluster run)
    (resourceVersion : String) :
    Sequence permits edits start (cluster.after run resourceVersion) :=
  .run sequence (Run.starts able) permitted
    (returns_run (fun _ => rfl) (fun world call => Cluster.answer_allowed _ _ world call) _ cluster)

/-- The next call of a run that can start happens. -/
theorem Happens.during (empty : start.system.memory = Memory.empty)
    (sequence : Sequence permits (fun _ _ => True) start cluster)
    (able : run.canStart cluster = true) (permitted : permits cluster run)
    {resourceVersion : String} {count : Nat} {call : Option ObjectSyncRef × Call}
    (waits : (cluster.during run resourceVersion count).1.pending = some call) :
    Happens permits run (cluster.during run resourceVersion count).2
      (Cluster.answer cluster.cache (versioned resourceVersion)
        (cluster.during run resourceVersion count).2 call).2 := by
  obtain ⟨resume, rest⟩ := Program.exists_resume waits
  have steps := (@steps_runFor _ _ _ _ Eq (Cluster.answers cluster.cache)
    (Cluster.answer cluster.cache (versioned resourceVersion)) (fun _ _ => true) (fun _ => True)
    (fun _ => rfl) (fun world call _ _ => ⟨Cluster.answer_allowed _ _ world call, trivial⟩) count
    (run.program cluster) cluster trivial (checkFor_true ..)).1
  unfold Cluster.during at rest ⊢
  rw [rest] at steps
  exact .intro empty sequence (Run.starts able) permitted steps (Cluster.answer_allowed ..)

end Execution

end ObjectSyncer
