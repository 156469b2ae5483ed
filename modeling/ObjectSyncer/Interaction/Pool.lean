import Mathlib.Logic.Relation
import ObjectSyncer.Interaction.Safety

/-!
# Programs that share a state

Threads run programs on one state, a call of one thread at a time, and the environment moves in
between. A discipline gives each thread a rely and all threads an invariant; when every program that
is started keeps its part, every state that any interleaving reaches satisfies the invariant and
the assertion of every thread.
-/
namespace Interaction

/-- A shared state and the program that each thread is running, if any. -/
structure Pool (Thread Call : Type) (Reply : Call → Type) (World α : Type) where
  world : World
  running : Thread → Option (Program Call Reply α)

/-- What threads and their environment may do. -/
structure Rules (Thread Call : Type) (Reply : Call → Type) (World α : Type) where
  /-- The programs that an idle thread may start, with the state afterwards. -/
  starts : Thread → World → Program Call Reply α → World → Prop
  /-- The answers to the calls of a thread. -/
  answers : Thread → Answers Call Reply World
  /-- The end of a program with a value, with the state afterwards. -/
  ends : Thread → World → α → World → Prop
  /-- The moves of the environment. -/
  moves : World → World → Prop

variable {Thread Call : Type} {Reply : Call → Type} {World α : Type}

namespace Pool

/-- Give a thread something else to run, in another state. -/
def set [DecidableEq Thread] (pool : Pool Thread Call Reply World α) (thread : Thread)
    (program : Option (Program Call Reply α)) (world : World) : Pool Thread Call Reply World α where
  world := world
  running := Function.update pool.running thread program

/-- The call that a thread makes next, if any. -/
def pending (pool : Pool Thread Call Reply World α) (thread : Thread) : Option Call :=
  (pool.running thread).bind Program.pending

/-- A thread with a next call is waiting for its reply. -/
theorem exists_resume {pool : Pool Thread Call Reply World α} {thread : Thread} {request : Call}
    (waits : pool.pending thread = some request) :
    ∃ resume, pool.running thread = some (.call request resume) := by
  obtain ⟨program, running, waits⟩ := Option.bind_eq_some_iff.mp waits
  obtain ⟨resume, rfl⟩ := Program.exists_resume waits
  exact ⟨resume, running⟩

/-- The value of the program of a thread, once it is done. -/
def result (pool : Pool Thread Call Reply World α) (thread : Thread) : Option α :=
  (pool.running thread).bind Program.result

/-- A thread whose program has a value has finished it. -/
theorem running_of_result {pool : Pool Thread Call Reply World α} {thread : Thread} {value : α}
    (done : pool.result thread = some value) : pool.running thread = some (.done value) := by
  obtain ⟨program, running, done⟩ := Option.bind_eq_some_iff.mp done
  cases program with
  | done value' => rw [running, Option.some.inj done]
  | call request resume => cases done

section Set

variable [DecidableEq Thread] (pool : Pool Thread Call Reply World α) (thread : Thread)
  (program : Option (Program Call Reply α)) (world : World)

/-- The thread that is set runs what it was given. -/
@[simp] theorem set_running_self : (pool.set thread program world).running thread = program :=
  Function.update_self ..

/-- Setting a thread leaves what the other threads run. -/
theorem set_running_of_ne {other : Thread} (different : other ≠ thread) :
    (pool.set thread program world).running other = pool.running other :=
  Function.update_of_ne different ..

/-- The last of two changes counts. -/
@[simp] theorem set_set (program' : Option (Program Call Reply α)) (world' : World) :
    (pool.set thread program world).set thread program' world' =
      pool.set thread program' world' := by
  simp only [set, Function.update_idem]

/-- Setting what a thread runs to what it runs changes nothing. -/
theorem set_self (running : pool.running thread = program) :
    pool.set thread program pool.world = pool := by
  subst running
  cases pool
  simp only [set, Function.update_eq_self]

end Set

end Pool

namespace Rules

variable [DecidableEq Thread]

/-- One step of one thread or of the environment. -/
inductive Step (rules : Rules Thread Call Reply World α) :
    Pool Thread Call Reply World α → Pool Thread Call Reply World α → Prop
  /-- An idle thread starts a program. -/
  | start {pool : Pool Thread Call Reply World α} (thread : Thread)
      {program : Program Call Reply α} {after : World} : pool.running thread = none →
      rules.starts thread pool.world program after →
      Step rules pool (pool.set thread (some program) after)
  /-- A call of a thread is answered. -/
  | call {pool : Pool Thread Call Reply World α} (thread : Thread) {request : Call}
      {resume : Reply request → Program Call Reply α} {reply : Reply request} {after : World} :
      pool.running thread = some (.call request resume) →
      rules.answers thread pool.world request reply after →
      Step rules pool (pool.set thread (some (resume reply)) after)
  /-- A thread has finished its program and is idle again. -/
  | finish {pool : Pool Thread Call Reply World α} (thread : Thread) {value : α} {after : World} :
      pool.running thread = some (.done value) → rules.ends thread pool.world value after →
      Step rules pool (pool.set thread none after)
  /-- The environment moves. -/
  | move {pool : Pool Thread Call Reply World α} {after : World} :
      rules.moves pool.world after → Step rules pool { pool with world := after }

/-- The pools that any interleaving leads to. -/
def Reach (rules : Rules Thread Call Reply World α) :
    Pool Thread Call Reply World α → Pool Thread Call Reply World α → Prop :=
  Relation.ReflTransGen rules.Step

end Rules

/-- A rely of each thread and an invariant of all, which the threads grant each other. -/
structure Discipline (rules : Rules Thread Call Reply World α) where
  /-- What holds of every state. -/
  invariant : World → Prop
  /-- What a thread relies on the others to do. -/
  rely : Thread → World → World → Prop
  /-- What every answered call of a thread ensures. -/
  ensures : Thread → Answers Call Reply World
  /-- What holds of a thread that runs no program. -/
  idle : Thread → World → Prop
  /-- What holds when a thread finishes its program. -/
  post : Thread → α → World → Prop
  rely_refl : ∀ thread world, rely thread world world
  rely_trans : ∀ {thread first second third}, rely thread first second →
    rely thread second third → rely thread first third
  idle_stable : ∀ {thread before after}, invariant before → invariant after →
    rely thread before after → idle thread before → idle thread after
  post_stable : ∀ {thread value before after}, rely thread before after → invariant after →
    post thread value before → post thread value after
  ends : ∀ {thread before value after}, invariant before → post thread value before →
    rules.ends thread before value after →
      invariant after ∧ idle thread after ∧ ∀ other, other ≠ thread → rely other before after
  moves : ∀ {before after}, invariant before → rules.moves before after →
    invariant after ∧ ∀ thread, rely thread before after

namespace Discipline

variable {rules : Rules Thread Call Reply World α} (discipline : Discipline rules)

/-- The contract of a thread: it keeps the invariant and what the others rely on, and ensures what
its calls are for. -/
@[reducible] def contract (thread : Thread) : Contract Call Reply World where
  rely := fun before after => discipline.rely thread before after ∧ discipline.invariant after
  answers := fun before request reply after =>
    discipline.invariant before ∧ rules.answers thread before request reply after
  guarantee := fun before request reply after =>
    discipline.invariant after ∧ (∀ other, other ≠ thread → discipline.rely other before after) ∧
      discipline.ensures thread before request reply after

/-- Every thread that is started keeps its contract. -/
def Kept : Prop :=
  ∀ thread {before program after}, discipline.invariant before → discipline.idle thread before →
    rules.starts thread before program after →
      discipline.invariant after ∧ (∀ other, other ≠ thread → discipline.rely other before after) ∧
        program.wp (discipline.contract thread) (discipline.post thread) after

/-- The invariant holds, and every thread satisfies its assertion. -/
structure Holds (pool : Pool Thread Call Reply World α) : Prop where
  world : discipline.invariant pool.world
  idle : ∀ thread, pool.running thread = none → discipline.idle thread pool.world
  running : ∀ thread program, pool.running thread = some program →
    program.wp (discipline.contract thread) (discipline.post thread) pool.world

variable {discipline}

/-- The assertions of a thread survive what it relies on. -/
theorem Holds.stable {pool : Pool Thread Call Reply World α} (holds : discipline.Holds pool)
    {after : World} {thread : Thread} (world : discipline.invariant after)
    (moves : discipline.rely thread pool.world after) :
    (pool.running thread = none → discipline.idle thread after) ∧
      ∀ program, pool.running thread = some program →
        program.wp (discipline.contract thread) (discipline.post thread) after := by
  refine ⟨fun none => discipline.idle_stable holds.world world moves (holds.idle thread none),
    fun program running => ?_⟩
  refine Program.wp_stable ?_ ?_ ⟨moves, world⟩ (holds.running thread program running)
  · rintro first second third ⟨step, -⟩ ⟨next, last⟩
    exact ⟨discipline.rely_trans step next, last⟩
  · rintro value before after ⟨step, last⟩ done
    exact discipline.post_stable step last done

/-- Every answered call ensures what it is for. -/
theorem Holds.ensured {pool : Pool Thread Call Reply World α} (holds : discipline.Holds pool)
    {thread : Thread} {request : Call} {resume : Reply request → Program Call Reply α}
    {reply : Reply request} {after : World}
    (running : pool.running thread = some (.call request resume))
    (answered : rules.answers thread pool.world request reply after) :
    discipline.ensures thread pool.world request reply after :=
  (holds.running thread _ running _ ⟨discipline.rely_refl thread _, holds.world⟩ _ _
    ⟨holds.world, answered⟩).1.2.2

variable [DecidableEq Thread]

/-- The assertions hold after one thread changed what it runs, when they hold of that thread and
the others can rely on the change. -/
theorem Holds.set {pool : Pool Thread Call Reply World α} (holds : discipline.Holds pool)
    {thread : Thread} {program : Option (Program Call Reply α)} {after : World}
    (world : discipline.invariant after)
    (others : ∀ other, other ≠ thread → discipline.rely other pool.world after)
    (idle : program = none → discipline.idle thread after)
    (running : ∀ current, program = some current →
      current.wp (discipline.contract thread) (discipline.post thread) after) :
    discipline.Holds (pool.set thread program after) := by
  refine ⟨world, fun other none => ?_, fun other current some => ?_⟩
  · by_cases same : other = thread
    · subst same
      rw [Pool.set_running_self] at none
      exact idle none
    · rw [pool.set_running_of_ne _ _ _ same] at none
      exact (holds.stable world (others other same)).1 none
  · by_cases same : other = thread
    · subst same
      rw [Pool.set_running_self] at some
      exact running current some
    · rw [pool.set_running_of_ne _ _ _ same] at some
      exact (holds.stable world (others other same)).2 current some

/-- Every step keeps all assertions. -/
theorem Holds.step {pool pool' : Pool Thread Call Reply World α} (kept : discipline.Kept)
    (holds : discipline.Holds pool) (step : rules.Step pool pool') : discipline.Holds pool' := by
  cases step with
  | start thread none starts =>
    obtain ⟨world, others, satisfied⟩ := kept thread holds.world (holds.idle thread none) starts
    exact holds.set world others nofun (by rintro _ ⟨⟩; exact satisfied)
  | call thread running answered =>
    obtain ⟨⟨world, others, -⟩, satisfied⟩ := holds.running thread _ running _
      ⟨discipline.rely_refl thread _, holds.world⟩ _ _ ⟨holds.world, answered⟩
    exact holds.set world others nofun (by rintro _ ⟨⟩; exact satisfied)
  | finish thread running ended =>
    obtain ⟨world, idle, others⟩ :=
      discipline.ends holds.world (holds.running thread _ running) ended
    exact holds.set world others (fun _ => idle) nofun
  | move moved =>
    obtain ⟨world, all⟩ := discipline.moves holds.world moved
    exact ⟨world, fun thread => (holds.stable world (all thread)).1,
      fun thread => (holds.stable world (all thread)).2⟩

/-- Every interleaving keeps all assertions. -/
theorem Holds.reach {pool pool' : Pool Thread Call Reply World α} (kept : discipline.Kept)
    (holds : discipline.Holds pool) (reach : rules.Reach pool pool') : discipline.Holds pool' := by
  induction reach with
  | refl => exact holds
  | tail _ step ih => exact ih.step kept step

end Discipline

variable [DecidableEq Thread]

namespace Pool

/-- Let a thread make a number of calls against a handler. -/
def calls (pool : Pool Thread Call Reply World α) (thread : Thread)
    (handler : Handler Call Reply World) (count : Nat) : Pool Thread Call Reply World α :=
  match pool.running thread with
  | none => pool
  | some program =>
    let (rest, world) := program.runFor handler count pool.world
    pool.set thread (some rest) world

/-- The calls of a thread are none of another thread. -/
theorem calls_running_of_ne (pool : Pool Thread Call Reply World α) {thread other : Thread}
    (different : other ≠ thread) (handler : Handler Call Reply World) (count : Nat) :
    (pool.calls thread handler count).running other = pool.running other := by
  unfold calls
  split
  · rfl
  · exact pool.set_running_of_ne _ _ _ different

/-- Whether the calls that a handler answers for a thread pass a check. -/
def callsPass (pool : Pool Thread Call Reply World α) (thread : Thread)
    (handler : Handler Call Reply World) (check : World → Call → Bool) (count : Nat) : Bool :=
  (pool.running thread).all fun program => program.checkFor handler check count pool.world

end Pool

/-- A schedule of calls that pass a check is an interleaving. -/
theorem Rules.reach_calls_of_pass {rules : Rules Thread Call Reply World α} {thread : Thread}
    {handler : Handler Call Reply World} {check : World → Call → Bool}
    (allowed : ∀ world request, check world request → rules.answers thread world request
      (handler world request).1 (handler world request).2)
    (pool : Pool Thread Call Reply World α) (count : Nat)
    (pass : pool.callsPass thread handler check count) :
    rules.Reach pool (pool.calls thread handler count) := by
  unfold Pool.calls
  unfold Pool.callsPass at pass
  cases running : pool.running thread with
  | none => exact .refl
  | some program =>
    rw [running, Option.all_some] at pass
    dsimp only
    induction count generalizing pool program with
    | zero =>
      rw [Program.runFor, pool.set_self thread _ running]
      exact .refl
    | succ count ih =>
      cases program with
      | done value =>
        rw [Program.runFor, pool.set_self thread _ running]
        exact .refl
      | call request resume =>
        obtain ⟨now, rest⟩ := Bool.and_eq_true_iff.mp pass
        have step := Step.call thread running (allowed pool.world request now)
        have later := ih (pool.set thread (some (resume (handler pool.world request).1))
          (handler pool.world request).2) _ rest (pool.set_running_self ..)
        rw [Pool.set_set] at later
        exact .head step later

/-- Calls that are answered are an interleaving, where the answers are allowed as long as an
invariant holds, and keep it. -/
theorem Rules.reach_calls_kept {rules : Rules Thread Call Reply World α} {thread : Thread}
    {handler : Handler Call Reply World} {check : World → Call → Bool} {invariant : World → Prop}
    (allowed : ∀ world request, invariant world → check world request →
      rules.answers thread world request (handler world request).1 (handler world request).2 ∧
        invariant (handler world request).2)
    (pool : Pool Thread Call Reply World α) (start : invariant pool.world) (count : Nat)
    (pass : pool.callsPass thread handler check count) :
    rules.Reach pool (pool.calls thread handler count) ∧
      invariant (pool.calls thread handler count).world := by
  unfold Pool.calls
  unfold Pool.callsPass at pass
  cases running : pool.running thread with
  | none => exact ⟨.refl, start⟩
  | some program =>
    rw [running, Option.all_some] at pass
    dsimp only
    induction count generalizing pool program with
    | zero =>
      rw [Program.runFor, pool.set_self thread _ running]
      exact ⟨.refl, start⟩
    | succ count ih =>
      cases program with
      | done value =>
        rw [Program.runFor, pool.set_self thread _ running]
        exact ⟨.refl, start⟩
      | call request resume =>
        obtain ⟨now, rest⟩ := Bool.and_eq_true_iff.mp pass
        obtain ⟨answered, kept⟩ := allowed pool.world request start now
        have later := ih (pool.set thread (some (resume (handler pool.world request).1))
          (handler pool.world request).2) kept _ rest (pool.set_running_self ..)
        rw [Pool.set_set] at later
        exact ⟨.head (.call thread running answered) later.1, later.2⟩

/-- A schedule of calls is an interleaving. -/
theorem Rules.reach_calls {rules : Rules Thread Call Reply World α} {thread : Thread}
    {handler : Handler Call Reply World}
    (allowed : ∀ world request, rules.answers thread world request (handler world request).1
      (handler world request).2)
    (pool : Pool Thread Call Reply World α) (count : Nat) :
    rules.Reach pool (pool.calls thread handler count) := by
  refine @reach_calls_of_pass _ _ _ _ _ _ _ _ _ (fun _ _ => true)
    (fun world request _ => allowed world request) pool count ?_
  unfold Pool.callsPass
  cases pool.running thread with
  | none => rfl
  | some program => exact program.checkFor_true handler count pool.world

end Interaction
