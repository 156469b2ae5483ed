import Mathlib.Logic.Function.Basic

/-!
# Programs that call their environment

A program either is done with a value or makes one call and resumes with its reply. The replies
of a call are typed by the call, and the tree has a branch for every reply, so a statement about
a program quantifies over everything its environment may answer. Programs compose by `bind`;
running one against a handler of calls and following one call by call are defined here, and the
logic over them is in `Safety`.
-/
namespace Interaction

/-- A sequential program over calls of type `Call`, each answered by its own type of replies. -/
inductive Program (Call : Type) (Reply : Call → Type) (α : Type) : Type where
  /-- The program has returned. -/
  | done (value : α)
  /-- The program makes a call and resumes with its reply. -/
  | call (request : Call) (resume : Reply request → Program Call Reply α)

/-- How an environment in one state may answer a call, and the state it leaves. -/
abbrev Answers (Call : Type) (Reply : Call → Type) (World : Type) :=
  World → (request : Call) → Reply request → World → Prop

/-- An environment that answers every call in one way. -/
abbrev Handler (Call : Type) (Reply : Call → Type) (World : Type) :=
  World → (request : Call) → Reply request × World

namespace Program

variable {Call : Type} {Reply : Call → Type} {World α β γ : Type}

/-- Run a program, then the program chosen by its value. -/
protected def bind : Program Call Reply α → (α → Program Call Reply β) → Program Call Reply β
  | .done value, next => next value
  | .call request resume, next => .call request fun reply => (resume reply).bind next

/-- Programs are made one after the other, by returning a value and by going on with it. -/
instance : Monad (Program Call Reply) where
  pure := .done
  bind := Program.bind

/-- A single call returns its reply. -/
def perform (request : Call) : Program Call Reply (Reply request) := .call request .done

/-- Returning a value makes no call. -/
@[simp] theorem pure_eq (value : α) : (pure value : Program Call Reply α) = .done value := rfl

/-- A program that has returned goes on with its value. -/
@[simp] theorem done_bind (value : α) (next : α → Program Call Reply β) :
    (Program.done value : Program Call Reply α) >>= next = next value := rfl

/-- The first call of a sequence is that of its first part. -/
@[simp] theorem call_bind (request : Call) (resume : Reply request → Program Call Reply α)
    (next : α → Program Call Reply β) :
    Program.call request resume >>= next = .call request fun reply => resume reply >>= next := rfl

/-- A sequence that begins with a single call goes on with its reply. -/
@[simp] theorem perform_bind (request : Call) (next : Reply request → Program Call Reply β) :
    perform request >>= next = .call request next := rfl

/-- Returning the value of a program afterwards changes nothing. -/
theorem bind_done (program : Program Call Reply α) : program >>= Program.done = program := by
  induction program with
  | done value => rfl
  | call request resume ih =>
    rw [call_bind]
    congr 1
    funext reply
    exact ih reply

/-- The grouping of a sequence of programs is immaterial. -/
theorem bind_assoc (program : Program Call Reply α) (first : α → Program Call Reply β)
    (second : β → Program Call Reply γ) :
    program >>= first >>= second = program >>= fun value => first value >>= second := by
  induction program with
  | done value => rfl
  | call request resume ih =>
    simp only [call_bind]
    congr 1
    funext reply
    exact ih reply

/-- Sequences of programs obey the laws of monads. -/
instance : LawfulMonad (Program Call Reply) :=
  LawfulMonad.mk' (m := Program Call Reply) bind_done (fun _ _ => rfl) bind_assoc

/-- The call that a program makes next. -/
def pending : Program Call Reply α → Option Call
  | .done _ => none
  | .call request _ => some request

/-- A program with a next call is waiting for its reply. -/
theorem exists_resume {program : Program Call Reply α} {request : Call}
    (waits : program.pending = some request) :
    ∃ resume, program = .call request resume := by
  cases program with
  | done value => contradiction
  | call request' resume =>
    obtain rfl := Option.some.inj waits
    exact ⟨resume, rfl⟩

/-- The value of a program that is done. -/
def result : Program Call Reply α → Option α
  | .done value => some value
  | .call _ _ => none

/-- Label every call of a program, leaving its replies as they are. -/
def label {Label : Type} (name : Label) :
    Program Call Reply α → Program (Label × Call) (fun labelled => Reply labelled.2) α
  | .done value => .done value
  | .call request resume => .call (name, request) fun reply => (resume reply).label name

/-- Run a program to its end against a handler. -/
def run (handler : Handler Call Reply World) : Program Call Reply α → World → α × World
  | .done value, world => (value, world)
  | .call request resume, world =>
    let (reply, after) := handler world request
    (resume reply).run handler after

/-- Run at most a number of calls of a program, leaving the rest of it. -/
def runFor (handler : Handler Call Reply World) :
    Nat → Program Call Reply α → World → Program Call Reply α × World
  | 0, program, world => (program, world)
  | _ + 1, .done value, world => (.done value, world)
  | count + 1, .call request resume, world =>
    let (reply, after) := handler world request
    (resume reply).runFor handler count after

/-- Whether every call that a handler answers passes a check. -/
def checkFor (handler : Handler Call Reply World) (check : World → Call → Bool) :
    Nat → Program Call Reply α → World → Bool
  | 0, _, _ => true
  | _ + 1, .done _, _ => true
  | count + 1, .call request resume, world =>
    let (reply, after) := handler world request
    check world request && (resume reply).checkFor handler check count after

/-- Where everything passes there is nothing to check. -/
theorem checkFor_true (handler : Handler Call Reply World) (count : Nat)
    (program : Program Call Reply α) (world : World) :
    program.checkFor handler (fun _ _ => true) count world = true := by
  induction count generalizing program world with
  | zero => rfl
  | succ count ih =>
    cases program with
    | done value => rfl
    | call request resume => exact ih _ _

/-- The program and state reached from another program and state by some of its calls. Before
each call the environment may have moved. -/
inductive Steps (moves : World → World → Prop) (answers : Answers Call Reply World) :
    Program Call Reply α → World → Program Call Reply α → World → Prop
  /-- No call has been made. -/
  | refl (program : Program Call Reply α) (world : World) :
      Steps moves answers program world program world
  /-- One call is answered, then further calls are. -/
  | call {request : Call} {resume : Reply request → Program Call Reply α}
      {world moved middle after : World} {reply : Reply request} {rest : Program Call Reply α} :
      moves world moved → answers moved request reply middle →
      Steps moves answers (resume reply) middle rest after →
      Steps moves answers (.call request resume) world rest after

/-- A whole execution: the program returns a value in a final state. -/
def Returns (moves : World → World → Prop) (answers : Answers Call Reply World)
    (program : Program Call Reply α) (world : World) (value : α) (after : World) : Prop :=
  Steps moves answers program world (.done value) after

/-- A program makes a request in some execution. -/
def Issues (moves : World → World → Prop) (answers : Answers Call Reply World)
    (program : Program Call Reply α) (world : World) (request : Call) : Prop :=
  ∃ resume after, Steps moves answers program world (.call request resume) after

/-- The first call of a program is issued. -/
theorem issues_call {moves : World → World → Prop} {answers : Answers Call Reply World}
    {request : Call} {resume : Reply request → Program Call Reply α} {world : World} :
    Issues moves answers (.call request resume) world request :=
  ⟨resume, world, .refl _ _⟩

/-- What is issued after one answer to its first call is issued by the program. -/
theorem Issues.after {moves : World → World → Prop} {answers : Answers Call Reply World}
    {request later : Call} {resume : Reply request → Program Call Reply α} {world : World}
    (moved middle : World) (reply : Reply request)
    (issued : Issues moves answers (resume reply) middle later) (move : moves world moved)
    (answered : answers moved request reply middle) :
    Issues moves answers (.call request resume) world later := by
  obtain ⟨rest, after, steps⟩ := issued
  exact ⟨rest, after, .call move answered steps⟩

/-- What a program issues it issues as the first part of a sequence. -/
theorem Issues.bind {moves : World → World → Prop} {answers : Answers Call Reply World}
    {program : Program Call Reply α} {world : World} {request : Call}
    (issued : Issues moves answers program world request)
    (next : α → Program Call Reply β) : Issues moves answers (program >>= next) world request := by
  obtain ⟨resume, after, steps⟩ := issued
  generalize goal : Program.call request resume = last at steps
  induction steps with
  | refl program world =>
    subst goal
    exact issues_call
  | call move answered _ ih => exact (ih goal).after _ _ _ move answered

/-- A run stopped after some calls is an unfinished execution, for any environment that allows
the answers of the handler to calls that pass a check, where an invariant holds that they keep. -/
theorem steps_runFor {moves : World → World → Prop} {answers : Answers Call Reply World}
    {handler : Handler Call Reply World} {check : World → Call → Bool} {invariant : World → Prop}
    (still : ∀ world, moves world world)
    (allowed : ∀ world request, invariant world → check world request = true →
      answers world request (handler world request).1 (handler world request).2 ∧
        invariant (handler world request).2) {count : Nat} {program : Program Call Reply α}
    {world : World} (start : invariant world)
    (checked : program.checkFor handler check count world = true) :
    Steps moves answers program world (program.runFor handler count world).1
      (program.runFor handler count world).2 ∧
        invariant (program.runFor handler count world).2 := by
  induction count generalizing program world with
  | zero => exact ⟨.refl _ _, start⟩
  | succ count ih =>
    cases program with
    | done value => exact ⟨.refl _ _, start⟩
    | call request resume =>
      obtain ⟨now, later⟩ := Bool.and_eq_true_iff.mp checked
      obtain ⟨answered, next⟩ := allowed world request start now
      obtain ⟨steps, kept⟩ := ih next later
      exact ⟨.call (still world) answered steps, kept⟩

/-- A program that is done has a value. -/
theorem exists_done {program : Program Call Reply α} (finished : program.result.isSome = true) :
    ∃ value, program = .done value := by
  cases program with
  | done value => exact ⟨value, rfl⟩
  | call request resume => cases finished

/-- Running to the end is an execution, for any environment that allows the answers. -/
theorem returns_run {moves : World → World → Prop} {answers : Answers Call Reply World}
    {handler : Handler Call Reply World} (still : ∀ world, moves world world)
    (allowed : ∀ world request, answers world request (handler world request).1
      (handler world request).2) (program : Program Call Reply α) (world : World) :
    Returns moves answers program world (program.run handler world).1
      (program.run handler world).2 := by
  induction program generalizing world with
  | done value => exact .refl _ _
  | call request resume ih => exact .call (still world) (allowed world request) (ih _ _)

/-- Where every call can be answered, a program has an execution to its end. -/
theorem exists_returns {moves : World → World → Prop} {answers : Answers Call Reply World}
    (still : ∀ world, moves world world)
    (total : ∀ world request, ∃ reply after, answers world request reply after)
    (program : Program Call Reply α) (world : World) :
    ∃ value after, Returns moves answers program world value after := by
  induction program generalizing world with
  | done value => exact ⟨value, world, .refl _ _⟩
  | call request resume ih =>
    obtain ⟨reply, middle, answered⟩ := total world request
    obtain ⟨value, after, returned⟩ := ih reply middle
    exact ⟨value, after, .call (still world) answered returned⟩

end Program

end Interaction
