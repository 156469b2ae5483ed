import Mathlib.Algebra.BigOperators.Group.List.Basic
import Mathlib.Algebra.Ring.Nat
import ObjectSyncer.Interaction.Safety

/-!
# What a program costs

An execution makes a list of calls, each of which costs something. A budget bounds what the calls of
a program cost in any of its executions, given what is known of every reply. The rules are those
that proofs about programs use: sequencing, consequence, and what is known of the value by other
means.
-/
namespace Interaction.Program

variable {Call : Type} {Reply : Call → Type} {α β : Type}

/-- The calls of an execution, and its value if the program has returned. -/
inductive Calls (replies : (request : Call) → Reply request → Prop) :
    Program Call Reply α → List Call → Option α → Prop
  /-- The program is cut off, or is looked at before its next call. -/
  | cut (program : Program Call Reply α) : Calls replies program [] none
  /-- The program has returned. -/
  | done (value : α) : Calls replies (.done value) [] (some value)
  /-- One call is answered, then further calls are. -/
  | call {request : Call} {resume : Reply request → Program Call Reply α} {reply : Reply request}
      {calls : List Call} {ending : Option α} :
      replies request reply → Calls replies (resume reply) calls ending →
      Calls replies (.call request resume) (request :: calls) ending

/-- The calls that a program makes when a function answers them, up to a number of calls. -/
def callsOf (answer : (request : Call) → Reply request) : Nat → Program Call Reply α → List Call
  | 0, _ => []
  | _ + 1, .done _ => []
  | limit + 1, .call request resume => request :: callsOf answer limit (resume (answer request))

/-- The calls that a function answers are those of an execution, if what is known of replies holds
of its answers. -/
theorem calls_callsOf {replies : (request : Call) → Reply request → Prop}
    {answer : (request : Call) → Reply request}
    (known : ∀ request, replies request (answer request))
    (limit : Nat) (program : Program Call Reply α) :
    Calls replies program (program.callsOf answer limit) none := by
  induction limit generalizing program with
  | zero => exact .cut program
  | succ limit ih =>
    cases program with
    | done value => exact .cut _
    | call request resume => exact .call (known request) (ih _)

/-- The calls of a program cost at most a budget, and it returns a value with a property. -/
def Costs (replies : (request : Call) → Reply request → Prop) (cost : Call → Nat)
    (result : α → Prop) : Program Call Reply α → Nat → Prop
  | .done value, _ => result value
  | .call request resume, budget => cost request ≤ budget ∧
    ∀ reply, replies request reply →
      (resume reply).Costs replies cost result (budget - cost request)

section Rules

variable {replies : (request : Call) → Reply request → Prop} {cost : Call → Nat}
  {result : α → Prop} {budget : Nat}

/-- A budget is one for a larger number, and for less to be known of the value. -/
theorem costs_mono {weaker : α → Prop} {larger : Nat} {program : Program Call Reply α}
    (implies : ∀ value, result value → weaker value) (more : budget ≤ larger)
    (holds : program.Costs replies cost result budget) :
    program.Costs replies cost weaker larger := by
  induction program generalizing budget larger with
  | done value => exact implies value holds
  | call request resume ih =>
    have affordable := holds.1
    constructor
    · omega
    · intro reply replied
      exact ih reply (by omega) (holds.2 reply replied)

/-- A sequence costs at most what its parts cost. -/
theorem costs_bind {after : β → Prop} {rest : Nat} {program : Program Call Reply α}
    {next : α → Program Call Reply β} (first : program.Costs replies cost result budget)
    (second : ∀ value, result value → (next value).Costs replies cost after rest) :
    (program >>= next).Costs replies cost after (budget + rest) := by
  induction program generalizing budget with
  | done value => exact costs_mono (fun _ => id) (Nat.le_add_left rest budget) (second value first)
  | call request resume ih =>
    have affordable := first.1
    constructor
    · omega
    · intro reply replied
      have same : budget + rest - cost request = budget - cost request + rest := by
        omega
      have further := ih reply (first.2 reply replied)
      rw [same]
      exact further

/-- What is known of the value by the requests of a program is known whatever it costs. -/
theorem costs_known {allowed : Call → Prop} {known : α → Prop} {program : Program Call Reply α}
    (shape : program.wp (.requests replies allowed) (fun value _ => known value) ())
    (holds : program.Costs replies cost result budget) :
    program.Costs replies cost (fun value => result value ∧ known value) budget := by
  induction program generalizing budget with
  | done value => exact ⟨holds, shape⟩
  | call request resume ih =>
    constructor
    · exact holds.1
    · intro reply replied
      exact ih reply (shape () trivial reply () replied).2 (holds.2 reply replied)

/-- A budget for some replies is one where more is known of the replies. -/
theorem costs_replies {known : (request : Call) → Reply request → Prop}
    {program : Program Call Reply α}
    (informs : ∀ request reply, known request reply → replies request reply)
    (holds : program.Costs replies cost result budget) :
    program.Costs known cost result budget := by
  induction program generalizing budget with
  | done value => exact holds
  | call request resume ih =>
    constructor
    · exact holds.1
    · intro reply replied
      exact ih reply (holds.2 reply (informs request reply replied))

/-- Labelling the calls of a program leaves what they cost. -/
theorem costs_label {Label : Type} {name : Label} {program : Program Call Reply α}
    (holds : program.Costs replies cost result budget) :
    (program.label name).Costs (fun call reply => replies call.2 reply) (fun call => cost call.2)
      result budget := by
  induction program generalizing budget with
  | done value => exact holds
  | call request resume ih =>
    constructor
    · exact holds.1
    · intro reply replied
      exact ih reply (holds.2 reply replied)

/-- No execution makes calls that cost more than the budget. -/
theorem Calls.sum_le {program : Program Call Reply α} {calls : List Call} {ending : Option α}
    (made : Calls replies program calls ending)
    (holds : program.Costs replies cost result budget) : (calls.map cost).sum ≤ budget := by
  induction made generalizing budget with
  | cut program => simp
  | done value => simp
  | @call request resume reply calls ending replied further ih =>
    have affordable := holds.1
    have later := ih (holds.2 reply replied)
    rw [List.map_cons, List.sum_cons]
    omega

end Rules

end Interaction.Program
