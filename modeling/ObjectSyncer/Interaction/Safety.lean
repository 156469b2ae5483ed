import ObjectSyncer.Interaction.Program

/-!
# What a program keeps, whatever it is answered

A contract says how the environment may move between the calls of a program, how it may answer
them, and what every call of the program has to guarantee. `Program.wp` is the weakest condition
on a state under which every execution keeps the contract and ends in a postcondition. The rules
are those that proofs about programs use: sequencing, consequence, conjunction, stability, and a
view of the state.
-/
namespace Interaction

/-- What a program may rely on and what it has to guarantee. -/
structure Contract (Call : Type) (Reply : Call → Type) (World : Type) where
  /-- How the environment may move before a call. -/
  rely : World → World → Prop
  /-- How it may answer. -/
  answers : Answers Call Reply World
  /-- What must hold of every answered call. -/
  guarantee : Answers Call Reply World

/-- A contract that only bounds the requests of a program, whatever state it runs in, given what
is known of every reply. -/
@[reducible] def Contract.requests {Call : Type} {Reply : Call → Type}
    (replies : (request : Call) → Reply request → Prop) (allowed : Call → Prop) :
    Contract Call Reply Unit where
  rely := fun _ _ => True
  answers := fun _ request reply _ => replies request reply
  guarantee := fun _ request _ _ => allowed request

/-- The part of a contract that concerns the calls under one label. -/
@[reducible] def Contract.under {Label Call : Type} {Reply : Call → Type} {World : Type}
    (labelled : Contract (Label × Call) (fun call => Reply call.2) World) (name : Label) :
    Contract Call Reply World where
  rely := labelled.rely
  answers := fun world request => labelled.answers world (name, request)
  guarantee := fun world request => labelled.guarantee world (name, request)

namespace Program

variable {Call : Type} {Reply : Call → Type} {World View α β : Type}

/-- Every answer to a call keeps the guarantee, and the last state meets the postcondition. -/
def wp (contract : Contract Call Reply World) (post : α → World → Prop) :
    Program Call Reply α → World → Prop
  | .done value, world => post value world
  | .call request resume, world => ∀ moved, contract.rely world moved →
      ∀ reply after, contract.answers moved request reply after →
        contract.guarantee moved request reply after ∧ (resume reply).wp contract post after

section Rules

variable {contract : Contract Call Reply World}

/-- A program that has returned meets what holds of its value. -/
@[simp] theorem wp_done (value : α) (post : α → World → Prop) (world : World) :
    (Program.done value : Program Call Reply α).wp contract post world ↔ post value world :=
  Iff.rfl

/-- A call is met by the rest of the program, whatever others do before and whatever
it is answered. -/
theorem wp_call (request : Call) (resume : Reply request → Program Call Reply α)
    (post : α → World → Prop) (world : World) :
    (Program.call request resume).wp contract post world ↔
      ∀ moved, contract.rely world moved →
        ∀ reply after, contract.answers moved request reply after →
          contract.guarantee moved request reply after ∧ (resume reply).wp contract post after :=
  Iff.rfl

/-- A sequence meets a postcondition when its first part establishes what the second needs. -/
theorem wp_bind (program : Program Call Reply α) (next : α → Program Call Reply β)
    (post : β → World → Prop) (world : World) :
    (program >>= next).wp contract post world ↔
      program.wp contract (fun value => (next value).wp contract post) world := by
  induction program generalizing world with
  | done value => exact Iff.rfl
  | call request resume ih =>
    rw [call_bind, wp_call, wp_call]
    exact forall_congr' fun moved => imp_congr_right fun _ => forall_congr' fun reply =>
      forall_congr' fun after => imp_congr_right fun _ => and_congr_right fun _ => ih reply after

/-- Less interference, fewer answers, a weaker guarantee and a weaker postcondition. -/
theorem wp_mono {weaker : Contract Call Reply World} {left right : α → World → Prop}
    {program : Program Call Reply α} {world : World}
    (calms : ∀ world moved, weaker.rely world moved → contract.rely world moved)
    (restricts : ∀ world request reply after, weaker.answers world request reply after →
      contract.answers world request reply after)
    (weakens : ∀ world request reply after, weaker.answers world request reply after →
      contract.guarantee world request reply after → weaker.guarantee world request reply after)
    (implies : ∀ value world, left value world → right value world)
    (holds : program.wp contract left world) : program.wp weaker right world := by
  induction program generalizing world with
  | done value => exact implies value world holds
  | call request resume ih =>
    intro moved moves reply after answered
    obtain ⟨kept, rest⟩ := holds moved (calms _ _ moves) reply after (restricts _ _ _ _ answered)
    exact ⟨weakens _ _ _ _ answered kept, ih reply rest⟩

/-- A program meets a weaker postcondition. -/
theorem wp_imp {left right : α → World → Prop} {program : Program Call Reply α} {world : World}
    (implies : ∀ value world, left value world → right value world)
    (holds : program.wp contract left world) : program.wp contract right world :=
  wp_mono (fun _ _ => id) (fun _ _ _ _ => id) (fun _ _ _ _ _ => id) implies holds

/-- Both guarantees and both postconditions of a program hold together. -/
theorem wp_and {other : Answers Call Reply World} {left right : α → World → Prop}
    {program : Program Call Reply α} {world : World}
    (first : program.wp contract left world)
    (second : program.wp { contract with guarantee := other } right world) :
    program.wp
      { contract with
        guarantee := fun world request reply after =>
          contract.guarantee world request reply after ∧ other world request reply after }
      (fun value world => left value world ∧ right value world) world := by
  induction program generalizing world with
  | done value => exact ⟨first, second⟩
  | call request resume ih =>
    intro moved moves reply after answered
    obtain ⟨kept, rest⟩ := first moved moves reply after answered
    obtain ⟨kept', rest'⟩ := second moved moves reply after answered
    exact ⟨⟨kept, kept'⟩, ih reply rest rest'⟩

/-- The condition survives what the environment does, when the postcondition does. -/
theorem wp_stable {post : α → World → Prop} {program : Program Call Reply α}
    {world moved : World}
    (transitive : ∀ first second third, contract.rely first second →
      contract.rely second third → contract.rely first third)
    (stable : ∀ value world moved, contract.rely world moved → post value world →
      post value moved)
    (moves : contract.rely world moved) (holds : program.wp contract post world) :
    program.wp contract post moved := by
  cases program with
  | done value => exact stable value _ _ moves holds
  | call request resume => exact fun later further => holds later (transitive _ _ _ moves further)

/-- A program judged on a view of the state keeps what the view keeps. -/
theorem wp_view (contract : Contract Call Reply World) (view : World → View)
    {watched : Contract Call Reply View} {post : α → View → Prop}
    {program : Program Call Reply α} {world : World}
    (moves : ∀ world moved, contract.rely world moved → watched.rely (view world) (view moved))
    (seen : ∀ world request reply after, contract.answers world request reply after →
      watched.answers (view world) request reply (view after))
    (holds : program.wp watched post (view world)) :
    program.wp
      { contract with
        guarantee := fun world request reply after =>
          watched.guarantee (view world) request reply (view after) }
      (fun value world => post value (view world)) world := by
  induction program generalizing world with
  | done value => exact holds
  | call request resume ih =>
    intro moved further reply after answered
    obtain ⟨now, rest⟩ := holds _ (moves _ _ further) reply _ (seen _ _ _ _ answered)
    exact ⟨now, ih reply rest⟩

/-- An invariant that the environment and every answered call keep holds at the end of any
program. -/
theorem wp_invariant {invariant : World → Prop} (program : Program Call Reply α) {world : World}
    (stable : ∀ world moved, invariant world → contract.rely world moved → invariant moved)
    (kept : ∀ world request reply after, invariant world →
      contract.answers world request reply after →
        contract.guarantee world request reply after ∧ invariant after)
    (start : invariant world) : program.wp contract (fun _ => invariant) world := by
  induction program generalizing world with
  | done value => exact start
  | call request resume ih =>
    intro moved moves reply after answered
    obtain ⟨guaranteed, next⟩ := kept _ _ _ _ (stable _ _ start moves) answered
    exact ⟨guaranteed, ih reply next⟩

/-- An invariant that the environment keeps, that every request a program is allowed to make keeps,
and that bounds the replies, holds at the end of the program together with what is known of its
value. -/
theorem wp_requests_of {replies : (request : Call) → Reply request → Prop}
    {allowed : Call → Prop} {invariant : World → Prop} {result : α → Prop}
    {program : Program Call Reply α} {world : World}
    (shape : program.wp (.requests replies allowed) (fun value _ => result value) ())
    (learns : ∀ world request reply after, invariant world →
      contract.answers world request reply after → replies request reply)
    (stable : ∀ world moved, invariant world → contract.rely world moved → invariant moved)
    (kept : ∀ world request reply after, invariant world → allowed request →
      contract.answers world request reply after →
        contract.guarantee world request reply after ∧ invariant after)
    (start : invariant world) :
    program.wp contract (fun value world => result value ∧ invariant world) world := by
  induction program generalizing world with
  | done value => exact ⟨shape, start⟩
  | call request resume ih =>
    intro moved moves reply after answered
    have before := stable _ _ start moves
    obtain ⟨asked, rest⟩ := shape () trivial reply () (learns _ _ _ _ before answered)
    obtain ⟨guaranteed, next⟩ := kept _ _ _ _ before asked answered
    exact ⟨guaranteed, ih reply rest next⟩

/-- A program meets a contract whose replies are bounded in any state, when its requests are
allowed. -/
theorem wp_requests {replies : (request : Call) → Reply request → Prop} {allowed : Call → Prop}
    {invariant : World → Prop} {result : α → Prop} {program : Program Call Reply α}
    {world : World}
    (shape : program.wp (.requests replies allowed) (fun value _ => result value) ())
    (honest : ∀ world request reply after, contract.answers world request reply after →
      replies request reply)
    (stable : ∀ world moved, invariant world → contract.rely world moved → invariant moved)
    (kept : ∀ world request reply after, invariant world → allowed request →
      contract.answers world request reply after →
        contract.guarantee world request reply after ∧ invariant after)
    (start : invariant world) :
    program.wp contract (fun value world => result value ∧ invariant world) world :=
  wp_requests_of shape (fun _ _ _ _ _ => honest _ _ _ _) stable kept start

/-- The rule of a loop that maps a program over a list. An invariant over the values of what is done
and what is yet to be done survives each round. -/
theorem wp_mapM {body : α → Program Call Reply β} {invariant : List β → List α → World → Prop}
    (round : ∀ values item todo world, invariant values (item :: todo) world →
      (body item).wp contract (fun value => invariant (values ++ [value]) todo) world)
    (values : List β) (todo : List α) {world : World} (start : invariant values todo world) :
    (todo.mapM body).wp contract (fun rest => invariant (values ++ rest) []) world := by
  induction todo generalizing values world with
  | nil =>
    rw [← List.append_nil values] at start
    exact start
  | cons item todo ih =>
    rw [List.mapM_cons, wp_bind]
    refine wp_imp (fun value middle kept => ?_) (round values item todo world start)
    rw [wp_bind]
    refine wp_imp (fun rest after kept' => ?_) (ih (values ++ [value]) kept)
    rw [List.append_assoc] at kept'
    exact kept'

/-- Labels of calls are invisible to a program: only its contract reads them. -/
theorem wp_label {Label : Type} {name : Label}
    {labelled : Contract (Label × Call) (fun call => Reply call.2) World}
    {post : α → World → Prop} (program : Program Call Reply α) (world : World) :
    (program.label name).wp labelled post world ↔ program.wp (labelled.under name) post world := by
  induction program generalizing world with
  | done value => exact Iff.rfl
  | call request resume ih =>
    exact forall_congr' fun moved => imp_congr_right fun _ => forall_congr' fun reply =>
      forall_congr' fun after => imp_congr_right fun _ => and_congr_right fun _ => ih reply after

end Rules

variable {contract : Contract Call Reply World} {post : α → World → Prop}

/-- The condition persists along an execution. -/
theorem Steps.wp {program rest : Program Call Reply α} {world after : World}
    (steps : Steps contract.rely contract.answers program world rest after)
    (holds : program.wp contract post world) : rest.wp contract post after := by
  induction steps with
  | refl program world => exact holds
  | call moves answered rest ih => exact ih (holds _ moves _ _ answered).2

/-- What every call guarantees of the state it leaves holds wherever an execution stops. -/
theorem Steps.invariant {invariant : World → Prop} {program rest : Program Call Reply α}
    {world after : World}
    (steps : Steps contract.rely contract.answers program world rest after)
    (holds : program.wp contract post world)
    (kept : ∀ world request reply after, contract.guarantee world request reply after →
      invariant after)
    (start : invariant world) : invariant after := by
  induction steps with
  | refl program world => exact start
  | call moves answered rest ih =>
    obtain ⟨guaranteed, next⟩ := holds _ moves _ _ answered
    exact ih next (kept _ _ _ _ guaranteed)

/-- A finished execution meets the postcondition. -/
theorem Returns.meets {program : Program Call Reply α} {world after : World} {value : α}
    (returned : Returns contract.rely contract.answers program world value after)
    (holds : program.wp contract post world) : post value after :=
  Steps.wp returned holds

/-- Where every call can be answered, only guaranteed requests are issued. -/
theorem Issues.guaranteed {program : Program Call Reply α} {world : World} {request : Call}
    (issued : Issues contract.rely contract.answers program world request)
    (still : ∀ world, contract.rely world world)
    (total : ∀ world request, ∃ reply after, contract.answers world request reply after)
    (holds : program.wp contract post world) :
    ∃ world reply after, contract.guarantee world request reply after := by
  obtain ⟨resume, stopped, steps⟩ := issued
  obtain ⟨reply, after, answered⟩ := total stopped request
  exact ⟨stopped, reply, after, (steps.wp holds stopped (still _) reply after answered).1⟩

end Program

end Interaction
