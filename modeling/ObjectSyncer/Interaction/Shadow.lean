import ObjectSyncer.Interaction.Safety

/-!
# Programs that see a part of the state

A program whose calls only concern a part of the state cannot tell how the rest of it moves. What
it achieves in a calm environment it then achieves in company: every execution among others has a
shadow, an execution in the calm environment that sees the same replies.
-/
namespace Interaction

variable {Call : Type} {Reply : Call → Type} {World Shadow α : Type}

/-- A state and its shadow stay related, whatever the environment does to the state, and however it
answers a call that is allowed. -/
structure Contract.Shadows (contract : Contract Call Reply World)
    (calm : Contract Call Reply Shadow)
    (allowed : Call → Prop) (shadows : Shadow → World → Prop) : Prop where
  moves : ∀ {shadow world moved}, shadows shadow world → contract.rely world moved →
    ∃ shadow', calm.rely shadow shadow' ∧ shadows shadow' moved
  answers : ∀ {shadow world request reply after}, shadows shadow world → allowed request →
    contract.answers world request reply after →
      ∃ shadow', calm.answers shadow request reply shadow' ∧ shadows shadow' after

namespace Program

variable {contract : Contract Call Reply World} {calm : Contract Call Reply Shadow}
  {allowed : Call → Prop} {replies : (request : Call) → Reply request → Prop}
  {shadows : Shadow → World → Prop}

/-- What a program achieves in a calm environment it achieves where that environment is a shadow,
if it makes allowed calls only. -/
theorem wp_shadow {program : Program Call Reply α} {post : α → Shadow → Prop} {shadow : Shadow}
    {world : World} (related : contract.Shadows calm allowed shadows)
    (honest : ∀ world request reply after, contract.answers world request reply after →
      replies request reply)
    (shape : program.wp (.requests replies allowed) (fun _ _ => True) ())
    (transfers : ∀ shadow shadow' world request reply after,
      calm.guarantee shadow request reply shadow' → contract.answers world request reply after →
        contract.guarantee world request reply after)
    (holds : program.wp calm post shadow) (start : shadows shadow world) :
    program.wp contract
      (fun value after => ∃ last, shadows last after ∧ post value last) world := by
  induction program generalizing shadow world with
  | done value => exact ⟨shadow, start, holds⟩
  | call request resume ih =>
    intro moved moves reply after answered
    obtain ⟨middle, still, before⟩ := related.moves start moves
    obtain ⟨asked, rest⟩ := shape () trivial reply () (honest _ _ _ _ answered)
    obtain ⟨later, seen, next⟩ := related.answers before asked answered
    obtain ⟨guaranteed, continues⟩ := holds middle still reply later seen
    exact ⟨transfers _ _ _ _ _ _ guaranteed answered, ih reply rest continues next⟩

/-- A program that meets a calm contract meets the other one for related states, together with an
invariant that the environment and every allowed call keep, and with what every allowed call
guarantees. -/
theorem wp_shadow_of {program : Program Call Reply α} {post : α → Shadow → Prop}
    {invariant : World → Prop} {shadow : Shadow} {world : World}
    (related : contract.Shadows calm allowed shadows)
    (honest : ∀ world request reply after, contract.answers world request reply after →
      replies request reply)
    (shape : program.wp (.requests replies allowed) (fun _ _ => True) ())
    (stable : ∀ world moved, invariant world → contract.rely world moved → invariant moved)
    (kept : ∀ world request reply after, invariant world → allowed request →
      contract.answers world request reply after →
        contract.guarantee world request reply after ∧ invariant after)
    (holds : program.wp calm post shadow) (start : shadows shadow world)
    (begins : invariant world) :
    program.wp contract
      (fun value after => invariant after ∧ ∃ last, shadows last after ∧
        post value last) world := by
  have asked := wp_requests shape honest stable kept begins
  have shadowed :=
    @wp_shadow _ _ _ _ _ { contract with guarantee := fun _ _ _ _ => True } _ _ _ _ _ _
    _ _ ⟨related.moves, related.answers⟩ honest shape (fun _ _ _ _ _ _ _ _ => trivial) holds start
  refine wp_mono ?_ ?_ ?_ ?_ (wp_and asked shadowed)
  · exact fun _ _ => id
  · exact fun _ _ _ _ => id
  · exact fun _ _ _ _ _ both => both.1
  · exact fun _ _ both => ⟨both.1.2, both.2⟩

/-- An invariant that the environment and every guaranteed call keep holds at every call and at the
end. -/
theorem wp_throughout {program : Program Call Reply α} {post : α → World → Prop}
    {invariant : World → Prop} {world : World}
    (stable : ∀ world moved, invariant world → contract.rely world moved → invariant moved)
    (kept : ∀ world request reply after, invariant world →
      contract.answers world request reply after → contract.guarantee world request reply after →
        invariant after)
    (holds : program.wp contract post world) (start : invariant world) :
    program.wp
      { contract with
        guarantee := fun world request reply after =>
          invariant world ∧ contract.guarantee world request reply after ∧ invariant after }
      (fun value after => invariant after ∧ post value after) world := by
  induction program generalizing world with
  | done value => exact ⟨start, holds⟩
  | call request resume ih =>
    intro moved moves reply after answered
    obtain ⟨guaranteed, rest⟩ := holds moved moves reply after answered
    have before := stable _ _ start moves
    have later := kept _ _ _ _ before answered guaranteed
    exact ⟨⟨before, guaranteed, later⟩, ih reply rest later⟩

/-- What every allowed call guarantees of an invariant holds when the program has ended. -/
theorem wp_guaranteed {program : Program Call Reply α} {post : α → World → Prop}
    {invariant : World → Prop} {world : World}
    (stable : ∀ world moved, invariant world → contract.rely world moved → invariant moved)
    (kept : ∀ world request reply after, invariant world →
      contract.answers world request reply after → contract.guarantee world request reply after →
        invariant after)
    (holds : program.wp contract post world) (start : invariant world) :
    program.wp contract (fun value after => invariant after ∧ post value after) world := by
  refine wp_mono ?_ ?_ ?_ ?_ (wp_throughout stable kept holds start)
  · exact fun _ _ => id
  · exact fun _ _ _ _ => id
  · exact fun _ _ _ _ _ guaranteed => guaranteed.2.1
  · exact fun _ _ => id

end Program

end Interaction
