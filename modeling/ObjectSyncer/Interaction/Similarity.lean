import ObjectSyncer.Interaction.Program

/-!
# Programs that make the same calls

Two programs are similar when they make the same calls, whatever these are answered, and end with
related values. Similar programs compose, and programs that end with equal values are equal.
-/
namespace Interaction

namespace Program

variable {Call : Type} {Reply : Call → Type} {α β γ δ : Type}

/-- Programs make the same calls under all replies, and return related values. -/
inductive Similar (related : α → β → Prop) : Program Call Reply α → Program Call Reply β → Prop
  /-- Both programs are done. -/
  | done {left : α} {right : β} : related left right → Similar related (.done left) (.done right)
  /-- Both make the same call. -/
  | call {request : Call} {left : Reply request → Program Call Reply α}
      {right : Reply request → Program Call Reply β} :
      (∀ reply, Similar related (left reply) (right reply)) →
      Similar related (.call request left) (.call request right)

/-- A program is similar to itself. -/
theorem Similar.refl {related : α → α → Prop} (reflexive : ∀ value, related value value)
    (program : Program Call Reply α) : Similar related program program := by
  induction program with
  | done value => exact .done (reflexive value)
  | call request resume ih => exact .call ih

/-- Similar programs go on similarly. -/
theorem Similar.bind {related : α → β → Prop} {later : γ → δ → Prop}
    {left : Program Call Reply α} {right : Program Call Reply β}
    {next : α → Program Call Reply γ} {next' : β → Program Call Reply δ}
    (similar : Similar related left right)
    (goOn : ∀ left right, related left right → Similar later (next left) (next' right)) :
    Similar later (left >>= next) (right >>= next') := by
  induction similar with
  | done holds => exact goOn _ _ holds
  | call _ ih => exact .call ih

/-- Programs that make one call and then go on similarly after each reply are similar. -/
theorem Similar.perform {related : α → β → Prop} {request : Call}
    {next : Reply request → Program Call Reply α} {next' : Reply request → Program Call Reply β}
    (goOn : ∀ reply, Similar related (next reply) (next' reply)) :
    Similar related (perform request >>= next) (perform request >>= next') :=
  .call goOn

/-- Programs that make the same calls and end with the same values are the same. -/
theorem eq_of_similar {left right : Program Call Reply α} (similar : Similar Eq left right) :
    left = right := by
  induction similar with
  | done holds => rw [holds]
  | call _ ih =>
    congr 1
    funext reply
    exact ih reply

end Program

end Interaction
