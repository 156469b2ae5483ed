import Mathlib.Data.List.Induction

/-!
# The last change of what is seen of a history

A history is a list of stamped values, the latest one last. Of its values a view sees a part, and
the entry that changed the view last is the first one that shows what the latest one shows. A view
that tells more changes with every change of one that tells less, so its last change is the same
entry or a later one, at which only the detail changed.
-/
namespace Collections

/-- A value with the time of its entry. -/
structure Stamped (τ α : Type) where
  time : τ
  value : α
  deriving DecidableEq, Repr

section LastChange

variable {τ α β γ : Type} [DecidableEq β] [DecidableEq γ]

/-- The entry that changed a view last; the first entry counts as a change. -/
def lastChange (view : α → β) (history : List (Stamped τ α)) : Option (Stamped τ α) :=
  history.foldl (fun last entry =>
    match last with
    | some previous => if view previous.value = view entry.value then some previous else some entry
    | none => some entry) none

/-- The last change after one more entry. -/
theorem lastChange_concat (view : α → β) (history : List (Stamped τ α)) (entry : Stamped τ α) :
    lastChange view (history ++ [entry]) =
      match lastChange view history with
      | some previous =>
        if view previous.value = view entry.value then some previous else some entry
      | none => some entry := by
  rw [lastChange, List.foldl_append]
  rfl

/-- The last change shows what the last entry shows. -/
theorem view_lastChange (view : α → β) (history : List (Stamped τ α)) :
    (lastChange view history).map (view ·.value) = history.getLast?.map (view ·.value) := by
  induction history using List.reverseRecOn with
  | nil => rfl
  | append_singleton history entry _ =>
    rw [lastChange_concat, List.getLast?_concat]
    cases lastChange view history with
    | none => rfl
    | some previous =>
      dsimp only
      split
      · rename_i same
        exact congrArg some same
      · rfl

/-- A history that is not empty has a last change. -/
theorem isSome_lastChange (view : α → β) (history : List (Stamped τ α)) :
    (lastChange view history).isSome ↔ history ≠ [] := by
  have same := congrArg Option.isSome (view_lastChange view history)
  rw [Option.isSome_map, Option.isSome_map] at same
  rw [same]
  exact List.getLast?_isSome

/-- An entry that shows what the previous one showed is no change. -/
theorem lastChange_concat_of_same {view : α → β} {history : List (Stamped τ α)}
    {entry previous : Stamped τ α} (last : history.getLast? = some previous)
    (same : view previous.value = view entry.value) :
    lastChange view (history ++ [entry]) = lastChange view history := by
  have shown := view_lastChange view history
  rw [last, Option.map_some] at shown
  obtain ⟨change, changed, shows⟩ := Option.map_eq_some_iff.mp shown
  rw [lastChange_concat, changed]
  exact if_pos (shows.trans same)

/-- An entry that shows something else than the previous one is the last change. -/
theorem lastChange_concat_of_changed {view : α → β} {history : List (Stamped τ α)}
    {entry : Stamped τ α}
    (other : ∀ previous ∈ history.getLast?, view previous.value ≠ view entry.value) :
    lastChange view (history ++ [entry]) = some entry := by
  rw [lastChange_concat]
  cases changed : lastChange view history with
  | none => rfl
  | some change =>
    have shown := view_lastChange view history
    rw [changed, Option.map_some] at shown
    obtain ⟨previous, last, shows⟩ := Option.map_eq_some_iff.mp shown.symm
    have different : view change.value ≠ view entry.value := by
      rw [← shows]
      exact other previous last
    exact if_neg different

/-- Entries that show what an entry showed are no changes after it. -/
theorem lastChange_append_of_same {view : α → β} {before after : List (Stamped τ α)}
    {entry : Stamped τ α} (same : ∀ later ∈ after, view later.value = view entry.value) :
    lastChange view (before ++ entry :: after) = lastChange view (before ++ [entry]) := by
  induction after using List.reverseRecOn with
  | nil => rfl
  | append_singleton after last ih =>
    have former : ∀ later ∈ after, view later.value = view entry.value :=
      fun later member => same later (List.mem_append_left _ member)
    have shown : view entry.value = view last.value :=
      (same last (List.mem_append_right _ (List.mem_singleton_self last))).symm
    have regroup : before ++ entry :: (after ++ [last]) = (before ++ entry :: after) ++ [last] := by
      rw [List.append_assoc, List.cons_append]
    have started := view_lastChange view (before ++ [entry])
    rw [List.getLast?_concat, Option.map_some] at started
    obtain ⟨change, changed, shows⟩ := Option.map_eq_some_iff.mp started
    rw [regroup, lastChange_concat, ih former, changed]
    exact if_pos (shows.trans shown)

/-- The last change is where the history splits: what is shown was different before, and is the
same from there on. -/
theorem lastChange_eq_some_iff {view : α → β} {history : List (Stamped τ α)}
    {change : Stamped τ α} :
    lastChange view history = some change ↔ ∃ before after, history = before ++ change :: after ∧
      (∀ previous ∈ before.getLast?, view previous.value ≠ view change.value) ∧
        ∀ later ∈ after, view later.value = view change.value := by
  constructor
  · induction history using List.reverseRecOn with
    | nil => exact nofun
    | append_singleton history entry ih =>
      intro changed
      by_cases same : ∃ previous, history.getLast? = some previous ∧
          view previous.value = view entry.value
      · obtain ⟨previous, last, shown⟩ := same
        rw [lastChange_concat_of_same last shown] at changed
        obtain ⟨before, after, rfl, other, kept⟩ := ih changed
        have current := view_lastChange view (before ++ change :: after)
        rw [changed, last, Option.map_some, Option.map_some] at current
        refine ⟨before, after ++ [entry], by rw [List.append_assoc, List.cons_append], other, ?_⟩
        intro later member
        rcases List.mem_append.mp member with former | new
        · exact kept later former
        · rw [List.mem_singleton.mp new, ← shown]
          exact (Option.some.inj current).symm
      · have other : ∀ previous ∈ history.getLast?, view previous.value ≠ view entry.value :=
          fun previous last shown => same ⟨previous, last, shown⟩
        rw [lastChange_concat_of_changed other] at changed
        obtain rfl := Option.some.inj changed
        exact ⟨history, [], rfl, other, nofun⟩
  · rintro ⟨before, after, rfl, other, kept⟩
    rw [lastChange_append_of_same kept, lastChange_concat_of_changed other]

/-- An entry changes only the detail, no later entry changes it again, and it has another time than
the last change of the coarse view. -/
structure LateDetail (coarse : α → β) (fine : α → γ) (before : List (Stamped τ α))
    (entry : Stamped τ α) (after : List (Stamped τ α)) : Prop where
  /-- The coarse view is as it was, the detail is not. -/
  detail : ∃ previous ∈ before.getLast?, coarse previous.value = coarse entry.value ∧
    fine previous.value ≠ fine entry.value
  /-- The detail stays as it is. -/
  last : ∀ later ∈ after, fine later.value = fine entry.value
  /-- The coarse view changed last at another time. -/
  late : ∀ change, lastChange coarse before = some change → change.time ≠ entry.time

/-- Two views changed last at one time, unless the detail changed late. -/
theorem lastChange_times_iff {coarse : α → β} {fine : α → γ}
    (refines : ∀ left right, fine left = fine right → coarse left = coarse right)
    (history : List (Stamped τ α)) :
    (lastChange fine history).map (·.time) = (lastChange coarse history).map (·.time) ↔
      ∀ before entry after, history = before ++ entry :: after →
        ¬LateDetail coarse fine before entry after := by
  constructor
  · rintro times before entry after rfl late
    obtain ⟨previous, last, same, different⟩ := late.detail
    have other : ∀ p ∈ before.getLast?, fine p.value ≠ fine entry.value := by
      intro p found
      rw [Option.mem_unique found last]
      exact different
    have kept : ∀ later ∈ after, coarse later.value = coarse entry.value :=
      fun later member => refines _ _ (late.last later member)
    have fineChange : lastChange fine (before ++ entry :: after) = some entry :=
      lastChange_eq_some_iff.mpr ⟨before, after, rfl, other, late.last⟩
    rw [fineChange, lastChange_append_of_same kept, lastChange_concat_of_same last same] at times
    obtain ⟨change, changed, time⟩ := Option.map_eq_some_iff.mp times.symm
    exact late.late change changed time
  · intro timely
    cases changed : lastChange fine history with
    | none =>
      have empty : history = [] := by
        by_contra filled
        have isSome := (isSome_lastChange fine history).mpr filled
        rw [changed] at isSome
        cases isSome
      rw [empty]
      rfl
    | some entry =>
      obtain ⟨before, after, rfl, other, last⟩ := lastChange_eq_some_iff.mp changed
      have kept : ∀ later ∈ after, coarse later.value = coarse entry.value :=
        fun later member => refines _ _ (last later member)
      rw [lastChange_append_of_same kept]
      by_cases same : ∃ previous, before.getLast? = some previous ∧
          coarse previous.value = coarse entry.value
      · -- The detail alone changed, so it did so at the time of the coarse change.
        obtain ⟨previous, found, shown⟩ := same
        rw [lastChange_concat_of_same found shown]
        have shownLast := view_lastChange coarse before
        rw [found, Option.map_some] at shownLast
        obtain ⟨change, coarseChange, -⟩ := Option.map_eq_some_iff.mp shownLast
        rw [coarseChange, Option.map_some, Option.map_some]
        by_contra times
        refine timely before entry after
          rfl ⟨⟨previous, found, shown, other previous found⟩, last, ?_⟩
        intro change' coarseChange' time
        rw [coarseChange] at coarseChange'
        obtain rfl := Option.some.inj coarseChange'
        exact times (congrArg some time.symm)
      · rw [lastChange_concat_of_changed fun previous found shown => same ⟨previous, found, shown⟩]

end LastChange

end Collections
