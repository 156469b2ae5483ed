import Mathlib.Data.List.Chain
import ObjectSyncer.Collections.LastChange
import ObjectSyncer.Conditions

/-!
# The history of the conditions

The list of conditions after any sequence of updates. The list has one condition for each type, and
it is the record of the last update that changed anything of what the condition says. The time of
that update is the time of the last transition, unless the reason, the message or the generation
changed later without the status.
-/
namespace ObjectSyncer

open Collections

/-- A call of `update_condition`: a clock reading and a condition. -/
abbrev ConditionUpdate := Stamped String Condition

/-- The calls for one type of condition. -/
def ofType (type_ : String) (calls : List ConditionUpdate) : List ConditionUpdate :=
  calls.filter fun call => call.value.type_ == type_

/-- A further call is one more for its own type. -/
theorem ofType_concat_self (calls : List ConditionUpdate) (call : ConditionUpdate) :
    ofType call.value.type_ (calls ++ [call]) = ofType call.value.type_ calls ++ [call] := by
  simp [ofType]

/-- A further call leaves the calls for other types. -/
theorem ofType_concat_of_ne (calls : List ConditionUpdate) {call : ConditionUpdate} {type_ : String}
    (other : type_ ≠ call.value.type_) : ofType type_ (calls ++ [call]) = ofType type_ calls := by
  simp [ofType, other.symm]

/-- A type was seen when there is a call for it. -/
theorem ofType_ne_nil_iff {type_ : String} {calls : List ConditionUpdate} :
    ofType type_ calls ≠ [] ↔ type_ ∈ calls.map (·.value.type_) := by
  simp [ofType]

/-- Conditions that say the same have the same status. -/
theorem values_refine (left right : Condition) (same : left.values = right.values) :
    left.status = right.status := congrArg Prod.fst same

/-- No condition is reworded late. A call rewords a condition when it leaves the status and changes
the reason, the message or the generation. It does so late when its clock reading is not that of the
last call that changed the status, and no later call for the type changes anything. -/
def Punctual (calls : List ConditionUpdate) : Prop :=
  ∀ type_ before call after, ofType type_ calls = before ++ call :: after →
    ¬LateDetail Condition.status Condition.values before call after

/-- A call that leaves the status repeats the rest. -/
def Repeats (previous next : ConditionUpdate) : Prop :=
  previous.value.status = next.value.status → previous.value.values = next.value.values

/-- Whether a call repeats another one can be computed. -/
instance : DecidableRel Repeats :=
  fun previous next => inferInstanceAs
    (Decidable (previous.value.status = next.value.status →
      previous.value.values = next.value.values))

/-- No call rewords a condition. -/
def Steady (calls : List ConditionUpdate) : Prop :=
  ∀ call ∈ calls, (ofType call.value.type_ calls).IsChain Repeats

/-- Whether no call rewords a condition can be computed. -/
instance (calls : List ConditionUpdate) : Decidable (Steady calls) :=
  inferInstanceAs (Decidable (∀ call ∈ calls, (ofType call.value.type_ calls).IsChain Repeats))

/-- Where no condition is reworded, none is late. -/
theorem Steady.punctual {calls : List ConditionUpdate} (steady : Steady calls) :
    Punctual calls := by
  intro type_ before call after split late
  obtain ⟨previous, last, same, different⟩ := late.detail
  have member : call ∈ ofType type_ calls := by
    rw [split]
    exact List.mem_append_right _ List.mem_cons_self
  obtain ⟨called, named⟩ := List.mem_filter.mp member
  have chain := steady call called
  rw [beq_iff_eq.mp named, split] at chain
  have next := (List.isChain_append.mp chain).2.2 previous last call rfl
  exact different (next same)

namespace ObjectSyncStatus

/-- `ObjectSyncStatus::update_condition`, one call after the other. -/
def updateConditions (status : ObjectSyncStatus) (calls : List ConditionUpdate) :
    ObjectSyncStatus :=
  calls.foldl (fun status call => status.updateCondition call.time call.value) status

/-- A further call updates the conditions that the earlier ones left. -/
theorem updateConditions_concat (status : ObjectSyncStatus) (calls : List ConditionUpdate)
    (call : ConditionUpdate) :
    status.updateConditions (calls ++ [call]) =
      (status.updateConditions calls).updateCondition call.time call.value := by
  rw [updateConditions, List.foldl_append]
  rfl

/-- The list has one condition for each type that was seen, as the last call for the type has it,
and a call that repeats a condition leaves the list. -/
structure Listed (status : ObjectSyncStatus) (calls : List ConditionUpdate) : Prop where
  /-- No type has two conditions. -/
  distinct : ((status.conditions.getD []).map Condition.type_).Nodup
  /-- The types with a condition are those that were seen. -/
  seen : ∀ type_, type_ ∈ (status.conditions.getD []).map Condition.type_ ↔
    type_ ∈ calls.map (·.value.type_)
  /-- A condition says what the last call for its type said. -/
  current : ∀ condition ∈ status.conditions.getD [], ∃ call,
    (ofType condition.type_ calls).getLast? = some call ∧ condition.values = call.value.values
  /-- A call that repeats what a condition says changes nothing. -/
  repeated : ∀ condition ∈ status.conditions.getD [], ∀ time repetition,
    repetition.type_ = condition.type_ → repetition.values = condition.values →
      (status.updateCondition time repetition).conditions = status.conditions

/-- The conditions are listed as the calls ask, and have the times of their transitions. -/
structure Bookkept (status : ObjectSyncStatus) (calls : List ConditionUpdate) : Prop
    extends Listed status calls where
  /-- A condition has the time of the last call that changed its status. -/
  transition : ∀ condition ∈ status.conditions.getD [], condition.lastTransitionTime =
    (lastChange Condition.status (ofType condition.type_ calls)).map (·.time)

/-- The conditions are the records of the last changes. -/
structure Records (status : ObjectSyncStatus) (calls : List ConditionUpdate) : Prop where
  distinct : ((status.conditions.getD []).map Condition.type_).Nodup
  recorded : ∀ type_, status.condition type_ =
    (lastChange Condition.values (ofType type_ calls)).map fun call => call.value.recorded call.time

/-- Without conditions there is nothing to record. -/
theorem records_nil {status : ObjectSyncStatus} (blank : status.conditions.getD [] = []) :
    status.Records [] := by
  refine ⟨?_, fun type_ => ?_⟩
  · rw [blank]
    exact List.nodup_nil
  · rw [condition, blank]
    rfl

/-- Two conditions never come to have one type. -/
theorem distinct_updateCondition {status : ObjectSyncStatus}
    (distinct : ((status.conditions.getD []).map Condition.type_).Nodup) (time : String)
    (condition : Condition) :
    (((status.updateCondition time condition).conditions.getD []).map Condition.type_).Nodup := by
  rcases updateCondition_step status time condition with ⟨-, -, -, unchanged⟩ | ⟨-, put⟩
  · rw [unchanged]
    exact distinct
  · rw [put]
    exact KeyedList.nodup_put distinct _

/-- A call is recorded when it changes anything, and only then. -/
theorem Records.updateCondition {status : ObjectSyncStatus} {calls : List ConditionUpdate}
    (records : status.Records calls) (call : ConditionUpdate) :
    (status.updateCondition call.time call.value).Records (calls ++ [call]) := by
  refine ⟨distinct_updateCondition records.distinct _ _, fun type_ => ?_⟩
  by_cases same : type_ = call.value.type_
  · subst same
    have former := records.recorded call.value.type_
    rw [ofType_concat_self, lastChange_concat, condition_updateCondition, former]
    cases lastChange Condition.values (ofType call.value.type_ calls) with
    | none => rfl
    | some previous =>
      dsimp only [Option.map_some]
      rw [Option.filter_some]
      by_cases repeated : previous.value.values = call.value.values
      · have kept : decide ((previous.value.recorded previous.time).values =
            call.value.values) = true := decide_eq_true repeated
        rw [if_pos kept, if_pos repeated]
        rfl
      · have changed : ¬decide ((previous.value.recorded previous.time).values =
            call.value.values) = true := fun same => repeated (of_decide_eq_true same)
        rw [if_neg changed, if_neg repeated]
        rfl
  · rw [ofType_concat_of_ne calls same, condition_updateCondition_of_ne _ _ _ same]
    exact records.recorded type_

/-- After any calls the conditions are the records of the last changes. -/
theorem records_updateConditions {status : ObjectSyncStatus}
    (blank : status.conditions.getD [] = []) (calls : List ConditionUpdate) :
    (status.updateConditions calls).Records calls := by
  induction calls using List.reverseRecOn with
  | nil => exact records_nil blank
  | append_singleton calls call ih =>
    rw [updateConditions_concat]
    exact ih.updateCondition call

/-- A condition of the list is the record of the last change of its type. -/
theorem Records.of_mem {status : ObjectSyncStatus} {calls : List ConditionUpdate}
    (records : status.Records calls) {condition : Condition}
    (member : condition ∈ status.conditions.getD []) :
    ∃ call, lastChange Condition.values (ofType condition.type_ calls) = some call ∧
      call.value.recorded call.time = condition := by
  have found : status.condition condition.type_ = some condition :=
    (KeyedList.find?_eq_some_iff records.distinct).mpr ⟨member, rfl⟩
  rw [records.recorded] at found
  exact Option.map_eq_some_iff.mp found

/-- The types with a condition are those that were seen. -/
theorem Records.seen {status : ObjectSyncStatus} {calls : List ConditionUpdate}
    (records : status.Records calls) (type_ : String) :
    type_ ∈ (status.conditions.getD []).map Condition.type_ ↔
      type_ ∈ calls.map (·.value.type_) := by
  have listed : type_ ∈ (status.conditions.getD []).map Condition.type_ ↔
      (status.condition type_).isSome := KeyedList.mem_keys_iff
  rw [listed, records.recorded, Option.isSome_map, isSome_lastChange, ofType_ne_nil_iff]

/-- A condition says what the last call for its type said. -/
theorem Records.current {status : ObjectSyncStatus} {calls : List ConditionUpdate}
    (records : status.Records calls) {condition : Condition}
    (member : condition ∈ status.conditions.getD []) :
    ∃ call, (ofType condition.type_ calls).getLast? = some call ∧
      condition.values = call.value.values := by
  obtain ⟨change, changed, recorded⟩ := records.of_mem member
  have shown := view_lastChange Condition.values (ofType condition.type_ calls)
  rw [changed, Option.map_some] at shown
  obtain ⟨call, last, said⟩ := Option.map_eq_some_iff.mp shown.symm
  have values : condition.values = change.value.values := by
    rw [← recorded]
    rfl
  exact ⟨call, last, values.trans said.symm⟩

/-- A call that repeats what a condition says changes nothing. -/
theorem updateCondition_repeated {status : ObjectSyncStatus}
    (distinct : ((status.conditions.getD []).map Condition.type_).Nodup)
    {condition repetition : Condition} (member : condition ∈ status.conditions.getD [])
    (time : String) (same : repetition.type_ = condition.type_)
    (repeated : repetition.values = condition.values) :
    status.updateCondition time repetition = status := by
  have found : status.condition repetition.type_ = some condition :=
    (KeyedList.find?_eq_some_iff distinct).mpr ⟨member, same.symm⟩
  rcases updateCondition_step status time repetition with ⟨-, -, -, unchanged⟩ | ⟨different, -⟩
  · exact unchanged
  · exact absurd repeated.symm (different condition found)

/-- Conditions that are the records of the calls are listed as the calls ask. -/
theorem Records.listed {status : ObjectSyncStatus} {calls : List ConditionUpdate}
    (records : status.Records calls) : status.Listed calls := by
  refine ⟨records.distinct, records.seen, fun _ => records.current, ?_⟩
  intro condition member time repetition same repeated
  rw [updateCondition_repeated records.distinct member time same repeated]

/-- The conditions have the times of their transitions, unless one was reworded late. -/
theorem Records.transition_iff {status : ObjectSyncStatus} {calls : List ConditionUpdate}
    (records : status.Records calls) :
    (∀ condition ∈ status.conditions.getD [], condition.lastTransitionTime =
        (lastChange Condition.status (ofType condition.type_ calls)).map (·.time)) ↔
      Punctual calls := by
  have timed : ∀ condition ∈ status.conditions.getD [], condition.lastTransitionTime =
      (lastChange Condition.values (ofType condition.type_ calls)).map (·.time) := by
    intro condition member
    obtain ⟨change, changed, recorded⟩ := records.of_mem member
    rw [changed, ← recorded]
    rfl
  constructor
  · intro transitions type_
    by_cases seen : type_ ∈ calls.map (·.value.type_)
    · obtain ⟨condition, member, rfl⟩ := List.mem_map.mp ((records.seen type_).mpr seen)
      have times := (timed condition member).symm.trans (transitions condition member)
      exact (lastChange_times_iff values_refine _).mp times
    · have unseen : ofType type_ calls = [] := by
        by_contra calledFor
        exact seen (ofType_ne_nil_iff.mp calledFor)
      intro before call after split
      rw [unseen] at split
      cases before <;> cases split
  · intro punctual condition member
    rw [timed condition member]
    exact (lastChange_times_iff values_refine _).mpr (punctual condition.type_)

/-- The books are kept after any calls, unless one of them rewords a condition late. -/
theorem bookkept_iff {status : ObjectSyncStatus} (blank : status.conditions.getD [] = [])
    (calls : List ConditionUpdate) :
    (status.updateConditions calls).Bookkept calls ↔ Punctual calls := by
  have records := records_updateConditions blank calls
  constructor
  · intro bookkept
    exact records.transition_iff.mp bookkept.transition
  · intro punctual
    exact ⟨records.listed, records.transition_iff.mpr punctual⟩

end ObjectSyncStatus

/-- The conditions of runs for the settings, of which one copy of three is in sync at first, and
all three of them half an hour later. -/
def settingsRecovery : List ConditionUpdate :=
  [⟨"2024-01-15T10:30:00Z", ResourceControllerImpl.inSyncCondition 3 1⟩,
    ⟨"2024-01-15T10:40:00Z", .new ready (some true) success "registered"⟩,
    ⟨"2024-01-15T10:50:00Z", ResourceControllerImpl.inSyncCondition 3 1⟩,
    ⟨"2024-01-15T11:00:00Z", ResourceControllerImpl.inSyncCondition 3 3⟩]

/-- No condition is reworded, so the books are kept. -/
theorem settingsRecovery_bookkept :
    (ObjectSyncStatus.default.updateConditions settingsRecovery).Bookkept settingsRecovery :=
  (ObjectSyncStatus.bookkept_iff rfl settingsRecovery).mpr (Steady.punctual (by decide))

/-- The conditions of runs for the settings, of which one copy of three is in sync at first, and
two of them later. -/
def settingsProgress : List ConditionUpdate :=
  [⟨"2024-01-15T10:30:00Z", ResourceControllerImpl.inSyncCondition 3 1⟩,
    ⟨"2024-01-15T10:45:00Z", ResourceControllerImpl.inSyncCondition 3 2⟩]

/-- The status is False all the time, but the condition has the time of the second message. -/
theorem settingsProgress_not_bookkept :
    ¬(ObjectSyncStatus.default.updateConditions settingsProgress).Bookkept settingsProgress := by
  intro bookkept
  have reworded := bookkept.transition
    ((ResourceControllerImpl.inSyncCondition 3 2).recorded "2024-01-15T10:45:00Z") (by decide)
  exact absurd reworded (by decide)

end ObjectSyncer
