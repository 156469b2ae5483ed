import ObjectSyncer.Collections.KeyedList
import ObjectSyncer.Server

/-!
# Persisted conditions

What a condition of an ObjectSync says once its status was updated, and the transcript of a run for
one ObjectSync: the status that is persisted, the registration, and every answer that the run was
given so far. An answer may be any that is about the object of its request. Of a status write only
its success means that it was done; when it fails, it may have been done all the same.
-/
namespace ObjectSyncer

open Collections Interaction Interaction.Program

/-- Everything that a condition says; neither its type nor its time. -/
def Condition.values (condition : Condition) : String × String × String × Option Int :=
  (condition.status, condition.reason, condition.message, condition.observedGeneration)

/-- A condition as it is recorded at some time. -/
def Condition.recorded (condition : Condition) (time : String) : Condition :=
  { condition with lastTransitionTime := some time }

/-- The condition of some type, if there is one. -/
def ObjectSyncStatus.condition (status : ObjectSyncStatus) (type_ : String) : Option Condition :=
  (status.conditions.getD []).find? fun condition => condition.type_ == type_

/-- What the condition of some type says, if there is one. -/
def ObjectSyncStatus.conditionStatus (status : ObjectSyncStatus) (type_ : String) : Option String :=
  ((status.conditions.getD []).find? fun condition => condition.type_ == type_).map (·.status)

/-- What the condition of some type says in a status that may be absent. -/
def conditionStatus (status : Option ObjectSyncStatus) (type_ : String) : Option String :=
  status.bind (·.conditionStatus type_)

/-- An absent status has the conditions of the default one. -/
theorem conditionStatus_getD (status : Option ObjectSyncStatus) (type_ : String) :
    (status.getD .default).conditionStatus type_ = conditionStatus status type_ := by
  cases status with
  | none => rfl
  | some status => rfl

namespace ObjectSyncStatus

/-- Updating a condition in vain changes nothing, and otherwise the condition is put with the time
of its update. -/
theorem updateCondition_step (status : ObjectSyncStatus) (time : String) (condition : Condition) :
    (∃ existing, status.condition condition.type_ = some existing ∧
        existing.values = condition.values ∧ status.updateCondition time condition = status) ∨
      (∀ existing, status.condition condition.type_ = some existing →
          existing.values ≠ condition.values) ∧
        status.updateCondition time condition = { status with
          conditions := some (KeyedList.put Condition.type_ (status.conditions.getD [])
            (condition.recorded time)) } := by
  cases found : status.condition condition.type_ with
  | none =>
    have absent : (status.conditions.getD []).find?
        (fun other => other.type_ == condition.type_) = none := found
    have appended : KeyedList.put Condition.type_ (status.conditions.getD [])
        (condition.recorded time) = status.conditions.getD [] ++ [condition.recorded time] :=
      KeyedList.put_of_absent absent
    refine .inr ⟨nofun, ?_⟩
    unfold updateCondition
    dsimp only
    rw [absent, appended]
    rfl
  | some existing =>
    have present : (status.conditions.getD []).find?
        (fun other => other.type_ == condition.type_) = some existing := found
    unfold updateCondition
    dsimp only
    rw [present]
    dsimp only
    by_cases same : existing.values = condition.values
    · obtain ⟨statuses, reasons, messages, generations⟩ :
          existing.status = condition.status ∧ existing.reason = condition.reason ∧
            existing.message = condition.message ∧
              existing.observedGeneration = condition.observedGeneration := by
        simpa [Condition.values] using same
      have listed : some (status.conditions.getD []) = status.conditions := by
        cases conditions : status.conditions with
        | none =>
          rw [conditions] at present
          cases present
        | some conditions => rfl
      refine .inl ⟨existing, rfl, same, ?_⟩
      rw [if_neg (by simp [statuses, reasons, messages, generations]), listed]
    · refine .inr ⟨fun other found' => Option.some.inj found' ▸ same, ?_⟩
      rw [if_pos]
      · rfl
      · by_contra unchanged
        simp only [not_or, not_not] at unchanged
        obtain ⟨statuses, reasons, messages, generations⟩ := unchanged
        apply same
        rw [Condition.values, Condition.values, statuses, reasons, messages, generations]

/-- A condition that says what it is updated to stays, and any other one is recorded anew. -/
theorem condition_updateCondition (status : ObjectSyncStatus) (time : String)
    (condition : Condition) :
    (status.updateCondition time condition).condition condition.type_ =
      some (((status.condition condition.type_).filter (·.values = condition.values)).getD
        (condition.recorded time)) := by
  rcases updateCondition_step status time condition with
    ⟨existing, found, same, unchanged⟩ | ⟨different, put⟩
  · have kept : (some existing).filter (·.values = condition.values) = some existing :=
      Option.filter_eq_some_iff.mpr ⟨rfl, decide_eq_true same⟩
    rw [unchanged, found, kept]
    rfl
  · have dropped : (status.condition condition.type_).filter (·.values = condition.values) = none :=
      Option.filter_eq_none_iff.mpr fun existing found same =>
        different existing found (of_decide_eq_true same)
    rw [put, dropped]
    exact KeyedList.find?_put _ (condition.recorded time)

/-- Updating a condition leaves those of the other types. -/
theorem condition_updateCondition_of_ne (status : ObjectSyncStatus) (time : String)
    (condition : Condition) {type_ : String} (other : type_ ≠ condition.type_) :
    (status.updateCondition time condition).condition type_ = status.condition type_ := by
  rcases updateCondition_step status time condition with ⟨-, -, -, unchanged⟩ | ⟨-, put⟩
  · rw [unchanged]
  · rw [put]
    exact KeyedList.find?_put_of_ne _ other

/-- An updated condition says what it was updated to. -/
theorem conditionStatus_updateCondition (status : ObjectSyncStatus) (time : String)
    (condition : Condition) :
    (status.updateCondition time condition).conditionStatus condition.type_ =
      some condition.status := by
  rcases updateCondition_step status time condition with
    ⟨existing, found, same, unchanged⟩ | ⟨-, put⟩
  · rw [unchanged]
    refine (congrArg (Option.map Condition.status) found).trans ?_
    exact congrArg some (congrArg Prod.fst same)
  · rw [put]
    exact congrArg (Option.map Condition.status)
      (KeyedList.find?_put _ (condition.recorded time))

/-- A condition that is updated in vain was there before, and otherwise it has the time of its
update. -/
theorem updateCondition_cases (status : ObjectSyncStatus) (time : String) (condition : Condition) :
    status.updateCondition time condition = status ∧
        status.conditionStatus condition.type_ = some condition.status ∨
      { condition with lastTransitionTime := some time } ∈
        (status.updateCondition time condition).conditions.getD [] := by
  rcases updateCondition_step status time condition with
    ⟨existing, found, same, unchanged⟩ | ⟨-, put⟩
  · have said : status.conditionStatus condition.type_ = some existing.status :=
      congrArg (Option.map Condition.status) found
    refine .inl ⟨unchanged, ?_⟩
    rw [said]
    exact congrArg some (congrArg Prod.fst same)
  · rw [put]
    exact .inr (List.mem_append_right _ (List.mem_singleton_self _))

/-- Every condition was there before, or is of the type that was updated. -/
theorem mem_updateCondition {status : ObjectSyncStatus} {time : String} {condition c : Condition}
    (member : c ∈ (status.updateCondition time condition).conditions.getD []) :
    c ∈ status.conditions.getD [] ∨ c.type_ = condition.type_ := by
  rcases updateCondition_step status time condition with ⟨-, -, -, unchanged⟩ | ⟨-, put⟩
  · rw [unchanged] at member
    exact .inl member
  · rw [put] at member
    rcases KeyedList.mem_put member with former | rfl
    · exact .inl former
    · exact .inr rfl

/-- Updating the destinations leaves the conditions. -/
@[simp] theorem conditionStatus_updateDestinations (status : ObjectSyncStatus)
    (destinations : List DestinationStatus) (type_ : String) :
    (status.updateDestinations destinations).conditionStatus type_ =
      status.conditionStatus type_ := rfl

end ObjectSyncStatus

namespace ObjectSync

/-- An updated condition of an ObjectSync says what it was updated to. -/
theorem conditionStatus_updateCondition (sync : ObjectSync) (time : String)
    (condition : Condition) :
    ObjectSyncer.conditionStatus (sync.updateCondition time condition).status condition.type_ =
      some condition.status :=
  ObjectSyncStatus.conditionStatus_updateCondition _ time condition

/-- Updating the destinations of an ObjectSync leaves its conditions. -/
theorem conditionStatus_updateDestinations (sync : ObjectSync)
    (destinations : List DestinationStatus) (type_ : String) :
    ObjectSyncer.conditionStatus (sync.updateDestinations destinations).status type_ =
      ObjectSyncer.conditionStatus sync.status type_ :=
  conditionStatus_getD sync.status type_

end ObjectSync

/-- A call with its reply. -/
abbrev Answer := Σ call : Call, Reply call

namespace Answer

/-- A destination was created or updated. -/
def writes : Answer → Bool
  | ⟨.api (.create ..), .ok _⟩ | ⟨.api (.replace ..), .ok _⟩ | ⟨.api (.apply ..), .ok _⟩ => true
  | _ => false

/-- A destination was deleted, or found missing when it was to be deleted. -/
def removes : Answer → Bool
  | ⟨.api (.delete ..), reply⟩ => deletionSettled reply
  | _ => false

/-- The deletion of a destination failed. -/
def refuses : Answer → Bool
  | ⟨.api (.delete ..), reply⟩ => !deletionSettled reply
  | _ => false

/-- The revision at which an object was last read, unless a change of it was asked for since. A
change of its finalizers that failed does not count. -/
def sees (key : ObjectKey) (seen : Option ObjectRevision) : Answer → Option ObjectRevision
  | ⟨.api (.get api name), reply⟩ =>
    if api.key name = key then reply.toOption.map (·.metadata.revision) else seen
  | ⟨.api (.jsonPatch api name _), .error e⟩ =>
    if api.key name = key ∧ e.isNotFound then none else seen
  | ⟨.api request, _⟩ => if request.target = some key then none else seen
  | _ => seen

end Answer

/-- What is recorded of the runs for one ObjectSync. -/
structure Transcript where
  /-- The persisted status. -/
  status : Option ObjectSyncStatus
  /-- The entry in `instances`. -/
  registered : Option ObjectSyncInstance
  /-- The answers to the calls of the current run. -/
  answers : List Answer

namespace Transcript

/-- A destination was created or updated. -/
def wrote (transcript : Transcript) : Bool := transcript.answers.any Answer.writes

/-- A destination was deleted, or found missing when it was to be deleted. -/
def removed (transcript : Transcript) : Bool := transcript.answers.any Answer.removes

/-- The deletion of a destination failed. -/
def refused (transcript : Transcript) : Bool := transcript.answers.any Answer.refuses

/-- The revision at which an object was last read, unless a change of it was asked for since. -/
def seen (transcript : Transcript) (key : ObjectKey) : Option ObjectRevision :=
  transcript.answers.foldl (Answer.sees key) none

end Transcript

/-- What a call does to the persisted status. -/
def Persists (o : ObjectSyncRef) (before : Option ObjectSyncStatus) :
    (call : Call) → Reply call → Option ObjectSyncStatus → Prop
  | .api (.replaceSyncStatus sync body), .ok _, after =>
    after = if sync = o.name then body.status else before
  | .api (.replaceSyncStatus sync body), .error _, after =>
    after = before ∨ sync = o.name ∧ after = body.status
  | .api (.jsonPatchSync sync _), .ok written, after =>
    (sync = o.name → written.status = before) ∧ after = before
  | _, _, after => after = before

/-- What a call does to the entry in `instances`. -/
def Registers (o : ObjectSyncRef) (before : Option ObjectSyncInstance) :
    (call : Call) → Reply call → Option ObjectSyncInstance → Prop
  | .memory (.getInstance id), reply, after => (id = o → reply = before) ∧ after = before
  | .memory (.removeInstance id), _, after => after = if id = o then none else before
  | .memory (.insertInstance id inst), _, after => after = if id = o then some inst else before
  | _, _, after => after = before

/-- The contract of a run for one ObjectSync, with any replies. Nobody else writes its status or
registers it. -/
@[reducible] def transcribing (o : ObjectSyncRef) : Contract Call Reply Transcript where
  rely := fun before after => after = before
  answers := fun before call reply after =>
    Honest call reply ∧ Persists o before.status call reply after.status ∧
      Registers o before.registered call reply after.registered ∧
      after.answers = before.answers ++ [⟨call, reply⟩]
  guarantee := fun _ _ _ _ => True

namespace Transcript

/-- Answer all calls of a run for one ObjectSync, with given replies to its requests. -/
def answer (o : ObjectSyncRef)
    (replies : (request : ApiRequest) → Except KubeError (ApiValue request))
    (cache : List Namespace) (time : String) (transcript : Transcript) :
    (call : Call) → Reply call × Transcript
  | .api request =>
    let reply := replies request
    let status :=
      match request, reply with
      | .replaceSyncStatus sync body, .ok _ =>
        if sync = o.name then body.status else transcript.status
      | _, _ => transcript.status
    (reply, ⟨status, transcript.registered, transcript.answers ++ [⟨.api request, reply⟩]⟩)
  | .memory op =>
    let reply : MemoryReply op :=
      match op with
      | .getInstance id => if id = o then transcript.registered else none
      | op => op.idleReply
    let registered :=
      match op with
      | .removeInstance id => if id = o then none else transcript.registered
      | .insertInstance id inst => if id = o then some inst else transcript.registered
      | _ => transcript.registered
    (reply, ⟨transcript.status, registered, transcript.answers ++ [⟨.memory op, reply⟩]⟩)
  | .namespaces =>
    (cache, { transcript with answers := transcript.answers ++ [⟨.namespaces, cache⟩] })
  | .clock =>
    (time, { transcript with answers := transcript.answers ++ [⟨.clock, time⟩] })

/-- A transcript may go on with given replies, when they are honest and no ObjectSync is patched. -/
theorem answer_allowed {o : ObjectSyncRef}
    {replies : (request : ApiRequest) → Except KubeError (ApiValue request)}
    (honest : ∀ request, Honest (.api request) (replies request))
    (unpatched : ∀ sync patch written, replies (.jsonPatchSync sync patch) ≠ .ok written)
    (cache : List Namespace) (time : String) (transcript : Transcript) (call : Call) :
    (transcribing o).answers transcript call (transcript.answer o replies cache time call).1
      (transcript.answer o replies cache time call).2 := by
  cases call with
  | api request =>
    refine ⟨honest request, ?_, rfl, rfl⟩
    cases request with
    | replaceSyncStatus sync body =>
      unfold answer
      dsimp only
      cases replies (.replaceSyncStatus sync body) with
      | ok written => rfl
      | error e => exact .inl rfl
    | jsonPatchSync sync patch =>
      unfold answer
      dsimp only
      cases patched : replies (.jsonPatchSync sync patch) with
      | ok written => exact absurd patched (unpatched sync patch written)
      | error e => rfl
    | _ =>
      unfold answer
      dsimp only
      cases replies _ <;> rfl
  | memory op =>
    refine ⟨trivial, rfl, ?_, rfl⟩
    cases op with
    | getInstance id => exact ⟨fun same => if_pos same, rfl⟩
    | _ => rfl
  | namespaces => exact ⟨trivial, rfl, rfl, rfl⟩
  | clock => exact ⟨trivial, rfl, rfl, rfl⟩

end Transcript

section Answered

variable {before after : Transcript} {call : Call} {reply : Reply call}

/-- An answer adds to what was written. -/
theorem Transcript.wrote_of_answered
    (recorded : after.answers = before.answers ++ [⟨call, reply⟩]) :
    after.wrote = (before.wrote || Answer.writes ⟨call, reply⟩) := by
  simp [Transcript.wrote, recorded]

/-- An answer adds to what was removed. -/
theorem Transcript.removed_of_answered
    (recorded : after.answers = before.answers ++ [⟨call, reply⟩]) :
    after.removed = (before.removed || Answer.removes ⟨call, reply⟩) := by
  simp [Transcript.removed, recorded]

/-- An answer adds to what was refused. -/
theorem Transcript.refused_of_answered
    (recorded : after.answers = before.answers ++ [⟨call, reply⟩]) :
    after.refused = (before.refused || Answer.refuses ⟨call, reply⟩) := by
  simp [Transcript.refused, recorded]

/-- An answer may change what was seen. -/
theorem Transcript.seen_of_answered (key : ObjectKey)
    (recorded : after.answers = before.answers ++ [⟨call, reply⟩]) :
    after.seen key = Answer.sees key (before.seen key) ⟨call, reply⟩ := by
  simp [Transcript.seen, recorded]

/-- Only reading the namespaces tells about them. -/
theorem Transcript.namespaces_of_answered (cache : List Namespace)
    (recorded : after.answers = before.answers ++ [⟨call, reply⟩]) (other : call ≠ .namespaces) :
    (⟨.namespaces, cache⟩ : Answer) ∈ after.answers ↔
      (⟨.namespaces, cache⟩ : Answer) ∈ before.answers := by
  rw [recorded, List.mem_append, List.mem_singleton]
  constructor
  · intro member
    rcases member with former | new
    · exact former
    · exact absurd (congrArg Sigma.fst new).symm other
  · exact .inl

end Answered

section Status

variable {o : ObjectSyncRef} {before : Transcript} {event : ObjectSyncModifications}

/-- The working copy has the persisted status as its original one. -/
structure InTouch (o : ObjectSyncRef) (event : ObjectSyncModifications) (transcript : Transcript) :
    Prop where
  of : event.Of o
  original : event.original.status = transcript.status

/-- What writing the status does. Where it fails, it may have been done. -/
structure StatusOutcome (o : ObjectSyncRef) (event : ObjectSyncModifications)
    (value : ObjectSyncModifications × Except ControllerError Unit) (before after : Transcript) :
    Prop where
  of : value.1.Of o
  registered : after.registered = before.registered
  same : value.1.modified.status = event.modified.status
  /-- A success persists the status, unless it is as it was read. -/
  ok : value.2 = .ok () →
    after.status = event.modified.status ∧ value.1.original.status = event.modified.status ∨
      event.original.status = event.modified.status ∧ after.status = before.status ∧
        value.1.original = event.original
  /-- A failure leaves what was read, and perhaps what is persisted. -/
  error : ∀ e, value.2 = .error e → value.1.original = event.original ∧
    (after.status = before.status ∨ after.status = event.modified.status ∧
      ∃ body e, (⟨.api (.replaceSyncStatus o.name body), .error e⟩ : Answer) ∈ after.answers)

/-- Writing the status has this outcome, and keeps what the two requests for it keep. -/
theorem wp_replaceStatus_outcome {kept : Transcript → Prop} (of : event.Of o)
    (read : ∀ before reply after, kept before →
      (transcribing o).answers before (.api (.getSyncStatus o.name)) reply after → kept after)
    (write : ∀ before body reply after, kept before →
      (transcribing o).answers before (.api (.replaceSyncStatus o.name body)) reply after →
        kept after)
    (start : kept before) :
    event.replaceStatus.wp (transcribing o)
      (fun value after => StatusOutcome o event value before after ∧ kept after) before := by
  unfold ObjectSyncModifications.replaceStatus
  by_cases changed : event.statusHasChanged = true
  · rw [if_pos changed]
    unfold ObjectSyncModifications.latest
    rw [of.addressed, wp_api]
    intro moved still reply middle answered
    subst still
    have kept' := read _ _ _ start answered
    refine ⟨trivial, ?_⟩
    have status : middle.status = moved.status := answered.2.1
    have registered : middle.registered = moved.registered := answered.2.2.1
    cases reply with
    | error e => exact ⟨⟨of, registered, rfl, nofun, fun _ _ => ⟨rfl, .inl status⟩⟩, kept'⟩
    | ok latest =>
      dsimp only
      rw [wp_bind]
      unfold ObjectSyncModifications.replaceStatusWith
      dsimp only
      rw [ObjectSyncModifications.address_withResourceVersion, of.addressed, wp_api]
      intro moved' still reply after answered'
      subst still
      have kept'' := write _ _ _ _ kept' answered'
      refine ⟨trivial, ?_⟩
      have registered' : after.registered = moved.registered :=
        Eq.trans answered'.2.2.1 registered
      cases reply with
      | ok written =>
        have identity : (ObjectSyncModifications.new written).Of o :=
          ObjectSyncModifications.of_new answered'.1.1
        have persisted : after.status = event.modified.status :=
          Eq.trans answered'.2.1 (if_pos rfl)
        have returned : written.status = event.modified.status := answered'.1.2
        exact ⟨⟨identity, registered', returned, fun _ => .inl ⟨persisted, returned⟩, nofun⟩,
          kept''⟩
      | error e =>
        have outcome : after.status = moved'.status ∨ o.name = o.name ∧
          after.status = event.modified.status := answered'.2.1
        have identity :
            (event.modify (·.withResourceVersion latest.metadata.resourceVersion)).Of o :=
          of.modify rfl rfl
        refine ⟨⟨identity, registered', rfl, nofun, fun _ _ => ⟨rfl, ?_⟩⟩, kept''⟩
        rcases outcome with unchanged | ⟨-, done⟩
        · exact .inl (unchanged.trans status)
        · refine .inr ⟨done,
            (event.modify (·.withResourceVersion latest.metadata.resourceVersion)).modified, e, ?_⟩
          rw [answered'.2.2.2]
          exact List.mem_append_right _ (List.mem_singleton.mpr rfl)
  · rw [if_neg changed]
    have same : event.original.status = event.modified.status := by
      simpa [ObjectSyncModifications.statusHasChanged] using changed
    exact ⟨⟨of, rfl, rfl, fun _ => .inr ⟨same, rfl, rfl⟩, nofun⟩, start⟩

end Status

/-- An object at a revision. -/
def objectAt (name : String) (revision : ObjectRevision) : DynamicObject :=
  ResourceControllerImpl.withRevision ⟨none, { name := some name }, []⟩ revision

/-- The ObjectSync of a name with a status. -/
def settingsSyncAt (sync : NamespacedName) (status : Option ObjectSyncStatus) : ObjectSync :=
  { settingsSync with
    metadata := { name := some sync.name, namespace_ := some sync.namespace_ }, status := status }

/-- Replies to the requests for copying the settings, when the copy is found at a revision or not,
writing it leads to another one or fails, and their API group is discovered or not. -/
def settingsReplies (found written : Except KubeError ObjectRevision)
    (discovered : Except KubeError ApiGroup) :
    (request : ApiRequest) → Except KubeError (ApiValue request)
  | .get _ name => found.map (objectAt name)
  | .create _ body => written.map (ResourceControllerImpl.withRevision body)
  | .replace _ _ body | .apply _ _ body => written.map (ResourceControllerImpl.withRevision body)
  | .getSync sync | .getSyncStatus sync => .ok (settingsSyncAt sync none)
  | .replaceSyncStatus sync body => .ok (settingsSyncAt sync body.status)
  | .delete .. => .ok ()
  | .discoverGroup _ => discovered
  | .jsonPatch .. | .jsonPatchSync .. => .error (.api 403 "forbidden")

/-- The replies to a run for the settings are honest, and no ObjectSync is patched. -/
theorem settingsReplies_allowed (found written : Except KubeError ObjectRevision)
    (discovered : Except KubeError ApiGroup) (transcript : Transcript) (call : Call) :
    (transcribing settingsRef).answers transcript call
      (transcript.answer settingsRef (settingsReplies found written discovered) settingsNamespaces
        "now" call).1
      (transcript.answer settingsRef (settingsReplies found written discovered) settingsNamespaces
        "now" call).2 := by
  refine Transcript.answer_allowed ?_ ?_ _ _ transcript call
  · intro request
    cases request with
    | get api name => cases found <;> trivial
    | create api body => cases written <;> trivial
    | replace api name body => cases written <;> trivial
    | apply api name body => cases written <;> trivial
    | replaceSyncStatus sync body => exact ⟨rfl, rfl⟩
    | getSync sync => exact rfl
    | getSyncStatus sync => exact rfl
    | discoverGroup group => cases discovered <;> trivial
    | _ => trivial
  · intro sync patch written same
    cases same

end ObjectSyncer
