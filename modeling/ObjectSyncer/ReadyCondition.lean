import ObjectSyncer.Conditions

/-!
# The Ready condition

Runs of the main controller for one name of an ObjectSync, one after the other, with any answers,
restarts of the controller and replacements of the ObjectSync. A run that finds the ObjectSync
registered for its source publishes nothing, so what the condition says afterwards depends on what
it said before.
-/
namespace ObjectSyncer

open Interaction Interaction.Program

namespace Answer

/-- The ObjectSync that a patch has returned, if there was one. -/
def patches (current : ObjectSync) : Answer → ObjectSync
  | ⟨.api (.jsonPatchSync ..), .ok written⟩ => written
  | _ => current

/-- The API group that was discovered, if one was. -/
def discovers (current : Option ApiGroup) : Answer → Option ApiGroup
  | ⟨.api (.discoverGroup _), reply⟩ => reply.toOption
  | _ => current

/-- A status write has failed. -/
def loses : Answer → Bool
  | ⟨.api (.replaceSyncStatus ..), .error _⟩ => true
  | _ => false

end Answer

namespace Transcript

/-- The ObjectSync that a run checks: what its patch has returned, or what it was started with. -/
def checked (transcript : Transcript) (sync : ObjectSync) : ObjectSync :=
  transcript.answers.foldl Answer.patches sync

/-- The API group that a run has discovered. -/
def discovered (transcript : Transcript) : Option ApiGroup :=
  transcript.answers.foldl Answer.discovers none

/-- A status write has failed, so that it is unknown whether it was done. -/
def Lost (transcript : Transcript) (o : ObjectSyncRef) : Prop :=
  ∃ body e, (⟨.api (.replaceSyncStatus o.name body), .error e⟩ : Answer) ∈ transcript.answers

end Transcript

/-- Calls after the kind of the source was discovered: nothing is patched or discovered. -/
structure Onwards (before after : Transcript) : Prop where
  checked : ∀ sync, after.checked sync = before.checked sync
  discovered : after.discovered = before.discovered
  answers : ∀ answer ∈ before.answers, answer ∈ after.answers

/-- A transcript goes on by no calls. -/
theorem Onwards.refl (transcript : Transcript) : Onwards transcript transcript :=
  ⟨fun _ => rfl, rfl, fun _ => id⟩

/-- Calls that leave a transcript going on, followed by further ones, leave it going on. -/
theorem Onwards.trans {first second third : Transcript} (step : Onwards first second)
    (next : Onwards second third) : Onwards first third :=
  ⟨fun sync => (next.checked sync).trans (step.checked sync),
    next.discovered.trans step.discovered,
    fun answer member => next.answers answer (step.answers answer member)⟩

/-- A call that neither patches nor discovers. -/
def GoesOn : Call → Prop
  | .api (.jsonPatchSync ..) | .api (.discoverGroup _) => False
  | _ => True

section Answered

variable {o : ObjectSyncRef} {before after : Transcript} {call : Call} {reply : Reply call}

/-- A transcript keeps its answers, and gets the one to the next call. -/
theorem mem_answers_of_answered (answered : (transcribing o).answers before call reply after) :
    (∀ answer ∈ before.answers, answer ∈ after.answers) ∧
      (⟨call, reply⟩ : Answer) ∈ after.answers := by
  rw [answered.2.2.2]
  exact ⟨fun answer member => List.mem_append_left _ member,
    List.mem_append_right _ (List.mem_singleton.mpr rfl)⟩

/-- A call that neither patches nor discovers leaves a transcript going on. -/
theorem Onwards.of_answered (answered : (transcribing o).answers before call reply after)
    (goesOn : GoesOn call) : Onwards before after := by
  refine ⟨?_, ?_, (mem_answers_of_answered answered).1⟩
  · intro sync
    unfold Transcript.checked
    rw [answered.2.2.2, List.foldl_append]
    show Answer.patches _ ⟨call, reply⟩ = _
    cases call with
    | api request => cases request <;> first | rfl | exact goesOn.elim
    | _ => rfl
  · unfold Transcript.discovered
    rw [answered.2.2.2, List.foldl_append]
    show Answer.discovers _ ⟨call, reply⟩ = _
    cases call with
    | api request => cases request <;> first | rfl | exact goesOn.elim
    | _ => rfl

end Answered

/-- The conditions of a status. -/
def conditionsOf (status : Option ObjectSyncStatus) : List Condition :=
  (status.bind (·.conditions)).getD []

/-- Every Ready condition of a status is one of some conditions. -/
def ReadyFrom (former : List Condition) (status : Option ObjectSyncStatus) : Prop :=
  ∀ condition ∈ conditionsOf status, condition.type_ = ready → condition ∈ former

/-- Updating another condition leaves the Ready conditions. -/
theorem ReadyFrom.updateCondition {former : List Condition} {sync : ObjectSync}
    {condition : Condition} (from_ : ReadyFrom former sync.status) (other : condition.type_ ≠ ready)
    (time : String) : ReadyFrom former (sync.updateCondition time condition).status := by
  intro c member typed
  have listed : (sync.status.getD .default).conditions.getD [] = conditionsOf sync.status := by
    cases sync.status <;> rfl
  rcases ObjectSyncStatus.mem_updateCondition member with kept | updated
  · rw [listed] at kept
    exact from_ c kept typed
  · exact absurd (updated.symm.trans typed) other

/-- Updating the destinations leaves the Ready conditions. -/
theorem ReadyFrom.updateDestinations {former : List Condition} {sync : ObjectSync}
    (from_ : ReadyFrom former sync.status) (destinations : List DestinationStatus) :
    ReadyFrom former (sync.updateDestinations destinations).status := by
  intro c member typed
  apply from_ c _ typed
  cases status : sync.status with
  | none =>
    rw [ObjectSync.updateDestinations, status] at member
    exact member
  | some status' =>
    rw [ObjectSync.updateDestinations, status] at member
    exact member

/-- A working copy whose original states the Ready condition as it is persisted, and that has no
Ready condition of its own. -/
structure AtWork (o : ObjectSyncRef) (former : List Condition) (event : ObjectSyncModifications)
    (transcript : Transcript) : Prop where
  of : event.Of o
  agrees : conditionStatus event.original.status ready = conditionStatus transcript.status ready
  original : ReadyFrom former event.original.status
  modified : ReadyFrom former event.modified.status

/-- A working copy whose last status write may have failed. -/
structure Reportable (o : ObjectSyncRef) (former : List Condition) (event : ObjectSyncModifications)
    (transcript : Transcript) : Prop where
  of : event.Of o
  original : ReadyFrom former event.original.status
  status : conditionStatus event.original.status ready = conditionStatus transcript.status ready ∨
    transcript.status = event.modified.status ∧ transcript.Lost o

/-- A run at work whose calls have not failed knows what the condition states. -/
theorem AtWork.reportable {o : ObjectSyncRef} {former : List Condition}
    {event : ObjectSyncModifications} {transcript : Transcript}
    (working : AtWork o former event transcript) : Reportable o former event transcript :=
  ⟨working.of, working.original, .inl working.agrees⟩

/-- A working copy stays at work while nothing is persisted. -/
theorem AtWork.of_status {o : ObjectSyncRef} {former : List Condition}
    {event : ObjectSyncModifications} {before after : Transcript}
    (working : AtWork o former event before) (same : after.status = before.status) :
    AtWork o former event after := by
  constructor
  · exact working.of
  · rw [same]
    exact working.agrees
  · exact working.original
  · exact working.modified

section Checks

variable {o : ObjectSyncRef} {sync : ObjectSync} {former : List Condition}
  {event : ObjectSyncModifications} {before : Transcript}

/-- What writing the status of a working copy leaves. -/
structure Replaced (o : ObjectSyncRef) (former : List Condition) (event : ObjectSyncModifications)
    (before : Transcript) (value : ObjectSyncModifications × Except ControllerError Unit)
    (after : Transcript) : Prop where
  onwards : Onwards before after
  registered : after.registered = before.registered
  /-- A success persists the Ready condition. -/
  ok : value.2 = .ok () → value.1.Of o ∧
    conditionStatus after.status ready = conditionStatus event.modified.status ready ∧
      value.1.original.status = event.modified.status ∧
        value.1.modified.status = event.modified.status
  error : ∀ e, value.2 = .error e → Reportable o former value.1 after

/-- Writing the status of a working copy persists the Ready condition, or is reportable. -/
theorem wp_replaceStatus_working (of : event.Of o)
    (agrees : conditionStatus event.original.status ready = conditionStatus before.status ready)
    (original : ReadyFrom former event.original.status) :
    event.replaceStatus.wp (transcribing o) (Replaced o former event before) before := by
  refine wp_imp ?_ (@wp_replaceStatus_outcome o before event (Onwards before) of ?_ ?_ (.refl _))
  · intro value after outcome
    obtain ⟨outcome, onwards⟩ := outcome
    refine ⟨onwards, outcome.registered, fun finished => ?_, fun e failed => ?_⟩
    · rcases outcome.ok finished with ⟨persisted, copied⟩ | ⟨same, unchanged, copied⟩
      · exact ⟨outcome.of, by rw [persisted], copied, outcome.same⟩
      · have stated : conditionStatus after.status ready =
            conditionStatus event.modified.status ready := by
          rw [unchanged, ← agrees, same]
        have kept : value.1.original.status = event.modified.status := by
          rw [copied, same]
        exact ⟨outcome.of, stated, kept, outcome.same⟩
    · obtain ⟨copied, status⟩ := outcome.error e failed
      refine ⟨outcome.of, ?_, ?_⟩
      · rw [copied]
        exact original
      · rcases status with unchanged | ⟨done, lost⟩
        · left
          rw [copied, unchanged]
          exact agrees
        · right
          exact ⟨done.trans outcome.same.symm, lost⟩
  · intro moved reply after kept answered
    exact kept.trans (.of_answered answered trivial)
  · intro moved body reply after kept answered
    exact kept.trans (.of_answered answered trivial)

namespace ObjectSyncController

/-- A removal neither patches nor discovers, and leaves the status and the registration. -/
theorem kept_of_removal {d : DestinationStatus} {request : ApiRequest} {after : Transcript}
    {reply : Reply (.api request)} (removal : d.Removal request)
    (answered : (transcribing o).answers before (.api request) reply after) :
    Onwards before after ∧ after.registered = before.registered ∧ after.status = before.status := by
  refine ⟨.of_answered answered ?_, ?_, ?_⟩
  · cases removal <;> trivial
  · cases removal <;> exact answered.2.2.1
  · cases removal with
    | release patch => cases reply <;> exact answered.2.1
    | _ => exact answered.2.1

/-- Deleting objects leaves the status and the registration. -/
theorem onwards_deleteDestinations (destinations : List DestinationStatus) :
    (ObjectSyncer.deleteDestinations destinations).wp (transcribing o)
      (fun _ after => Onwards before after ∧ after.registered = before.registered ∧
        after.status = before.status) before := by
  have shape := @ObjectSyncer.requests_deleteDestinations
    (fun call => ∃ (d : DestinationStatus) (request : ApiRequest), d.Removal request ∧
      call = .api request) destinations fun d _ request removal => ⟨d, request, removal, rfl⟩
  refine wp_imp (fun _ _ kept => kept.2) (@wp_requests _ _ _ _ (transcribing o) _ _
    (fun after => Onwards before after ∧ after.registered = before.registered ∧
      after.status = before.status) _ _ before shape (fun _ _ _ _ answered => answered.1) ?_ ?_
    ⟨.refl _, rfl, rfl⟩)
  · intro moved after kept still
    rw [still]
    exact kept
  · intro moved call reply after kept asked answered
    obtain ⟨d, request, removal, rfl⟩ := asked
    obtain ⟨onwards, registered, status⟩ := kept
    obtain ⟨further, registered', status'⟩ := kept_of_removal removal answered
    exact ⟨trivial, onwards.trans further, registered'.trans registered, status'.trans status⟩

/-- Reading the clock leaves the status and the registration. -/
theorem wp_updateCondition_onwards {condition : Condition} {post : ObjectSyncModifications →
    Transcript → Prop}
    (step : ∀ time read, Onwards before read → read.registered = before.registered →
      read.status = before.status → post (event.modify (·.updateCondition time condition)) read) :
    (event.updateCondition condition).wp (transcribing o) post before := by
  unfold ObjectSyncModifications.updateCondition
  rw [wp_clock]
  intro moved still time read answered
  subst still
  exact ⟨trivial, step time read (.of_answered answered trivial) answered.2.2.1 answered.2.1⟩

/-- Removing the destinations keeps the working copy, or is reportable. -/
theorem working_deleteDestinations (working : AtWork o former event before) :
    (deleteDestinations event).wp (transcribing o) (fun value after =>
      (Onwards before after ∧ after.registered = before.registered) ∧
        (value.2 = .ok () → AtWork o former value.1 after) ∧
        ∀ e, value.2 = .error e → Reportable o former value.1 after) before := by
  unfold deleteDestinations
  cases event.modified.statusDestinations with
  | none => exact ⟨⟨.refl _, rfl⟩, fun _ => working, nofun⟩
  | some destinations =>
    dsimp only
    rw [wp_bind]
    refine wp_imp ?_ (onwards_deleteDestinations destinations)
    intro result middle kept
    obtain ⟨onwards, registered, status⟩ := kept
    have working' := working.of_status status
    cases result with
    | error e => exact ⟨⟨onwards, registered⟩, nofun, fun _ _ => working'.reportable⟩
    | ok remaining =>
      dsimp only
      rw [wp_bind]
      apply wp_updateCondition_onwards
      intro time read read' registered' status'
      rw [wp_bind]
      generalize changed : ((event.modify (·.updateCondition time
        (removalCondition destinations.length remaining.length))).updateDestinations remaining) =
          event'
      have kind : (removalCondition destinations.length remaining.length).type_ ≠ ready := by
        have other : inSync ≠ ready := by decide
        unfold removalCondition
        split <;> exact other
      have working'' := working'.of_status status'
      have modified : ReadyFrom former event'.modified.status := by
        rw [← changed]
        exact (working.modified.updateCondition kind time).updateDestinations remaining
      have of : event'.Of o := by
        rw [← changed]
        exact (working.of.modify rfl rfl).modify rfl rfl
      have agrees : conditionStatus event'.original.status ready =
          conditionStatus read.status ready := by
        rw [← changed]
        exact working''.agrees
      have original : ReadyFrom former event'.original.status := by
        rw [← changed]
        exact working.original
      refine wp_imp ?_ (wp_replaceStatus_working of agrees original)
      intro value after written
      have all : Onwards before after ∧ after.registered = before.registered :=
        ⟨onwards.trans (read'.trans written.onwards),
          written.registered.trans (registered'.trans registered)⟩
      obtain ⟨event'', result⟩ := value
      cases result with
      | error e => exact ⟨all, nofun, fun e' _ => written.error e rfl⟩
      | ok =>
        obtain ⟨of', persisted, copied, same⟩ := written.ok rfl
        dsimp only at of' copied same
        have last : AtWork o former event'' after := by
          constructor
          · exact of'
          · rw [copied, persisted]
          · rw [copied]
            exact modified
          · rw [same]
            exact modified
        dsimp only
        split
        · exact ⟨all, nofun, fun _ _ => last.reportable⟩
        · exact ⟨all, fun _ => last, nofun⟩

/-- Publishing that an ObjectSync is ready persists that, or is reportable. -/
theorem ready_publish (working : AtWork o former event before) {condition : Condition}
    (kind : condition.type_ = ready) (good : condition.status = "True") :
    (publish event condition).wp (transcribing o) (fun value after => Onwards before after ∧
      (value.2 = .ok () → conditionStatus after.status ready = some "True") ∧
      ∀ e, value.2 = .error e → Reportable o former value.1 after) before := by
  unfold publish
  rw [wp_bind]
  apply wp_updateCondition_onwards
  intro time read read' registered status
  have working' := working.of_status status
  refine wp_imp ?_ (wp_replaceStatus_working (working'.of.modify rfl rfl) working'.agrees
    working'.original)
  intro value after written
  refine ⟨read'.trans written.onwards, fun finished => ?_, written.error⟩
  rw [(written.ok finished).2.1, ← kind, ← good]
  exact ObjectSync.conditionStatus_updateCondition event.modified time condition

/-- What is known once the finalizer is in place, or could not be added. -/
structure Prepared (o : ObjectSyncRef) (sync : ObjectSync) (former : List Condition)
    (event : ObjectSyncModifications) (before after : Transcript) : Prop where
  working : AtWork o former event after
  status : after.status = before.status
  registered : after.registered = before.registered
  spec : event.modified.spec = (after.checked sync).spec
  namespace_ : event.modified.metadata.namespace_ = (after.checked sync).metadata.namespace_

/-- What was prepared is prepared after a call that goes on and persists nothing. -/
theorem Prepared.onwards {middle after : Transcript}
    (prepared : Prepared o sync former event before middle) (onwards : Onwards middle after)
    (status : after.status = middle.status) (registered : after.registered = middle.registered) :
    Prepared o sync former event before after := by
  constructor
  · exact prepared.working.of_status status
  · exact status.trans prepared.status
  · exact registered.trans prepared.registered
  · rw [onwards.checked]
    exact prepared.spec
  · rw [onwards.checked]
    exact prepared.namespace_

/-- A patch of the ObjectSync leaves its status. -/
theorem prepared_patchSpec (prepared : Prepared o sync former event before before)
    (persisted : ReadyFrom former before.status) :
    event.patchSpec.wp (transcribing o)
      (fun value after => Prepared o sync former value.1 before after) before := by
  unfold ObjectSyncModifications.patchSpec
  split
  · unfold ObjectSyncModifications.patchSpecNow
    rw [wp_api]
    intro moved still reply read answered
    subst still
    refine ⟨trivial, ?_⟩
    have prepared' : Prepared o sync former event moved read :=
      prepared.onwards (.of_answered answered trivial) answered.2.1 answered.2.2.1
    cases reply with
    | error e => exact prepared'
    | ok latest =>
      dsimp only
      cases event.getSpecPatch latest with
      | none => exact prepared'
      | some patch =>
        dsimp only
        rw [prepared.working.of.addressed, wp_api]
        intro moved' still reply after answered'
        subst still
        refine ⟨trivial, ?_⟩
        have registered : after.registered = moved.registered :=
          Eq.trans answered'.2.2.1 prepared'.registered
        cases reply with
        | ok new =>
          have kept : (o.name = o.name → new.status = moved'.status) ∧
            after.status = moved'.status := answered'.2.1
          have patched : after.checked sync = new := by
            unfold Transcript.checked
            rw [answered'.2.2.2, List.foldl_append]
            rfl
          have copied : ReadyFrom former new.status := by
            rw [kept.1 rfl, prepared'.status]
            exact persisted
          have agrees : conditionStatus new.status ready = conditionStatus after.status ready := by
            rw [kept.1 rfl, kept.2]
          exact ⟨⟨ObjectSyncModifications.of_new answered'.1, agrees, copied, copied⟩,
            kept.2.trans prepared'.status, registered, by rw [patched], by rw [patched]⟩
        | error e =>
          have status : after.status = moved'.status := answered'.2.1
          have unpatched : after.checked sync = moved'.checked sync := by
            unfold Transcript.checked
            rw [answered'.2.2.2, List.foldl_append]
            rfl
          constructor
          · exact prepared'.working.of_status status
          · exact status.trans prepared'.status
          · exact registered
          · rw [unpatched]
            exact prepared'.spec
          · rw [unpatched]
            exact prepared'.namespace_
  · exact prepared

/-- Adding the finalizer prepares the working copy. -/
theorem prepared_addFinalizerIfMissing {status : Option ObjectSyncStatus}
    (identity : ObjectSyncRef.ofSync sync = o)
    (fresh : conditionStatus sync.status ready = conditionStatus status ready)
    (cached : ReadyFrom former sync.status) (persisted : ReadyFrom former status)
    (registered : Option ObjectSyncInstance) :
    (addFinalizerIfMissing (.new sync)).wp (transcribing o)
      (fun value after => Prepared o sync former value.1 ⟨status, registered, []⟩ after)
      ⟨status, registered, []⟩ := by
  have of : (ObjectSyncModifications.new sync).Of o := ObjectSyncModifications.of_new identity
  have prepared (finalizers : List String) :
      Prepared o sync former (setFinalizers (.new sync) finalizers) ⟨status, registered, []⟩
        ⟨status, registered, []⟩ :=
    ⟨⟨of.modify rfl rfl, fresh, cached, cached⟩, rfl, rfl, rfl, rfl⟩
  unfold addFinalizerIfMissing
  dsimp only
  split
  · exact prepared _
  · rw [wp_bind]
    exact wp_imp (fun _ _ prepared => prepared) (prepared_patchSpec (prepared _) persisted)

/-- The kind of a source is that of a discovered resource. -/
theorem discovered_getGvk (source : SourceObject) :
    (getGvk source).wp (transcribing o) (fun value after =>
      (after.status = before.status ∧ after.registered = before.registered ∧
        ∀ sync, after.checked sync = before.checked sync) ∧
        ∀ gvk, value = .ok gvk → ∃ apigroup, after.discovered = some apigroup ∧
          (findApiResource source apigroup).bind requireNamespaced = .ok gvk) before := by
  unfold getGvk
  rw [wp_api]
  intro moved still reply after answered
  subst still
  refine ⟨trivial, ?_⟩
  have kept : after.status = moved.status ∧ after.registered = moved.registered ∧
      ∀ sync, after.checked sync = moved.checked sync := by
    refine ⟨answered.2.1, answered.2.2.1, fun sync => ?_⟩
    unfold Transcript.checked
    rw [answered.2.2.2, List.foldl_append]
    rfl
  have discovered : after.discovered = reply.toOption := by
    unfold Transcript.discovered
    rw [answered.2.2.2, List.foldl_append]
    rfl
  cases reply with
  | ok apigroup => exact ⟨kept, fun gvk found => ⟨apigroup, discovered, found⟩⟩
  | error e => cases e <;> exact ⟨kept, nofun⟩

/-- Registering changes neither the status nor what is known. -/
theorem onwards_add (gvk : GroupVersionKind) :
    (add event gvk).wp (transcribing o)
      (fun _ after => Onwards before after ∧ after.status = before.status) before := by
  unfold add
  rw [wp_memory]
  intro moved still controller first answered
  subst still
  refine ⟨trivial, ?_⟩
  rw [wp_memory]
  intro moved' still handle second answered'
  subst still
  refine ⟨trivial, ?_⟩
  intro moved'' still reply third answered''
  subst still
  have onwards : Onwards moved moved' := .of_answered answered trivial
  have onwards' : Onwards moved' moved'' := .of_answered answered' trivial
  have onwards'' : Onwards moved'' third := .of_answered answered'' trivial
  exact ⟨trivial, onwards.trans (onwards'.trans onwards''),
    Eq.trans answered''.2.1 (Eq.trans answered'.2.1 answered.2.1)⟩

/-- A move to another source keeps the working copy, or is reportable. -/
theorem working_moveSource (gvk : GroupVersionKind) (working : AtWork o former event before) :
    (moveSource event gvk).wp (transcribing o) (fun value after => Onwards before after ∧
      (value.2 = .ok () → AtWork o former value.1 after) ∧
      ∀ e, value.2 = .error e → Reportable o former value.1 after) before := by
  unfold moveSource remove
  rw [wp_memory]
  intro moved still reply first answered
  subst still
  refine ⟨trivial, ?_⟩
  have onwards : Onwards moved first := .of_answered answered trivial
  have working' : AtWork o former event first := working.of_status answered.2.1
  rw [wp_bind]
  refine wp_imp ?_ (working_deleteDestinations working')
  intro value middle outcome
  obtain ⟨⟨further, -⟩, ok, error⟩ := outcome
  obtain ⟨event', result⟩ := value
  cases result with
  | error e => exact ⟨onwards.trans further, nofun, fun e' _ => error e rfl⟩
  | ok =>
    have working'' := ok rfl
    dsimp only at working'' ⊢
    rw [wp_bind]
    refine wp_imp ?_ (onwards_add gvk)
    intro _ after added
    exact ⟨onwards.trans (further.trans added.1), fun _ => working''.of_status added.2, nofun⟩

end ObjectSyncController

/-- The kind of the source that a run has discovered. -/
def DiscoversKind (sync : ObjectSync) (transcript : Transcript) (gvk : GroupVersionKind) : Prop :=
  ∃ apigroup, transcript.discovered = some apigroup ∧
    (ObjectSyncController.findApiResource (transcript.checked sync).spec.source apigroup).bind
      ObjectSyncController.requireNamespaced = .ok gvk

/-- A run registers the ObjectSync: it was not registered yet, or for another source. -/
def RegistersSource (sync : ObjectSync) (registered : Option ObjectSyncInstance)
    (transcript : Transcript) : Prop :=
  ∀ inst, registered = some inst → ∀ gvk, DiscoversKind sync transcript gvk →
    inst.sourceChanged (transcript.checked sync) gvk = true

/-- How a check ends: what it returns, persists and registers. -/
structure CheckOutcome (o : ObjectSyncRef) (sync : ObjectSync) (former : List Condition)
    (status : Option ObjectSyncStatus) (registered : Option ObjectSyncInstance)
    (value : ObjectSyncModifications × Except ControllerError Unit)
    (after : Transcript) : Prop where
  /-- A success publishes a condition for a new registration, and nothing for a former one. -/
  ok : value.2 = .ok () →
    RegistersSource sync registered after ∧ conditionStatus after.status ready = some "True" ∨
      ¬RegistersSource sync registered after ∧ after.status = status
  error : ∀ e, value.2 = .error e → Reportable o former value.1 after

/-- Where a status write may be lost, the clock has moved on since the Ready condition was set, as
it is cached and as it is persisted. -/
def ClockMoves (o : ObjectSyncRef) (former : List Condition) (transcript : Transcript) : Prop :=
  transcript.Lost o → ∀ time, (⟨.clock, time⟩ : Answer) ∈ transcript.answers →
    ∀ condition ∈ former, condition.type_ = ready → condition.lastTransitionTime ≠ some time

/-- What is known once a check has looked the ObjectSync up: the kind of its source and the
ObjectSync stay those of this moment. -/
structure LookedUp (o : ObjectSyncRef) (sync : ObjectSync) (former : List Condition)
    (status : Option ObjectSyncStatus) (event : ObjectSyncModifications)
    (currentGvk : GroupVersionKind) (before : Transcript) : Prop where
  working : AtWork o former event before
  status : before.status = status
  kind : ∀ after, Onwards before after → ∀ gvk, DiscoversKind sync after gvk ↔ gvk = currentGvk
  changes : ∀ after, Onwards before after → ∀ inst : ObjectSyncInstance,
    inst.sourceChanged (after.checked sync) currentGvk =
      inst.sourceChanged event.modified currentGvk

namespace ObjectSyncController

/-- Whether a source has changed depends on the specification and the namespace only. -/
theorem sourceChanged_congr (inst : ObjectSyncInstance) {left right : ObjectSync}
    (gvk : GroupVersionKind) (spec : left.spec = right.spec)
    (namespace_ : left.metadata.namespace_ = right.metadata.namespace_) :
    inst.sourceChanged left gvk = inst.sourceChanged right gvk := by
  simp only [ObjectSyncInstance.sourceChanged, ObjectSync.sourceNamespace, spec, namespace_]

section LookedUp

variable {status : Option ObjectSyncStatus} {currentGvk : GroupVersionKind}

/-- A source changes from an instance exactly if the ObjectSync is registered anew. -/
theorem registers_iff (lookedUp : LookedUp o sync former status event currentGvk before)
    {after : Transcript} (onwards : Onwards before after) (active : ObjectSyncInstance) :
    RegistersSource sync (some active) after ↔
      active.sourceChanged event.modified currentGvk = true := by
  rw [← lookedUp.changes after onwards]
  constructor
  · intro registers
    exact registers active rfl currentGvk ((lookedUp.kind after onwards currentGvk).mpr rfl)
  · intro changed inst same gvk discovers
    obtain rfl := Option.some.inj same
    obtain rfl := (lookedUp.kind after onwards gvk).mp discovers
    exact changed

/-- Where the ObjectSync has no instance, a check registers it. -/
theorem checkOutcome_register (lookedUp : LookedUp o sync former status event currentGvk before)
    (condition : Condition) (kind : condition.type_ = ready) (good : condition.status = "True") :
    (add event currentGvk >>= fun _ => publish event condition).wp (transcribing o)
      (CheckOutcome o sync former status none) before := by
  rw [wp_bind]
  refine wp_imp ?_ (onwards_add currentGvk)
  intro _ middle added
  refine wp_imp ?_ (ready_publish (lookedUp.working.of_status added.2) kind good)
  intro value after outcome
  obtain ⟨-, ok, error⟩ := outcome
  have registers : RegistersSource sync none after := by
    intro inst same
    cases same
  exact ⟨fun finished => .inl ⟨registers, ok finished⟩, error⟩

/-- Where a move has failed, the clone of the instance is dropped before that is reported. -/
theorem checkOutcome_unmoved (reportable : Reportable o former event before)
    {registered : Option ObjectSyncInstance} (active : ObjectSyncInstance) (e : ControllerError) :
    (Async.memory (.dropInstance event.id active) >>= fun _ => pure (event, .error e)).wp
      (transcribing o) (CheckOutcome o sync former status registered) before := by
  rw [wp_memory]
  intro moved still reply after answered
  subst still
  have unchanged : after.status = moved.status := answered.2.1
  refine ⟨trivial, nofun, fun _ _ => ⟨reportable.of, reportable.original, ?_⟩⟩
  rw [unchanged]
  apply reportable.status.imp id
  intro lost
  obtain ⟨done, body, e, member⟩ := lost
  exact ⟨done, body, e, (mem_answers_of_answered answered).1 _ member⟩

/-- After a move, the clone of the instance is dropped and the condition is published. -/
theorem checkOutcome_moved {event' : ObjectSyncModifications} {middle : Transcript}
    (lookedUp : LookedUp o sync former status event currentGvk before)
    {active : ObjectSyncInstance} (changed : active.sourceChanged event.modified currentGvk = true)
    (moves : Onwards before middle) (working : AtWork o former event' middle)
    {condition : Condition} (kind : condition.type_ = ready) (good : condition.status = "True") :
    (Async.memory (.dropInstance event'.id active) >>= fun _ => publish event' condition).wp
      (transcribing o) (CheckOutcome o sync former status (some active)) middle := by
  rw [wp_memory]
  intro moved still reply last answered
  subst still
  refine ⟨trivial, ?_⟩
  have dropped : Onwards moved last := .of_answered answered trivial
  have working' : AtWork o former event' last := working.of_status answered.2.1
  refine wp_imp ?_ (ready_publish working' kind good)
  intro value after outcome
  obtain ⟨published, ok, error⟩ := outcome
  have registers := (registers_iff lookedUp (moves.trans (dropped.trans published)) active).mpr
    changed
  exact ⟨fun finished => .inl ⟨registers, ok finished⟩, error⟩

end LookedUp

/-- Every check ends with such a return value, status and registration. -/
theorem checkOutcome {status : Option ObjectSyncStatus} (identity : ObjectSyncRef.ofSync sync = o)
    (fresh : conditionStatus sync.status ready = conditionStatus status ready)
    (cached : ReadyFrom former sync.status) (persisted : ReadyFrom former status)
    (registered : Option ObjectSyncInstance) :
    (check (.new sync)).wp (transcribing o) (CheckOutcome o sync former status registered)
      ⟨status, registered, []⟩ := by
  unfold check
  rw [wp_bind]
  refine wp_imp ?_ (prepared_addFinalizerIfMissing identity fresh cached persisted registered)
  intro value first prepared
  obtain ⟨event, result⟩ := value
  dsimp only at prepared
  cases result with
  | error e => exact ⟨nofun, fun _ _ => prepared.working.reportable⟩
  | ok =>
    dsimp only
    rw [wp_bind]
    refine wp_imp ?_ (discovered_getGvk event.modified.spec.source)
    intro found second known
    obtain ⟨⟨unchanged, entry, checked⟩, kinds⟩ := known
    have working : AtWork o former event second := prepared.working.of_status unchanged
    cases found with
    | error e => exact ⟨nofun, fun _ _ => working.reportable⟩
    | ok currentGvk =>
      dsimp only
      rw [working.of.identity, wp_memory]
      intro moved still active third answered
      subst still
      refine ⟨trivial, ?_⟩
      have looked : Onwards moved third := .of_answered answered trivial
      have status' : third.status = moved.status := answered.2.1
      have found : active = registered := by
        have read := answered.2.2.1.1 rfl
        rw [read, entry, prepared.registered]
      have lookedUp : LookedUp o sync former status event currentGvk third := by
        refine ⟨working.of_status status', ?_, fun after onwards gvk => ?_,
          fun after onwards inst => ?_⟩
        · rw [status', unchanged, prepared.status]
        · obtain ⟨apigroup, discovered, resource⟩ := kinds currentGvk rfl
          have group : after.discovered = some apigroup :=
            (onwards.discovered.trans looked.discovered).trans discovered
          have source : (after.checked sync).spec.source = event.modified.spec.source := by
            rw [onwards.checked, looked.checked, checked, prepared.spec]
          unfold DiscoversKind
          rw [group, source]
          constructor
          · intro discovers
            obtain ⟨apigroup', same, resource'⟩ := discovers
            rw [← Option.some.inj same, resource] at resource'
            exact (Except.ok.inj resource').symm
          · intro same
            subst same
            exact ⟨apigroup, rfl, resource⟩
        · apply sourceChanged_congr inst currentGvk
          · rw [onwards.checked, looked.checked, checked, prepared.spec]
          · rw [onwards.checked, looked.checked, checked, prepared.namespace_]
      subst found
      cases active with
      | none => exact checkOutcome_register lookedUp _ rfl rfl
      | some active =>
        dsimp only
        by_cases changed : active.sourceChanged event.modified currentGvk = true
        · rw [if_pos changed, wp_bind]
          refine wp_imp ?_ (working_moveSource currentGvk lookedUp.working)
          intro value middle outcome
          obtain ⟨moves, ok, error⟩ := outcome
          obtain ⟨event', result⟩ := value
          cases result with
          | error e => exact checkOutcome_unmoved (error e rfl) active e
          | ok => exact checkOutcome_moved lookedUp changed moves (ok rfl) rfl rfl
        · rw [if_neg changed, wp_memory]
          intro moved' still reply after answered'
          subst still
          have dropped : Onwards moved' after := .of_answered answered' trivial
          have unregistered : ¬RegistersSource sync (some active) after := by
            rw [registers_iff lookedUp dropped]
            exact changed
          have kept : after.status = moved'.status := answered'.2.1
          exact ⟨trivial, fun _ => .inr ⟨unregistered, kept.trans lookedUp.status⟩, nofun⟩

/-- `checkOrReport`, returning as well how the failure of the check was reported, if it has failed.
-/
def checkOrReportTraced (event : ObjectSyncModifications) :
    Async (Except ControllerError Unit × Option (Except ControllerError Unit)) := do
  match ← check event with
  | (_, .ok ()) => return (.ok (), none)
  | (event, .error e) =>
    let event ← event.updateCondition (Condition.new ready (some false) failure e.message)
    match ← event.replaceStatus with
    | (_, .error e) => return (.error e, some (.error e))
    | (_, .ok ()) => return (.error e, some (.ok ()))

/-- `reconcile`, returning as well how the failure of the check was reported. -/
def reconcileTraced (configuration : Configuration) (object : ObjectSync) :
    Async (Except ControllerError Action × Option (Except ControllerError Unit)) := do
  let event := ObjectSyncModifications.new object
  if watches configuration (event.modified.metadata.namespace_.getD "") then
    if event.isDeleted then do
      let (_, result) ← delete event
      return (result.map fun _ => .requeue 3600, none)
    else do
      let (result, reported) ← checkOrReportTraced event
      return (result.map fun _ => .requeue 3600, reported)
  else return (.ok (.requeue 3600), none)

/-- How a failure was reported is none of the business of the check. -/
theorem checkOrReportTraced_fst (event : ObjectSyncModifications) :
    Prod.fst <$> checkOrReportTraced event = checkOrReport event := by
  unfold checkOrReportTraced checkOrReport
  rw [map_bind]
  congr 1
  funext value
  obtain ⟨event, result⟩ := value
  cases result with
  | ok => rfl
  | error e =>
    dsimp only
    rw [map_bind]
    congr 1
    funext event
    rw [map_bind]
    congr 1
    funext value
    obtain ⟨event, result⟩ := value
    cases result <;> rfl

/-- A run that is traced returns what the run returns. -/
theorem reconcileTraced_fst (configuration : Configuration) (object : ObjectSync) :
    Prod.fst <$> reconcileTraced configuration object = reconcile configuration object := by
  unfold reconcileTraced reconcile
  dsimp only
  split
  · split
    · rw [map_bind]
      rfl
    · rw [map_bind, ← checkOrReportTraced_fst, map_eq_pure_bind, bind_assoc]
      rfl
  · rfl

/-- Reporting a failure persists it, unless a status write was lost and the clock stands still. -/
theorem not_ready_report (reportable : Reportable o former event before) {condition : Condition}
    (kind : condition.type_ = ready) :
    (event.updateCondition condition >>= fun event => event.replaceStatus).wp (transcribing o)
      (fun value after => Onwards before after ∧ (value.2 = .ok () →
        ClockMoves o former after → conditionStatus after.status ready = some condition.status))
      before := by
  unfold ObjectSyncModifications.updateCondition
  rw [wp_bind, wp_clock]
  intro moved still time read answered
  subst still
  refine ⟨trivial, ?_⟩
  have read' : Onwards moved read := .of_answered answered trivial
  have status : read.status = moved.status := answered.2.1
  have asked := (mem_answers_of_answered answered).2
  rw [pure_eq, wp_done]
  have of : (event.modify (·.updateCondition time condition)).Of o := reportable.of.modify rfl rfl
  refine wp_imp ?_ (@wp_replaceStatus_outcome o read _ (Onwards read) of ?_ ?_ (.refl _))
  · intro value after outcome
    obtain ⟨outcome, further⟩ := outcome
    refine ⟨read'.trans further, fun finished clock => ?_⟩
    rcases outcome.ok finished with ⟨persisted, -⟩ | ⟨same, unchanged, -⟩
    · rw [persisted, ← kind]
      exact ObjectSync.conditionStatus_updateCondition event.modified time condition
    · -- Nothing was written, as the status is the one that was read.
      have original : event.original.status =
          some ((event.modified.status.getD .default).updateCondition time condition) := same
      rcases reportable.status with known | ⟨done, lost⟩
      · rw [unchanged, status, ← known, original, ← kind]
        exact ObjectSyncStatus.conditionStatus_updateCondition _ time condition
      · rw [unchanged, status, done, ← kind]
        rcases ObjectSyncStatus.updateCondition_cases (event.modified.status.getD .default) time
          condition with ⟨-, stated⟩ | new
        · rw [← stated]
          exact (conditionStatus_getD _ _).symm
        · have listed : { condition with lastTransitionTime := some time } ∈
              conditionsOf event.original.status := by
            rw [original]
            exact new
          have known := reportable.original _ listed kind
          have lost' : after.Lost o := by
            obtain ⟨body, e, member⟩ := lost
            exact ⟨body, e, further.answers _ (read'.answers _ member)⟩
          exact absurd rfl (clock lost' time (further.answers _ asked) _ known kind)
  · intro moved reply after kept answered
    exact kept.trans (.of_answered answered trivial)
  · intro moved body reply after kept answered
    exact kept.trans (.of_answered answered trivial)

/-- What a run does for a watched ObjectSync that is not deleted. -/
theorem outcome_reconcileTraced {status : Option ObjectSyncStatus} (configuration : Configuration)
    (identity : ObjectSyncRef.ofSync sync = o)
    (watched : watches configuration (sync.metadata.namespace_.getD "") = true)
    (live : sync.metadata.terminating = false)
    (fresh : conditionStatus sync.status ready = conditionStatus status ready)
    (registered : Option ObjectSyncInstance) :
    (reconcileTraced configuration sync).wp (transcribing o) (fun value after =>
      (value.1.isOk = true → value.2 = none ∧
        (RegistersSource sync registered after ∧
            conditionStatus after.status ready = some "True" ∨
          ¬RegistersSource sync registered after ∧ after.status = status)) ∧
      (value.2 = some (.ok ()) →
        ClockMoves o (conditionsOf sync.status ++ conditionsOf status) after →
        conditionStatus after.status ready = some "False")) ⟨status, registered, []⟩ := by
  have isWatched : watches configuration
      ((ObjectSyncModifications.new sync).modified.metadata.namespace_.getD "") = true := watched
  have isLive : ¬(ObjectSyncModifications.new sync).isDeleted = true := by
    rw [Bool.not_eq_true]
    exact live
  unfold reconcileTraced checkOrReportTraced
  dsimp only
  rw [if_pos isWatched, if_neg isLive, wp_bind, wp_bind]
  have cached : ReadyFrom (conditionsOf sync.status ++ conditionsOf status) sync.status :=
    fun _ member _ => List.mem_append_left _ member
  have persisted : ReadyFrom (conditionsOf sync.status ++ conditionsOf status) status :=
    fun _ member _ => List.mem_append_right _ member
  refine wp_imp ?_ (checkOutcome identity fresh cached persisted registered)
  intro value middle outcome
  obtain ⟨event, result⟩ := value
  cases result with
  | ok => exact ⟨fun _ => ⟨rfl, outcome.ok rfl⟩, nofun⟩
  | error e =>
    have reportable := outcome.error e rfl
    have reported := @not_ready_report o _ event middle reportable
      (Condition.new ready (some false) failure e.message) rfl
    rw [wp_bind] at reported
    dsimp only
    rw [wp_bind]
    refine wp_imp ?_ reported
    intro event' read written
    rw [wp_bind]
    refine wp_imp ?_ written
    intro value after kept
    obtain ⟨event'', result⟩ := value
    cases result with
    | error e' => exact ⟨nofun, nofun⟩
    | ok => exact ⟨nofun, fun _ clock => kept.2 rfl clock⟩

end ObjectSyncController

end Checks

/-! ## Histories -/

/-- A finished run of `reconcile`. -/
structure ReadyRun where
  /-- The configuration of the controller. -/
  configuration : Configuration
  /-- The ObjectSync, as the watch cache has it when the run starts. -/
  sync : ObjectSync
  /-- The status that is persisted then. -/
  status : Option ObjectSyncStatus
  /-- Its entry in `instances` before the run. -/
  registered : Option ObjectSyncInstance
  /-- The persisted status after the run, with all answers of the run. -/
  later : Transcript
  /-- What the run has returned. -/
  result : Except ControllerError Action
  /-- What became of the status write, if the check has failed. -/
  reported : Option (Except ControllerError Unit)

namespace ReadyRun

/-- The ObjectSync is watched, and not deleted. -/
def Live (run : ReadyRun) : Prop :=
  ObjectSyncController.watches run.configuration (run.sync.metadata.namespace_.getD "") = true ∧
    run.sync.metadata.terminating = false

/-- The condition is true after a success, and false after a failure that was reported. -/
def Truthful (run : ReadyRun) : Prop :=
  run.Live → (run.result.isOk = true → conditionStatus run.later.status ready = some "True") ∧
    (run.reported = some (.ok ()) → conditionStatus run.later.status ready = some "False")

/-- A run starts with a condition that is true, or registers the ObjectSync anew. -/
def StartsReady (run : ReadyRun) : Prop :=
  conditionStatus run.status ready = some "True" ∨
    RegistersSource run.sync run.registered run.later

/-- The watch cache shows the Ready condition with the status that is persisted. -/
def Fresh (run : ReadyRun) : Prop :=
  conditionStatus run.sync.status ready = conditionStatus run.status ready

/-- Where a status write of the run may be lost, the clock has moved on since the Ready condition
was set. -/
def Timely (run : ReadyRun) (o : ObjectSyncRef) : Prop :=
  ClockMoves o (conditionsOf run.sync.status ++ conditionsOf run.status) run.later

end ReadyRun

/-- The finished runs for one name of an ObjectSync, the last one first, with the status that is
persisted and the registration. Every run starts from any snapshot of the ObjectSync. The controller
may be restarted, and the ObjectSync replaced. -/
inductive ReadyRuns (o : ObjectSyncRef) :
    Option ObjectSyncStatus → Option ObjectSyncInstance → List ReadyRun → Prop
  /-- There was no run yet. -/
  | start (status : Option ObjectSyncStatus) : ReadyRuns o status none []
  /-- A run is finished. -/
  | run {status : Option ObjectSyncStatus} {registered : Option ObjectSyncInstance}
      {runs : List ReadyRun} {sync : ObjectSync} {later : Transcript}
      {result : Except ControllerError Action} {reported : Option (Except ControllerError Unit)}
      (configuration : Configuration) : ReadyRuns o status registered runs →
      ObjectSyncRef.ofSync sync = o →
      Program.Returns (transcribing o).rely (transcribing o).answers
        (ObjectSyncController.reconcileTraced configuration sync) ⟨status, registered, []⟩
        (result, reported) later →
      ReadyRuns o later.status later.registered
        (⟨configuration, sync, status, registered, later, result, reported⟩ :: runs)
  /-- The controller is stopped during a run, and started again. -/
  | stop {status : Option ObjectSyncStatus} {registered : Option ObjectSyncInstance}
      {runs : List ReadyRun} {sync : ObjectSync} {later : Transcript}
      {rest : Async (Except ControllerError Action × Option (Except ControllerError Unit))}
      (configuration : Configuration) : ReadyRuns o status registered runs →
      ObjectSyncRef.ofSync sync = o →
      Program.Steps (transcribing o).rely (transcribing o).answers
        (ObjectSyncController.reconcileTraced configuration sync) ⟨status, registered, []⟩ rest
        later →
      ReadyRuns o later.status none runs
  /-- The controller is restarted. -/
  | restart {status : Option ObjectSyncStatus} {registered : Option ObjectSyncInstance}
      {runs : List ReadyRun} : ReadyRuns o status registered runs → ReadyRuns o status none runs
  /-- The ObjectSync is replaced by a new one of the same name. -/
  | replace {status : Option ObjectSyncStatus} {registered : Option ObjectSyncInstance}
      {runs : List ReadyRun} : ReadyRuns o status registered runs → ReadyRuns o none registered runs
  /-- Somebody writes the rest of the status. -/
  | edit {status status' : Option ObjectSyncStatus} {registered : Option ObjectSyncInstance}
      {runs : List ReadyRun} : ReadyRuns o status registered runs →
      conditionStatus status' ready = conditionStatus status ready →
      ReadyRuns o status' registered runs

/-- Where the watch cache is fresh and the clock moves on, the condition is truthful after a run
exactly if a run that succeeds has started with a true condition or has registered the ObjectSync.
-/
theorem ReadyRun.truthful_iff {o : ObjectSyncRef} {run : ReadyRun}
    (identity : ObjectSyncRef.ofSync run.sync = o)
    (returned : Program.Returns (transcribing o).rely (transcribing o).answers
      (ObjectSyncController.reconcileTraced run.configuration run.sync)
      ⟨run.status, run.registered, []⟩ (run.result, run.reported) run.later)
    (fresh : run.Live → run.Fresh) (timely : run.Timely o) :
    run.Truthful ↔ (run.Live → run.result.isOk = true → run.StartsReady) := by
  have outcome (live : run.Live) := returned.meets
    (ObjectSyncController.outcome_reconcileTraced run.configuration identity live.1 live.2
      (fresh live) run.registered)
  unfold Truthful StartsReady
  constructor
  · intro truthful live succeeded
    rcases ((outcome live).1 succeeded).2 with ⟨registers, -⟩ | ⟨-, unchanged⟩
    · exact .inr registers
    · left
      rw [← unchanged]
      exact (truthful live).1 succeeded
  · intro starts live
    refine ⟨fun succeeded => ?_, fun reported => (outcome live).2 reported timely⟩
    rcases ((outcome live).1 succeeded).2 with ⟨-, published⟩ | ⟨registered, unchanged⟩
    · exact published
    · rcases starts live succeeded with former | registers
      · rw [unchanged]
        exact former
      · exact absurd registers registered

/-- **The Ready condition tells the truth from run to run.** As long as every run on a live
ObjectSync sees the Ready condition that is persisted, and no status write is lost within the second
in which the condition was set, it does so after every run exactly if every run that succeeds starts
with a true condition or registers the ObjectSync for its source anew. -/
theorem ready_truthful_iff {o : ObjectSyncRef} {status : Option ObjectSyncStatus}
    {registered : Option ObjectSyncInstance} {runs : List ReadyRun}
    (history : ReadyRuns o status registered runs)
    (fresh : ∀ run ∈ runs, run.Live → run.Fresh) (timely : ∀ run ∈ runs, run.Timely o) :
    (∀ run ∈ runs, run.Truthful) ↔
      ∀ run ∈ runs, run.Live → run.result.isOk = true → run.StartsReady := by
  induction history with
  | start status =>
    constructor
    · intro _ run member
      exact absurd member List.not_mem_nil
    · intro _ run member
      exact absurd member List.not_mem_nil
  | @run status registered runs sync later result reported configuration _ identity returned ih =>
    have earlier := ih (fun run member => fresh run (List.mem_cons_of_mem _ member))
      fun run member => timely run (List.mem_cons_of_mem _ member)
    have last : ReadyRun.Truthful
        ⟨configuration, sync, status, registered, later, result, reported⟩ ↔ _ :=
      ReadyRun.truthful_iff identity returned (fresh _ List.mem_cons_self)
        (timely _ List.mem_cons_self)
    rw [List.forall_mem_cons, List.forall_mem_cons, earlier, last]
  | stop _ _ _ _ ih => exact ih fresh timely
  | restart _ ih => exact ih fresh timely
  | replace _ ih => exact ih fresh timely
  | edit _ _ ih => exact ih fresh timely

/-- A run of the main controller for the settings, from a cached and a persisted status and a
registration. -/
def settingsCheck (cached status : Option ObjectSyncStatus)
    (registered : Option ObjectSyncInstance) (discovered : Except KubeError ApiGroup) : ReadyRun :=
  let sync := { settingsSync with status := cached }
  let missing : Except KubeError ObjectRevision := .error (.api 404 "not found")
  let returned := (ObjectSyncController.reconcileTraced configMaps.configuration sync).run
    (fun transcript => transcript.answer settingsRef (settingsReplies missing missing discovered)
      settingsNamespaces "now") ⟨status, registered, []⟩
  ⟨configMaps.configuration, sync, status, registered, returned.2, returned.1.1, returned.1.2⟩

/-- A check of the settings continues a history. -/
theorem readyRuns_settingsCheck {status : Option ObjectSyncStatus}
    {registered : Option ObjectSyncInstance} {runs : List ReadyRun}
    (cached : Option ObjectSyncStatus) (discovered : Except KubeError ApiGroup)
    (history : ReadyRuns settingsRef status registered runs) :
    ReadyRuns settingsRef (settingsCheck cached status registered discovered).later.status
      (settingsCheck cached status registered discovered).later.registered
      (settingsCheck cached status registered discovered :: runs) := by
  have returned := @Program.returns_run _ _ _ _ (transcribing settingsRef).rely
    (transcribing settingsRef).answers _ (fun _ => rfl)
    (settingsReplies_allowed (.error (.api 404 "not found")) (.error (.api 404 "not found"))
      discovered)
    (ObjectSyncController.reconcileTraced configMaps.configuration
      { settingsSync with status := cached }) ⟨status, registered, []⟩
  exact history.run configMaps.configuration rfl returned

/-- The discovery of the core group with its config maps. -/
def coreDiscovered : Except KubeError ApiGroup := .ok ⟨[(⟨"", "v1", "ConfigMap"⟩, .namespaced)]⟩

/-- The run that registers the settings. -/
def settingsRegistered : ReadyRun := settingsCheck none none none coreDiscovered

/-- A run for the registered settings whose discovery fails. -/
def settingsUndiscovered : ReadyRun :=
  settingsCheck settingsRegistered.later.status settingsRegistered.later.status
    settingsRegistered.later.registered (.error (.other "unavailable"))

/-- The run after the failed discovery, which succeeds. -/
def settingsRecovered : ReadyRun :=
  settingsCheck settingsUndiscovered.later.status settingsUndiscovered.later.status
    settingsUndiscovered.later.registered coreDiscovered

/-- The status when the resource controller has reported a synchronization of the registered
settings. -/
def settingsReported : Option ObjectSyncStatus :=
  settingsRegistered.later.status.map fun status =>
    status.updateCondition "now" (ResourceControllerImpl.inSyncCondition 1 1)

/-- A run whose discovery fails, while the watch cache has not seen the report of the resource
controller. -/
def settingsBehind : ReadyRun :=
  settingsCheck settingsRegistered.later.status settingsReported
    settingsRegistered.later.registered (.error (.other "unavailable"))

/-- After the registration the condition is true, and after the failure it is false. -/
theorem settingsBehind_truthful :
    (settingsRegistered.Truthful ∧ settingsBehind.Truthful) ∧
      settingsBehind.sync.status ≠ settingsBehind.status := by
  have reported : conditionStatus settingsReported ready =
      conditionStatus settingsRegistered.later.status ready := by decide +kernel
  have first : ReadyRuns settingsRef settingsRegistered.later.status
      settingsRegistered.later.registered [settingsRegistered] :=
    readyRuns_settingsCheck _ _ (.start none)
  have history : ReadyRuns settingsRef settingsBehind.later.status settingsBehind.later.registered
      [settingsBehind, settingsRegistered] := readyRuns_settingsCheck _ _ (first.edit reported)
  have answered : ∀ run ∈ [settingsBehind, settingsRegistered],
      run.later.answers.any Answer.loses = false := by decide +kernel
  have truthful := (ready_truthful_iff history ?_ ?_).mpr ?_
  · exact ⟨⟨truthful _ (List.mem_cons_of_mem _ (List.mem_singleton_self _)),
      truthful _ List.mem_cons_self⟩, by decide +kernel⟩
  · intro run member _
    rcases List.mem_pair.mp member with rfl | rfl
    · exact reported.symm
    · rfl
  · intro run member lost
    obtain ⟨body, e, failed⟩ := lost
    have loses : run.later.answers.any Answer.loses = true :=
      List.any_eq_true.mpr ⟨_, failed, rfl⟩
    exact Bool.noConfusion ((answered run member).symm.trans loses)
  · intro run member _ succeeded
    rcases List.mem_pair.mp member with rfl | rfl
    · have failed : settingsBehind.result.isOk = false := by decide +kernel
      rw [failed] at succeeded
      cases succeeded
    · right
      intro inst same
      cases same

/-- After the run that succeeds again, the condition still is false. -/
theorem settingsRecovered_untruthful :
    ¬∀ (o : ObjectSyncRef) (status : Option ObjectSyncStatus)
      (registered : Option ObjectSyncInstance) (runs : List ReadyRun),
      ReadyRuns o status registered runs → ∀ run ∈ runs, run.Truthful := by
  intro truthful
  have history : ReadyRuns settingsRef settingsRecovered.later.status
      settingsRecovered.later.registered
      [settingsRecovered, settingsUndiscovered, settingsRegistered] :=
    readyRuns_settingsCheck _ _ (readyRuns_settingsCheck _ _
      (readyRuns_settingsCheck _ _ (.start none)))
  have live : settingsRecovered.Live := by
    constructor <;> decide +kernel
  have succeeded : settingsRecovered.result.isOk = true := by decide +kernel
  have stated : conditionStatus settingsRecovered.later.status ready = some "False" := by
    decide +kernel
  have true_ := (truthful _ _ _ _ history settingsRecovered List.mem_cons_self live).1 succeeded
  rw [stated] at true_
  exact absurd true_ (by decide)

end ObjectSyncer
