import ObjectSyncer.Template

/-!
# Recorded revisions

The runs of `reconcile_source` for one ObjectSync, with any replies and cut off anywhere, while its
source, its destinations and its copies are edited. Revisions determine the fields of objects; then
every recorded pair of revisions is truthful: the copy at its revision matches the template made
from the source at its revision.
-/
namespace ObjectSyncer

open Interaction Interaction.Program

/-- What revisions determine: the fields of an object. -/
abbrev Contents := ObjectKey → ObjectRevision → Fields

/-- All objects have the fields that their revisions determine. -/
def Server.Determined (server : Server) (contents : Contents) : Prop :=
  ∀ key stored, server.objects key = some stored →
    stored.object.fields = contents key stored.object.metadata.revision

/-- The key of a source. -/
def ResourceControllerImpl.sourceKey (self : ResourceControllerImpl)
    (ref : SourceRef) : ObjectKey :=
  (self.namespacedApi ref.name.namespace_).key ref.name.name

/-- The fields of a copy made from a revision of the source. -/
def Contents.template (contents : Contents) (self : ResourceControllerImpl) (ref : SourceRef)
    (revision : ObjectRevision) : Fields :=
  (contents (self.sourceKey ref) revision).copied ref

/-- An object is the source at one of its revisions. -/
structure SourceRevision (contents : Contents) (controller : ResourceControllerImpl)
    (ref : SourceRef) (source : DynamicObject) : Prop where
  named : SourceRef.ofObject source = ref
  fields : source.fields = contents (controller.sourceKey ref) source.metadata.revision

/-- The pair of revisions that an entry records is truthful. -/
def DestinationStatus.Truthful (contents : Contents) (copies : ObjectRevision → Fields)
    (d : DestinationStatus) : Prop :=
  ∀ copy source, d.syncedVersion = some copy → d.sourceVersion = some source →
    (contents d.key copy).Matches (copies source) d.effectiveStrategy

/-- A reply to a write returns a revision of what was written. -/
def Reveals (contents : Contents) : (call : Call) → Reply call → Prop
  | .api (.create api body), .ok written => body.fields.fitted = body.fields →
    contents (api.key body.metadata.nameAny) written.metadata.revision = body.fields
  | .api (.replace api name body), .ok written => body.fields.fitted = body.fields →
    contents (api.key name) written.metadata.revision = body.fields
  | .api (.apply api name body), .ok written => body.fields.fitted = body.fields →
    (contents (api.key name) written.metadata.revision).Carries body.fields
  | _, _ => True

/-- What is known of a reply when revisions determine fields. -/
def Reported (contents : Contents) (call : Call) (reply : Reply call) : Prop :=
  Honest call reply ∧ Reveals contents call reply

/-- All destinations of an ObjectSync are recorded truthfully. -/
def ObjectSync.Truthful (contents : Contents) (copies : ObjectRevision → Fields)
    (sync : ObjectSync) : Prop :=
  ∀ d ∈ sync.destinationList, d.Truthful contents copies

/-- A call that persists nothing untruthful. -/
def PersistsTruth (contents : Contents) (copies : ObjectRevision → Fields) : Call → Prop
  | .api (.replaceSyncStatus _ body) => body.Truthful contents copies
  | .api (.jsonPatchSync ..) => False
  | _ => True

/-- An entry that takes over the revisions of a truthful one is truthful. -/
theorem DestinationStatus.Truthful.of_same {contents : Contents}
    {copies : ObjectRevision → Fields} {d d' : DestinationStatus}
    (truthful : d.Truthful contents copies) (key : d'.key = d.key)
    (strategy : d'.effectiveStrategy = d.effectiveStrategy)
    (synced : d'.syncedVersion = d.syncedVersion) (source : d'.sourceVersion = d.sourceVersion) :
    d'.Truthful contents copies := by
  intro copy revision recorded recorded'
  rw [key, strategy]
  exact truthful copy revision (synced ▸ recorded) (source ▸ recorded')

/-- An entry without a revision is truthful. -/
theorem DestinationStatus.truthful_of_none {contents : Contents}
    {copies : ObjectRevision → Fields} {d : DestinationStatus} (none : d.syncedVersion = none) :
    d.Truthful contents copies := by
  intro copy revision recorded
  rw [none] at recorded
  cases recorded

/-! ## Runs -/

namespace ResourceControllerImpl

section Runs

variable {contents : Contents} {copies : ObjectRevision → Fields} {srcVersion : ObjectRevision}

/-- What is known of a program for honest replies is known when they reveal more. -/
theorem wp_reported {α : Type} {result : α → Prop} {program : Async α}
    (shape : program.wp (.requests Honest (PersistsTruth contents copies))
      (fun value _ => result value) ()) :
    program.wp (.requests (Reported contents) (PersistsTruth contents copies))
      (fun value _ => result value) () := by
  refine wp_mono ?_ ?_ ?_ ?_ shape
  · exact fun _ _ _ => trivial
  · exact fun _ _ _ _ reported => reported.1
  · exact fun _ _ _ _ _ kept => kept
  · exact fun _ _ known => known

/-- The expected entries of truthful recorded ones are truthful. -/
theorem splitDestinations_truthful (self : ResourceControllerImpl)
    (targets : List (String × String × Option SyncStrategy)) (recorded : List DestinationStatus)
    (truthful : ∀ d ∈ recorded, d.Truthful contents copies) :
    ∀ d ∈ (self.splitDestinations targets recorded).1, d.Truthful contents copies := by
  intro d member
  rcases self.revisions_of_splitDestinations targets recorded d member with new | taken
  · exact DestinationStatus.truthful_of_none new.1
  · obtain ⟨status, listed, key, strategy, synced, source⟩ := taken
    exact (truthful status listed).of_same key.symm strategy.symm synced.symm source.symm

/-- What the upsert of a destination needs to know: the template has the fields of a copy, and the
entry designates the object that is written. -/
structure Upserting (contents : Contents) (copies : ObjectRevision → Fields)
    (srcVersion : ObjectRevision) (api : DynamicApi) (d : DestinationStatus)
    (template : DynamicObject) : Prop where
  truthful : d.Truthful contents copies
  designates : api.key d.name = d.key
  named : template.metadata.nameAny = d.name
  fields : template.fields = copies srcVersion
  fitted : (copies srcVersion).fitted = copies srcVersion

variable {api : DynamicApi} {d : DestinationStatus} {template : DynamicObject}
  {state : UpsertState}

/-- Setting a revision leaves the template fit for its destination. -/
theorem Upserting.withRevision (upserting : Upserting contents copies srcVersion api d template)
    (revision : ObjectRevision) :
    Upserting contents copies srcVersion api d
      (ResourceControllerImpl.withRevision template revision) :=
  ⟨upserting.truthful, upserting.designates, upserting.named, upserting.fields, upserting.fitted⟩

/-- An entry records the revision that was written. -/
theorem synced_truthful {written : DynamicObject}
    (matches_ : (contents d.key written.metadata.revision).Matches (copies srcVersion)
      d.effectiveStrategy) :
    (synced d srcVersion written).Truthful contents copies := by
  intro copy source recorded recorded'
  rw [← Option.some.inj recorded, ← Option.some.inj recorded']
  exact matches_

/-- Writing an object that exists records the truth. -/
theorem updateExisting_truthful {current : DynamicObject}
    (upserting : Upserting contents copies srcVersion api d state.template) :
    (updateExisting api srcVersion current d state).wp
      (.requests (Reported contents) (PersistsTruth contents copies))
      (fun value _ => Upserting contents copies srcVersion api d value.2.1.template ∧
        value.1.Truthful contents copies ∧ value.1.target = d.target ∧
        (value.2.2 = .continue_ → value.1 = d)) () := by
  unfold updateExisting
  dsimp only
  have kept := upserting.withRevision current.metadata.revision
  have fit :
      (ResourceControllerImpl.withRevision state.template current.metadata.revision).fields.fitted =
      (ResourceControllerImpl.withRevision state.template current.metadata.revision).fields := by
    rw [withRevision_fields, upserting.fields, upserting.fitted]
  split
  · cases strategy : d.effectiveStrategy <;> dsimp only <;> rw [wp_api] <;>
      intro _ _ reply after reported
    · refine ⟨trivial, ?_⟩
      cases reply with
      | ok updated =>
        have carried : (contents (api.key d.name) updated.metadata.revision).Carries
            (copies srcVersion) := upserting.fields ▸ reported.2 fit
        refine ⟨kept, synced_truthful ?_, rfl, by rintro ⟨⟩⟩
        rw [upserting.designates] at carried
        rw [strategy]
        exact carried
      | error e =>
        dsimp only
        split
        · exact ⟨kept, upserting.truthful, rfl, fun _ => rfl⟩
        · exact ⟨kept, upserting.truthful, rfl, fun _ => rfl⟩
    · refine ⟨trivial, ?_⟩
      cases reply with
      | ok updated =>
        have equal : contents (api.key d.name) updated.metadata.revision = copies srcVersion :=
          (reported.2 fit).trans upserting.fields
        refine ⟨kept, synced_truthful ?_, rfl, by rintro ⟨⟩⟩
        rw [upserting.designates] at equal
        rw [equal]
        exact .refl _ _
      | error e =>
        dsimp only
        split
        · exact ⟨kept, upserting.truthful, rfl, fun _ => rfl⟩
        · exact ⟨kept, upserting.truthful, rfl, fun _ => rfl⟩
  · exact ⟨⟨upserting.truthful, upserting.designates, upserting.named, upserting.fields,
      upserting.fitted⟩, upserting.truthful, rfl, fun _ => rfl⟩

/-- Creating an object records the truth. -/
theorem createMissing_truthful
    (upserting : Upserting contents copies srcVersion api d state.template) :
    (createMissing api srcVersion d state).wp
      (.requests (Reported contents) (PersistsTruth contents copies))
      (fun value _ => Upserting contents copies srcVersion api d value.2.1.template ∧
        value.1.Truthful contents copies ∧ value.1.target = d.target ∧
        (value.2.2 = .continue_ → value.1 = d)) () := by
  unfold createMissing
  rw [wp_api]
  intro _ _ reply after reported
  refine ⟨trivial, ?_⟩
  cases reply with
  | ok created =>
    have fit : state.template.fields.fitted = state.template.fields := by
      rw [upserting.fields, upserting.fitted]
    have equal : contents (api.key state.template.metadata.nameAny) created.metadata.revision =
        copies srcVersion := (reported.2 fit).trans upserting.fields
    rw [upserting.named, upserting.designates] at equal
    refine ⟨upserting, synced_truthful ?_, rfl, by rintro ⟨⟩⟩
    rw [equal]
    exact .refl _ _
  | error e =>
    dsimp only
    split
    · exact ⟨upserting, upserting.truthful, rfl, fun _ => rfl⟩
    · exact ⟨upserting, upserting.truthful, rfl, fun _ => rfl⟩

/-- An attempt to create or update a copy records the truth. -/
theorem upsertAttempt_truthful
    (upserting : Upserting contents copies srcVersion api d state.template) :
    (upsertAttempt api srcVersion d state).wp
      (.requests (Reported contents) (PersistsTruth contents copies))
      (fun value _ => Upserting contents copies srcVersion api d value.2.1.template ∧
        value.1.Truthful contents copies ∧ value.1.target = d.target ∧
        (value.2.2 = .continue_ → value.1 = d)) () := by
  unfold upsertAttempt
  have reset := upserting.withRevision ⟨none, none⟩
  dsimp only
  rw [wp_api]
  intro _ _ reply after reported
  refine ⟨trivial, ?_⟩
  cases reply with
  | ok current =>
    dsimp only
    split
    · rw [wp_bind]
      refine wp_imp (fun value _ _ => ?_) (wp_reported
        (@requests_removeFinalizer (PersistsTruth contents copies) api current finalizer
          fun _ => trivial))
      split
      · exact ⟨reset, upserting.truthful, rfl, fun _ => rfl⟩
      · exact updateExisting_truthful reset
    · exact updateExisting_truthful reset
  | error e =>
    dsimp only
    split
    · exact createMissing_truthful reset
    · exact ⟨reset, upserting.truthful, rfl, fun _ => rfl⟩

/-- All attempts together record the truth. -/
theorem upsertLoop_truthful (attempts : Nat)
    (upserting : Upserting contents copies srcVersion api d state.template) :
    (upsertLoop api srcVersion attempts d state).wp
      (.requests (Reported contents) (PersistsTruth contents copies))
      (fun value _ => value.1.Truthful contents copies ∧
        value.2.template.fields = copies srcVersion) () := by
  induction attempts generalizing state with
  | zero => exact ⟨upserting.truthful, upserting.fields⟩
  | succ attempts ih =>
    rw [upsertLoop, wp_bind]
    refine wp_imp ?_ (upsertAttempt_truthful upserting)
    rintro ⟨d', state', flow⟩ _ ⟨upserting', truthful, -, same⟩
    cases flow with
    | continue_ =>
      obtain rfl : d' = d := same rfl
      exact ih upserting'
    | break_ => exact ⟨truthful, upserting'.fields⟩

/-- The loop over the destinations records the truth. -/
theorem upsertEach_truthful (self : ResourceControllerImpl)
    (staleRemnants destinations : List DestinationStatus)
    (truthful : ∀ d ∈ destinations, d.Truthful contents copies)
    (designates : ∀ d ∈ destinations, isRemnant staleRemnants d = false →
      (self.namespacedApi d.namespace_).key d.name = d.key)
    (fields : state.template.fields.fitted = copies srcVersion) :
    (self.upsertEach srcVersion staleRemnants destinations state).wp
      (.requests (Reported contents) (PersistsTruth contents copies))
      (fun value _ => ∀ d ∈ value.1, d.Truthful contents copies) () := by
  induction destinations generalizing state with
  | nil => exact fun d member => absurd member List.not_mem_nil
  | cons d rest ih =>
    have further (state' : UpsertState)
        (fields : state'.template.fields.fitted = copies srcVersion) :=
      @ih state' (fun other member => truthful other (List.mem_cons_of_mem _ member))
        (fun other member => designates other (List.mem_cons_of_mem _ member)) fields
    rw [upsertEach]
    split
    · rw [wp_bind]
      refine wp_imp (fun value _ later d' member => ?_) (further state fields)
      rcases List.mem_cons.mp member with rfl | member
      · exact truthful _ List.mem_cons_self
      · exact later d' member
    · rename_i other
      have fitted : (copies srcVersion).fitted = copies srcVersion := by
        rw [← fields]
        rfl
      have upserting : Upserting contents copies srcVersion (self.namespacedApi d.namespace_) d
          (fitTemplate state.template d) :=
        ⟨truthful d List.mem_cons_self,
          designates d List.mem_cons_self (Bool.not_eq_true _ ▸ other),
          rfl, fields, fitted⟩
      rw [wp_bind]
      refine wp_imp ?_ (upsertLoop_truthful 3 upserting)
      intro value _ recorded
      rw [wp_bind]
      refine wp_imp (fun value' _ later d' member => ?_) (further _ (recorded.2 ▸ fitted))
      rcases List.mem_cons.mp member with rfl | member
      · exact recorded.1
      · exact later d' member

variable {event : ObjectSyncModifications} {source : DynamicObject}

/-- Writing a truthful status persists it. -/
theorem replaceStatus_truthful (truthful : event.modified.Truthful contents copies) :
    event.replaceStatus.wp (.requests (Reported contents) (PersistsTruth contents copies))
      (fun value _ => value.1.modified.status = event.modified.status) () := by
  refine wp_imp (fun _ _ written => written.1)
    (wp_reported (event.requests_replaceStatus fun request write => ?_))
  cases write with
  | read => trivial
  | write status =>
    show ObjectSync.Truthful contents copies _
    unfold ObjectSync.Truthful
    rw [ObjectSync.destinationList_eq_of_status status]
    exact truthful

/-- Steps 3 and 4 of `reconcile_source` persist the truth. -/
theorem syncDestinations_truthful (self : ResourceControllerImpl)
    (staleRemnants : List DestinationStatus) (removedCount : Nat)
    (truthful : event.modified.Truthful contents copies)
    (designates : ∀ d ∈ event.modified.destinationList, isRemnant staleRemnants d = false →
      (self.namespacedApi d.namespace_).key d.name = d.key)
    (fields : (sourceTemplate source).fields.fitted = copies source.metadata.revision) :
    (self.syncDestinations event source staleRemnants removedCount).wp
      (.requests (Reported contents) (PersistsTruth contents copies)) (fun _ _ => True) () := by
  unfold syncDestinations
  unfold ObjectSync.Truthful at truthful
  cases tracked : event.modified.statusDestinations with
  | none => trivial
  | some destinations =>
    have listed : event.modified.destinationList = destinations :=
      ObjectSync.destinationList_of_tracked tracked
    rw [listed] at truthful designates
    unfold upsertDestinations
    dsimp only
    rw [wp_bind, wp_bind]
    refine wp_imp (fun value _ recorded => ?_)
      (@upsertEach_truthful _ _ _ ⟨sourceTemplate source, false, 0⟩ self staleRemnants destinations
        truthful designates fields)
    rw [pure_eq, wp_done]
    dsimp only
    split
    · rw [wp_bind]
      refine wp_imp (fun event' _ kept => ?_) (wp_reported
        (@ObjectSyncModifications.requests_updateCondition (PersistsTruth contents copies) _ _
          trivial))
      refine wp_imp (fun _ _ _ => trivial) (replaceStatus_truthful ?_)
      intro d member
      rw [kept.1] at member
      exact recorded d member
    · trivial

/-- A run of `reconcile_source` persists the truth. -/
theorem reconcileSource_truthful (self : ResourceControllerImpl)
    (truthful : event.modified.Truthful contents copies)
    (fields : (sourceTemplate source).fields.fitted = copies source.metadata.revision) :
    (self.reconcileSource event source).wp
      (.requests (Reported contents) (PersistsTruth contents copies)) (fun _ _ => True) () := by
  unfold reconcileSource
  rw [wp_namespaces]
  intro _ _ cache _ _
  refine ⟨trivial, ?_⟩
  generalize targets : expectedDestinations event.modified cache = expected
  have known := self.splitDestinations_truthful expected event.modified.destinationList truthful
  dsimp only
  rw [wp_bind]
  refine wp_imp (fun result _ fewer => ?_) (wp_reported
    (@ObjectSyncer.requests_deleteDestinations (PersistsTruth contents copies) _
      fun d _ request removal => by cases removal <;> trivial))
  cases result with
  | error e => trivial
  | ok staleRemnants =>
    have remnants (d : DestinationStatus) (member : d ∈ staleRemnants) :
        d.Truthful contents copies :=
      truthful d (mem_recorded_of_mem_stale ((fewer staleRemnants rfl).subset member))
    dsimp only
    rw [wp_bind]
    have all : (event.updateDestinations (sortDestinations
        ((self.splitDestinations expected event.modified.destinationList).1 ++
          staleRemnants))).modified.Truthful contents copies := by
      intro d member
      have unsorted := (sortDestinations_perm _).mem_iff.mp member
      exact (List.mem_append.mp unsorted).elim (known d) (remnants d)
    refine wp_imp (fun value _ same => ?_) (replaceStatus_truthful all)
    obtain ⟨event', result⟩ := value
    cases result with
    | error e => trivial
    | ok =>
      have listed := ObjectSync.destinationList_eq_of_status same
      refine self.syncDestinations_truthful staleRemnants _ ?_ ?_ fields
      · intro d member
        rw [listed] at member
        exact all d member
      · intro d member other
        rw [listed] at member
        have wanted := mem_of_not_isRemnant member other
        obtain ⟨target, -, designates⟩ := exists_target_of_mem_expected wanted
        exact namespacedApi_key designates

end Runs

end ResourceControllerImpl

/-- What others do: they leave the recorded destinations of the ObjectSync, or make it anew, and
change everything else at will. -/
def Edits (o : ObjectSyncRef) (before after : Server) : Prop :=
  ∀ sync, after.syncs o.name = some sync → sync.destinationList = [] ∨
    ∃ former, before.syncs o.name = some former ∧ sync.destinationList = former.destinationList

/-- The persisted entries of an ObjectSync are truthful, and revisions determine fields. -/
structure Recorded (contents : Contents) (controller : ResourceControllerImpl) (ref : SourceRef)
    (o : ObjectSyncRef) (server : Server) : Prop where
  determined : server.Determined contents
  truthful : ∀ sync, server.syncs o.name = some sync →
    sync.Truthful contents (contents.template controller ref)

/-- Others act before every call, any request may fail, and revisions determine fields. -/
@[reducible] def recording (contents : Contents) (self : ResourceControllerImpl)
    (ref : SourceRef) (o : ObjectSyncRef) : Contract Call Reply Server where
  rely := fun before after => before = after ∨ (Edits o before after ∧ after.Determined contents)
  answers := fun before call reply after =>
    answersBy (Faulty (some o)) before call reply after ∧ after.Determined contents
  guarantee := fun _ _ _ after => Recorded contents self ref o after

/-- The servers that runs of `reconcile_source` for an ObjectSync lead to. Each run starts on the
current ObjectSync and some revision of the source, and is cut off anywhere. -/
inductive RecordingReachable (contents : Contents) (self : ResourceControllerImpl)
    (ref : SourceRef) (o : ObjectSyncRef) : Server → Prop
  /-- Nothing has been recorded yet. -/
  | start {server : Server} : server.Determined contents →
      (∀ sync, server.syncs o.name = some sync → sync.destinationList = []) →
      RecordingReachable contents self ref o server
  /-- Others act. -/
  | edit {before after : Server} : RecordingReachable contents self ref o before →
      Edits o before after → after.Determined contents →
      RecordingReachable contents self ref o after
  /-- A run of `reconcile_source`. -/
  | run {sync : ObjectSync} {source : DynamicObject} {before after : Server}
      {rest : Async (ObjectSyncModifications × Except ControllerError Unit)} :
      RecordingReachable contents self ref o before → before.syncs o.name = some sync →
      SourceRevision contents self ref source →
      Steps (recording contents self ref o).rely (recording contents self ref o).answers
        (self.reconcileSource (.new sync) source) before rest after →
      RecordingReachable contents self ref o after

section Histories

variable {contents : Contents} {self : ResourceControllerImpl} {ref : SourceRef}
  {o : ObjectSyncRef} {server after : Server}

/-- Edits by others keep the records of an ObjectSync truthful. -/
theorem Recorded.edit (recorded : Recorded contents self ref o server)
    (edits : Edits o server after) (determined : after.Determined contents) :
    Recorded contents self ref o after := by
  refine ⟨determined, fun sync found d member => ?_⟩
  rcases edits sync found with empty | ⟨former, was, same⟩
  · rw [empty] at member
    cases member
  · rw [same] at member
    exact recorded.truthful former was d member

/-- A served write of a fitted body returns a revision of that body. -/
theorem Faulty.reveals {maker : Option ObjectSyncRef} {request : ApiRequest}
    {reply : Except KubeError (ApiValue request)}
    (faulty : Faulty maker server request reply after) (determined : after.Determined contents) :
    Reveals contents (.api request) reply := by
  cases reply with
  | error e => cases request <;> trivial
  | ok value =>
    obtain ⟨choice, served⟩ := faulty.of_ok
    cases request with
    | create api body =>
      intro fit
      simp only [Server.serve] at served
      split at served
      · cases served
      · obtain ⟨same, rfl⟩ := Prod.mk.inj served
        cases same
        have fields := determined _ _ (Function.update_self ..)
        exact fields.symm
    | replace api name body =>
      intro fit
      simp only [Server.serve] at served
      split at served
      · cases served
      · rename_i stored found
        split at served
        · cases served
        · obtain ⟨same, rfl⟩ := Prod.mk.inj served
          cases same
          have listed : body.metadata.finalizers = some [finalizer] := by
            have same := congrArg Fields.finalizers fit
            exact same.symm
          have kept : (server.write (api.key name) (choice.replaced · body)
              fun _ => ⟨rfl, rfl⟩).objects (api.key name) =
              some { stored with object := choice.replaced stored.object body } := by
            rw [Server.write_objects, Function.update_self, found, Option.bind_some]
            unfold Stored.settled
            refine if_neg fun gone => ?_
            have empty := (Bool.and_eq_true_iff.mp gone).2
            simp [ObjectMeta.finalizerList, Choice.replaced, listed] at empty
          exact (determined _ _ kept).symm
    | apply api name body =>
      intro fit
      have listed : body.metadata.finalizers = some [finalizer] := by
        have same := congrArg Fields.finalizers fit
        exact same.symm
      have unowned : body.fields.ownerReferences = none := by
        have same := congrArg Fields.ownerReferences fit
        exact same.symm
      simp only [Server.serve] at served
      split at served
      · split at served
        · cases served
        · obtain ⟨same, rfl⟩ := Prod.mk.inj served
          cases same
          have fields := determined _ _ (Function.update_self ..)
          have carried : body.fields.Carries body.fields := .refl _
          exact fields ▸ carried
      · rename_i stored found
        split at served
        · cases served
        · obtain ⟨same, rfl⟩ := Prod.mk.inj served
          cases same
          have carried := choice.applied_carries stored.object unowned
          have member : finalizer ∈
              (choice.applied stored.object body).metadata.finalizers.getD [] := by
            refine carried.finalizers finalizer ?_
            show finalizer ∈ body.metadata.finalizers.getD []
            rw [listed]
            exact List.mem_singleton.mpr rfl
          have kept : (server.write (api.key name) (choice.applied · body)
              fun _ => ⟨rfl, rfl⟩).objects (api.key name) =
              some { stored with object := choice.applied stored.object body } := by
            rw [Server.write_objects, Function.update_self, found, Option.bind_some]
            unfold Stored.settled
            refine if_neg fun gone => ?_
            exact List.ne_nil_of_mem member
              (List.isEmpty_iff.mp (Bool.and_eq_true_iff.mp gone).2)
          exact determined _ _ kept ▸ carried
    | _ => trivial

/-- A call that persists the truth keeps the records. -/
theorem Recorded.answered (recorded : Recorded contents self ref o server) {call : Call}
    {reply : Reply call}
    (answered : (recording contents self ref o).answers server call reply after)
    (persists : PersistsTruth contents (contents.template self ref) call) :
    Recorded contents self ref o after := by
  obtain ⟨served, determined⟩ := answered
  refine ⟨determined, fun sync found => ?_⟩
  cases call with
  | api request =>
    by_cases target : request.syncTarget = some o.name
    · cases request with
      | replaceSyncStatus name body =>
        obtain rfl : name = o.name := Option.some.inj target
        rcases Faulty.statusWritten served with ⟨rfl, -⟩ | ⟨choice, current, was, -, rfl, -⟩
        · exact recorded.truthful sync found
        · rw [Server.writeSync_syncs, Function.update_self, was, Option.bind_some] at found
          unfold ObjectSync.settled at found
          split at found
          · cases found
          · rw [← Option.some.inj found]
            exact persists
      | jsonPatchSync name patch => exact persists.elim
      | _ => cases target
    · rw [(Faulty.effect served).syncs_eq target] at found
      exact recorded.truthful sync found
  | _ =>
    obtain rfl : after = server := served
    exact recorded.truthful sync found

/-- **Records are truthful.** Wherever the runs stop, and whatever others have edited, every pair of
revisions that the ObjectSync has persisted is truthful. -/
theorem recorded_of_reachable (reachable : RecordingReachable contents self ref o server) :
    Recorded contents self ref o server := by
  induction reachable with
  | start determined empty =>
    refine ⟨determined, fun sync found d member => ?_⟩
    rw [empty sync found] at member
    cases member
  | edit _ edits determined ih => exact ih.edit edits determined
  | @run sync source before after rest _ found revision steps ih =>
    have fields : (ResourceControllerImpl.sourceTemplate source).fields.fitted =
        contents.template self ref source.metadata.revision := by
      rw [ResourceControllerImpl.sourceTemplate_fields, revision.named, revision.fields]
      rfl
    have shape := @ResourceControllerImpl.reconcileSource_truthful contents
      (contents.template self ref) (.new sync) source self (ih.truthful sync found) fields
    have holds := @wp_requests _ _ _ _ (recording contents self ref o) (Reported contents) _
      (Recorded contents self ref o) _ _ _ shape ?_ ?_ ?_ ih
    · exact steps.invariant holds (fun _ _ _ _ guaranteed => guaranteed) ih
    · intro world call reply after answered
      refine ⟨answersBy_faulty_honest answered.1, ?_⟩
      cases call with
      | api request => exact Faulty.reveals answered.1 answered.2
      | _ => trivial
    · rintro world moved recorded (rfl | ⟨edits, determined⟩)
      · exact recorded
      · exact recorded.edit edits determined
    · intro world call reply after recorded persists answered
      have next := recorded.answered answered persists
      exact ⟨next, next⟩

end Histories

end ObjectSyncer
