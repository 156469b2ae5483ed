import ObjectSyncer.Server

/-!
# The source of an ObjectSync

Expected destinations exclude the source, recorded ones do not: a recorded destination may be what
the specification now designates as the source. It then is stale, and is released and deleted.
-/
namespace ObjectSyncer

open Interaction Interaction.Program

/-- Honest replies, where the namespace cache holds the given namespaces. -/
def Responds (cache : List Namespace) : (call : Call) → Reply call → Prop
  | .namespaces, namespaces => namespaces = cache
  | .api request, reply => Honest (.api request) reply
  | _, _ => True

/-- A call that neither writes nor deletes the object. -/
def Elsewhere (object : ObjectKey) : Call → Prop
  | .api request => request.target ≠ some object
  | _ => True

/-- In no execution with these replies a request writes or deletes the object. -/
def Spares {α : Type} (cache : List Namespace) (program : Async α) (object : ObjectKey) : Prop :=
  ∀ request, program.Issues (fun _ _ => True) (fun _ call reply _ => Responds cache call reply) ()
    (.api request) → request.target ≠ some object

/-- No recorded destination is the object that the specification designates as the source. -/
def SourceUntracked (sync : ObjectSync) : Prop :=
  ∀ d ∈ sync.destinationList, d.key ≠ sync.sourceKey

/-- Every call has an honest reply. -/
theorem exists_responds (cache : List Namespace) (call : Call) :
    ∃ reply, Responds cache call reply := by
  cases call with
  | api request =>
    refine ⟨.error (.other ""), ?_⟩
    cases request <;> trivial
  | memory op => exact ⟨op.idleReply, trivial⟩
  | namespaces => exact ⟨cache, rfl⟩
  | clock => exact ⟨"", trivial⟩

/-- What is allowed for honest replies is allowed for those with a given namespace cache. -/
theorem wp_responds {α : Type} {cache : List Namespace} {allowed : Call → Prop}
    {program : Async α} {post : α → Unit → Prop}
    (shape : program.wp (.requests Honest allowed) post ()) :
    program.wp (.requests (Responds cache) allowed) post () := by
  refine wp_mono ?_ ?_ ?_ ?_ shape
  · exact fun _ _ _ => trivial
  · intro _ call reply _ answered
    cases call with
    | api request => exact answered
    | _ => trivial
  · exact fun _ _ _ _ _ => id
  · exact fun _ _ => id

/-- What a program issues is allowed. -/
theorem allowed_of_issues {α : Type} {cache : List Namespace} {allowed : Call → Prop}
    {program : Async α} {post : α → Unit → Prop} {call : Call}
    (shape : program.wp (.requests (Responds cache) allowed) post ())
    (issued : program.Issues (fun _ _ => True) (fun _ call reply _ => Responds cache call reply) ()
      call) : allowed call := by
  obtain ⟨_, _, _, permitted⟩ := Issues.guaranteed issued (fun _ => trivial)
    (fun _ call => (exists_responds cache call).imp fun _ responds => ⟨(), responds⟩) shape
  exact permitted

/-- A program that is only allowed other targets spares an object. -/
theorem spares_of_requests {α : Type} {cache : List Namespace} {program : Async α}
    {object : ObjectKey} {post : α → Unit → Prop}
    (shape : program.wp (.requests Honest (Elsewhere object)) post ()) :
    Spares cache program object := by
  intro request issued
  exact allowed_of_issues (wp_responds shape) issued

/-- A removal writes no object but that of its destination. -/
theorem DestinationStatus.Removal.elsewhere {d : DestinationStatus} {request : ApiRequest}
    {object : ObjectKey} (removal : d.Removal request) (other : d.key ≠ object) :
    Elsewhere object (.api request) := by
  cases removal with
  | get => nofun
  | release patch => exact fun same => other (Option.some.inj same)
  | delete => exact fun same => other (Option.some.inj same)

/-- An upsert writes no object but that of its name. -/
theorem Upsert.elsewhere {api : DynamicApi} {name : String} {request : ApiRequest}
    {object : ObjectKey} (upsert : Upsert api name request) (other : api.key name ≠ object) :
    Elsewhere object (.api request) := by
  cases upsert with
  | get => nofun
  | release patch => exact fun same => other (Option.some.inj same)
  | create named => exact fun same => other (named ▸ Option.some.inj same)
  | replace body => exact fun same => other (Option.some.inj same)
  | apply body => exact fun same => other (Option.some.inj same)

/-- Reading and writing a status writes no object. -/
theorem ObjectSyncModifications.StatusWrite.elsewhere {event : ObjectSyncModifications}
    {request : ApiRequest} {object : ObjectKey} (write : event.StatusWrite request) :
    Elsewhere object (.api request) := by
  cases write <;> nofun

/-- Deleting a list of destinations may come to the deletion of each of them. -/
theorem issues_deleteDestinations {cache : List Namespace} {destinations : List DestinationStatus}
    {d : DestinationStatus} (member : d ∈ destinations) :
    (deleteDestinations destinations).Issues (fun _ _ => True)
      (fun _ call reply _ => Responds cache call reply) () (.api (.delete d.api d.name)) := by
  induction destinations with
  | nil => contradiction
  | cons first rest ih =>
    -- The object is not found, so that its deletion is next.
    refine Issues.after () () (.error (.api 404 "")) ?_ trivial trivial
    rcases List.mem_cons.mp member with rfl | later
    · exact issues_call
    · exact Issues.after () () (.ok ()) (Issues.bind (ih later) _) trivial trivial

namespace ResourceControllerImpl

/-- No destination that is expected is the source. -/
theorem expectedDestinations_ne_source {sync : ObjectSync} {cache : List Namespace}
    {target : String × String × Option SyncStrategy}
    (expected : target ∈ expectedDestinations sync cache) :
    ¬(target.2.1 = sync.sourceName ∧ target.1 = sync.sourceNamespace.getD "") := by
  obtain ⟨d, -, member⟩ := List.mem_flatMap.mp expected
  unfold expand at member
  split at member
  · obtain ⟨ns, -, found⟩ := List.mem_filterMap.mp member
    split at found
    · obtain ⟨pair, applies, rfl⟩ := Option.map_eq_some_iff.mp found
      exact (Destination.appliesTo_spec applies).2
    · contradiction
  · split at member
    · contradiction
    · rename_i applies
      split at member
      · split at member
        · obtain rfl := List.mem_singleton.mp member
          exact (Destination.appliesTo_spec applies).2
        · contradiction
      · contradiction

/-- No destination that is expected has the name and the namespace of the source, whatever the kind
of the controller. -/
theorem expectedStatus_ne_source {self : ResourceControllerImpl} {sync : ObjectSync}
    {cache : List Namespace} {target : String × String × Option SyncStrategy}
    (expected : target ∈ expectedDestinations sync cache) {object : ObjectKey}
    (name : object.name = sync.sourceName)
    (namespace_ : object.namespace_ = sync.sourceNamespace.getD "") :
    (self.expectedStatus target).key ≠ object := by
  rintro rfl
  exact expectedDestinations_ne_source expected ⟨name, namespace_⟩

/-- With no recorded destination at an object of the name and the namespace of the source, a run of
`reconcile_source` writes and deletes other objects only. -/
theorem requests_reconcileSource_elsewhere {self : ResourceControllerImpl}
    {event : ObjectSyncModifications} {source : DynamicObject} {object : ObjectKey}
    (name : object.name = event.modified.sourceName)
    (namespace_ : object.namespace_ = event.modified.sourceNamespace.getD "")
    (untracked : ∀ d ∈ event.modified.destinationList, d.key ≠ object) :
    (self.reconcileSource event source).wp (.requests Honest (Elsewhere object)) (fun _ _ => True)
      () := by
  unfold reconcileSource
  rw [wp_namespaces]
  intro _ _ cache' _ _
  refine ⟨trivial, ?_⟩
  dsimp only
  have designates := fun d => @exists_target_of_mem_expected self
    (expectedDestinations event.modified cache') event.modified.destinationList d
  have recorded := fun d => @mem_recorded_of_mem_stale self
    (expectedDestinations event.modified cache') event.modified.destinationList d
  generalize self.splitDestinations (expectedDestinations event.modified cache')
    event.modified.destinationList = split at designates recorded ⊢
  obtain ⟨expected, stale⟩ := split
  dsimp only at designates recorded ⊢
  rw [wp_bind]
  refine wp_imp (fun result _ sublist => ?_) (requests_deleteDestinations stale
    fun d member request removal => removal.elsewhere (untracked d (recorded d member)))
  cases result with
  | error e => trivial
  | ok staleRemnants =>
    dsimp only
    rw [wp_bind]
    refine wp_imp (fun value _ echoed => ?_)
      (ObjectSyncModifications.requests_replaceStatus _ fun request write => write.elsewhere)
    obtain ⟨event', result⟩ := value
    cases result with
    | error e => trivial
    | ok =>
      refine self.requests_syncDestinations event' source staleRemnants _ ?_ trivial
        fun _ _ request write => write.elsewhere
      -- The entries tracked now are the expected ones and the remnants.
      intro d member current request upsert
      refine upsert.elsewhere fun same => ?_
      rw [ObjectSync.destinationList_eq_of_status echoed.1] at member
      obtain ⟨target, wanted, designates⟩ := designates d (mem_of_not_isRemnant member current)
      have other := @expectedStatus_ne_source self _ _ _ wanted _ name namespace_
      rw [designates, DestinationStatus.target_key, ← namespacedApi_key designates] at other
      exact other same

/-- With no recorded destination at the source, a run of `reconcile_source` spares the source. -/
theorem spares_reconcileSource {self : ResourceControllerImpl} {event : ObjectSyncModifications}
    {source : DynamicObject} {cache : List Namespace} (untracked : SourceUntracked event.modified) :
    Spares cache (self.reconcileSource event source) event.modified.sourceKey :=
  spares_of_requests (requests_reconcileSource_elsewhere rfl rfl untracked)

/-- When the runs of `reconcile_source` spare the source, no recorded destination is the source. -/
theorem untracked_of_spares_reconcileSource {self : ResourceControllerImpl}
    {event : ObjectSyncModifications} {source : DynamicObject} {cache : List Namespace}
    (spares : Spares cache (self.reconcileSource event source) event.modified.sourceKey) :
    SourceUntracked event.modified := by
  intro d recorded same
  refine spares (.delete d.api d.name) ?_ (congrArg some same)
  unfold reconcileSource
  refine Issues.after () () cache ?_ trivial rfl
  have stale : d ∈ (self.splitDestinations (expectedDestinations event.modified cache)
      event.modified.destinationList).2 := by
    rw [splitDestinations_stale, List.mem_filter]
    refine ⟨recorded, List.all_eq_true.mpr fun target wanted => ?_⟩
    rw [decide_eq_true_eq, same]
    exact (expectedStatus_ne_source wanted rfl rfl).symm
  exact Issues.bind (issues_deleteDestinations stale) _

end ResourceControllerImpl

namespace ObjectSyncController

/-- With no recorded destination at the source, the branch of `check` for a changed source spares
the source. -/
theorem spares_moveSource {event : ObjectSyncModifications} {currentGvk : GroupVersionKind}
    {cache : List Namespace} (untracked : SourceUntracked event.modified) :
    Spares cache (moveSource event currentGvk) event.modified.sourceKey := by
  refine @spares_of_requests _ _ _ _ (fun _ _ => True) ?_
  exact requests_moveSource event currentGvk (fun _ => trivial)
    (fun d member request removal => removal.elsewhere (untracked d member)) trivial
    fun _ _ request write => write.elsewhere

/-- When the branch of `check` for a changed source spares the source, no recorded destination is
the source. -/
theorem untracked_of_spares_moveSource {event : ObjectSyncModifications}
    {currentGvk : GroupVersionKind} {cache : List Namespace}
    (spares : Spares cache (moveSource event currentGvk) event.modified.sourceKey) :
    SourceUntracked event.modified := by
  intro d recorded same
  refine spares (.delete d.api d.name) ?_ (congrArg some same)
  unfold moveSource remove
  refine Issues.after () () none ?_ trivial trivial
  refine @Issues.bind _ _ _ _ _ _ _ (deleteDestinations event) _ _ ?_ _
  unfold deleteDestinations
  cases tracked : event.modified.statusDestinations with
  | none => simp [ObjectSync.destinationList, tracked] at recorded
  | some destinations =>
    have listed : event.modified.destinationList = destinations :=
      ObjectSync.destinationList_of_tracked tracked
    exact Issues.bind (issues_deleteDestinations (listed ▸ recorded)) _

end ObjectSyncController

open ResourceControllerImpl ObjectSyncController in
/-- **The source is spared.** Whatever the namespace cache and the replies, neither a run of
`reconcile_source` nor the branch of `check` for a changed source writes or deletes the object that
the specification designates as the source, if and only if no recorded destination is that
object. -/
theorem spares_source_iff (self : ResourceControllerImpl) (event : ObjectSyncModifications)
    (source : DynamicObject) (currentGvk : GroupVersionKind) (cache : List Namespace) :
    (Spares cache (self.reconcileSource event source) event.modified.sourceKey ↔
      SourceUntracked event.modified) ∧
    (Spares cache (moveSource event currentGvk) event.modified.sourceKey ↔
      SourceUntracked event.modified) :=
  ⟨⟨untracked_of_spares_reconcileSource, spares_reconcileSource⟩,
    ⟨untracked_of_spares_moveSource, spares_moveSource⟩⟩

/-- An ObjectSync whose source was moved onto one of its own copies. -/
def movedOntoCopy : ObjectSync where
  metadata := { name := some "settings", namespace_ := some "default" }
  spec := ⟨⟨"", none, "ConfigMap", "settings", some "team"⟩, [⟨none, "*", none⟩]⟩
  status := some ⟨none, some [⟨"settings", "team", "", "v1", "ConfigMap", none, none, none⟩]⟩

/-- The controller deletes the new source of that ObjectSync, as a stale copy of the old one. -/
theorem movedOntoCopy_not_spared :
    (¬∀ (self : ResourceControllerImpl) (source : DynamicObject) (cache : List Namespace),
      Spares cache (self.reconcileSource (.new movedOntoCopy) source) movedOntoCopy.sourceKey) ∧
    ¬∀ (currentGvk : GroupVersionKind) (cache : List Namespace),
      Spares cache (ObjectSyncController.moveSource (.new movedOntoCopy) currentGvk)
        movedOntoCopy.sourceKey := by
  have tracked : ¬SourceUntracked movedOntoCopy :=
    fun untracked => untracked _ List.mem_cons_self rfl
  constructor
  · intro spares
    exact tracked (@ResourceControllerImpl.untracked_of_spares_reconcileSource _
      (.new movedOntoCopy) _ _ (spares ⟨⟨none, none, none⟩, ⟨"", "v1", "ConfigMap"⟩, 0⟩
        ⟨none, {}, []⟩ []))
  · intro spares
    exact tracked (@ObjectSyncController.untracked_of_spares_moveSource (.new movedOntoCopy) _ _
      (spares ⟨"", "v1", "ConfigMap"⟩ []))

end ObjectSyncer
