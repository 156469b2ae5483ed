import ObjectSyncer.Authorization
import ObjectSyncer.Coexistence
import ObjectSyncer.DestinationWatch
import ObjectSyncer.Teardown

/-!
# Authorized runs

Whatever a run of either controller asks the API server for, the roles of the chart grant it, as
long as sources and destinations lie where the values of the chart allow them.
-/
namespace ObjectSyncer

open Access Interaction Interaction.Program

/-- An object to which the finalizer is still to be added exists under its name. -/
def ResourceControllerImpl.StillThere (self : ResourceControllerImpl) (present : ObjectKey → Bool)
    (object : DynamicObject) : Prop :=
  finalizer ∉ object.metadata.finalizerList → ∃ name, object.metadata.name = some name ∧
    present ((self.namespacedApi (object.metadata.namespace_.getD "")).key name) = true

namespace Values

/-- A call that is granted, if it is a request to the API server. -/
def Admits (values : Values) (plural : GroupVersionKind → String) (present : ObjectKey → Bool) :
    Call → Prop
  | .api request => ∀ asked ∈ request.access plural present, values.Granted asked
  | _ => True

/-- An ObjectSync stays within the values: its source may be read, its destinations may be written.
-/
structure Permits (values : Values) (plural : GroupVersionKind → String) (cache : List Namespace)
    (sync : ObjectSync) : Prop where
  kind : ∀ gvk : GroupVersionKind, gvk.group = sync.spec.source.group →
    gvk.kind = sync.spec.source.kind → values.Allows (gvk.resource plural)
  source : Reaches values.sourceNamespaces (some (sync.sourceNamespace.getD "")) ∨
    Reaches values.targetNamespaces (some (sync.sourceNamespace.getD ""))
  tracked : ∀ d ∈ sync.destinationList, values.Allows (d.api.resource.resource plural) ∧
    Reaches values.targetNamespaces (some d.namespace_)
  expected : ∀ target ∈ ResourceControllerImpl.expectedDestinations sync cache,
    Reaches values.targetNamespaces (some target.1)

/-- What is known of a value that the API server returns: ObjectSyncs stay within the values, and a
group has its own resources. -/
def Returned (values : Values) (plural : GroupVersionKind → String) (cache : List Namespace) :
    (request : ApiRequest) → ApiValue request → Prop
  | .getSync _, sync | .getSyncStatus _, sync | .replaceSyncStatus _ _, sync |
    .jsonPatchSync _ _, sync => values.Permits plural cache sync
  | .discoverGroup group, found => ∀ r ∈ found.recommendedResources, r.1.group = group
  | _, _ => True

/-- What is known of a reply: it is honest and stays within the values, the namespaces are those of
the cache, and ObjectSyncs were registered from watched namespaces. -/
def Provides (values : Values) (plural : GroupVersionKind → String) (cache : List Namespace) :
    (call : Call) → Reply call → Prop
  | .api request, reply => Honest (.api request) reply ∧
    ∀ value, reply = .ok value → values.Returned plural cache request value
  | .memory (.lookup _ _), refs => ∀ names, refs = some names → ∀ r ∈ names,
    Reaches values.watchRoleNamespaces (some r.name.namespace_)
  | .namespaces, namespaces => namespaces = cache
  | _, _ => True

/-- The roles grant every request, and what is known of the replies. -/
@[reducible] def granting (values : Values) (plural : GroupVersionKind → String)
    (present : ObjectKey → Bool) (cache : List Namespace) : Contract Call Reply Unit :=
  .requests (values.Provides plural cache) (values.Admits plural present)

section Replies

variable {values : Values} {plural : GroupVersionKind → String} {present : ObjectKey → Bool}
  {cache : List Namespace}

/-- What is known of a reply includes what every run knows. -/
theorem Provides.informed {call : Call} {reply : Reply call}
    (provided : values.Provides plural cache call reply) : Informed cache call reply := by
  cases call with
  | api request => exact ⟨provided.1, trivial⟩
  | namespaces => exact ⟨trivial, provided⟩
  | _ => exact ⟨trivial, trivial⟩

/-- Every call has a reply of which this is known: the API server fails. -/
theorem exists_provides (call : Call) : ∃ reply, values.Provides plural cache call reply := by
  cases call with
  | api request =>
    refine ⟨.error (.other ""), ?_, ?_⟩
    · cases request <;> trivial
    · intro value same
      cases same
  | memory op =>
    refine ⟨op.idleReply, ?_⟩
    cases op with
    | lookup controller src =>
      intro names same
      cases same
    | _ => trivial
  | namespaces => exact ⟨cache, rfl⟩
  | clock => exact ⟨"", trivial⟩

/-- What is known of the requests of a program in company holds here. -/
theorem wp_provided {α : Type} {program : Async α} {allowed : Call → Prop} {post : α → Unit → Prop}
    (shape : program.wp (.requests (Informed cache) allowed) post ()) :
    program.wp (.requests (values.Provides plural cache) allowed) post () := by
  refine wp_mono ?_ ?_ ?_ ?_ shape
  · exact fun _ _ _ => trivial
  · exact fun _ _ _ _ provided => provided.informed
  · exact fun _ _ _ _ _ => id
  · exact fun _ _ => id

/-- An ObjectSync of the same specification that tracks no more stays within the values. -/
theorem Permits.mono {sync sync' : ObjectSync} (permits : values.Permits plural cache sync)
    (spec : sync'.spec = sync.spec)
    (namespace_ : sync'.metadata.namespace_ = sync.metadata.namespace_)
    (fewer : ∀ d ∈ sync'.destinationList, d ∈ sync.destinationList) :
    values.Permits plural cache sync' where
  kind := by
    rw [spec]
    exact permits.kind
  source := by
    have same : sync'.sourceNamespace = sync.sourceNamespace := by
      simp only [ObjectSync.sourceNamespace, spec, namespace_]
    rw [same]
    exact permits.source
  tracked d member := permits.tracked d (fewer d member)
  expected := by
    rw [ResourceControllerImpl.expectedDestinations_congr spec namespace_]
    exact permits.expected

/-- A request that asks for one thing is granted along with it. -/
theorem admits_of_single {request : ApiRequest} {asked : Attributes}
    (single : request.access plural present = [asked]) (granted : values.Granted asked) :
    values.Admits plural present (.api request) := by
  intro asked' member
  rw [single] at member
  rw [List.mem_singleton.mp member]
  exact granted

/-- The removal of a destination within the values is granted. -/
theorem admits_removal (created : values.serviceAccountCreate = true) {d : DestinationStatus}
    {request : ApiRequest}
    (within : values.Allows (d.api.resource.resource plural) ∧
      Reaches values.targetNamespaces (some d.namespace_))
    (removal : d.Removal request) : values.Admits plural present (.api request) := by
  cases removal <;> exact admits_of_single rfl (granted_target created within.1 within.2)

/-- The creation and the update of a destination within the values are granted. -/
theorem admits_upsert (created : values.serviceAccountCreate = true) {target : DynamicApi}
    {name : String} {request : ApiRequest}
    (allows : values.Allows (target.resource.resource plural))
    (reaches : Reaches values.targetNamespaces (some target.namespace_))
    (upsert : Upsert target name request) : values.Admits plural present (.api request) := by
  have granted (verb : Verb) :
      values.Granted ⟨verb, target.resource.resource plural, some target.namespace_⟩ :=
    granted_target created allows reaches
  cases upsert with
  | get => exact admits_of_single rfl (granted .get)
  | release patch => exact admits_of_single rfl (granted .patch)
  | create named => exact admits_of_single rfl (granted .create)
  | replace body => exact admits_of_single rfl (granted .update)
  | apply body =>
    -- The target roles cover the creation of a copy that has vanished.
    intro asked asks
    rcases ApiRequest.access_apply asks with rfl | ⟨-, rfl⟩
    · exact granted .patch
    · exact granted .create

/-- A source within the values may be read and patched. -/
theorem granted_object (created : values.serviceAccountCreate = true) {resource : Resource}
    {verb : Verb} {ns : String} (verbs : verb = .get ∨ verb = .patch)
    (allows : values.Allows resource)
    (reaches : Reaches values.sourceNamespaces (some ns) ∨
      Reaches values.targetNamespaces (some ns)) :
    values.Granted ⟨verb, resource, some ns⟩ := by
  have listed : verb ∈ sourceVerbs := by rcases verbs with rfl | rfl <;> decide
  rcases reaches with source | target
  · exact granted_source created allows listed source
  · exact granted_target created allows target

/-- Reading and writing the status of a watched ObjectSync is granted. -/
theorem admits_statusWrite (created : values.serviceAccountCreate = true)
    {event : ObjectSyncModifications} {request : ApiRequest}
    (watched : Reaches values.watchRoleNamespaces (some event.address.namespace_))
    (write : event.StatusWrite request) : values.Admits plural present (.api request) := by
  cases write <;> exact admits_of_single rfl (granted_sync created (.inr rfl) watched)

end Replies

/-- A run is entitled to its requests: its ObjectSync is watched, and stays within the values. -/
structure Entitles (values : Values) (plural : GroupVersionKind → String) (cache : List Namespace)
    (event : ObjectSyncModifications) : Prop where
  permits : values.Permits plural cache event.modified
  watched : Reaches values.watchRoleNamespaces (some event.address.namespace_)

section Syncs

variable {values : Values} {plural : GroupVersionKind → String} {present : ObjectKey → Bool}
  {cache : List Namespace}
  {event : ObjectSyncModifications}

/-- A change of neither the specification nor the namespace that tracks no more leaves a run
entitled. -/
theorem Entitles.modify (entitled : values.Entitles plural cache event)
    {change : ObjectSync → ObjectSync} (spec : (change event.modified).spec = event.modified.spec)
    (namespace_ : (change event.modified).metadata.namespace_ = event.modified.metadata.namespace_)
    (fewer : ∀ d ∈ (change event.modified).destinationList, d ∈ event.modified.destinationList) :
    values.Entitles plural cache (event.modify change) :=
  ⟨entitled.permits.mono spec namespace_ fewer, entitled.watched⟩

/-- What the API server returns for an ObjectSync leaves a run entitled. -/
theorem Entitles.returned (entitled : values.Entitles plural cache event) {sync : ObjectSync}
    (same : ObjectSyncRef.ofSync sync = ⟨event.address⟩)
    (permits : values.Permits plural cache sync) : values.Entitles plural cache ⟨sync, sync⟩ := by
  have address : (⟨sync, sync⟩ : ObjectSyncModifications).address = event.address :=
    congrArg ObjectSyncRef.name same
  refine ⟨permits, ?_⟩
  rw [address]
  exact entitled.watched

/-- The requests that replace the status of a watched ObjectSync are granted to an entitled run. -/
theorem wp_replaceStatus_entitled (created : values.serviceAccountCreate = true)
    (entitled : values.Entitles plural cache event) :
    event.replaceStatus.wp (values.granting plural present cache)
      (fun value _ => values.Entitles plural cache value.1) () := by
  unfold ObjectSyncModifications.replaceStatus
  split
  · unfold ObjectSyncModifications.latest
    rw [wp_api]
    intro _ _ reply _ _
    refine ⟨admits_statusWrite created entitled.watched .read, ?_⟩
    cases reply with
    | error e => exact entitled
    | ok latest =>
      dsimp only
      rw [wp_bind]
      unfold ObjectSyncModifications.replaceStatusWith
      dsimp only
      rw [wp_api]
      intro _ _ reply after answered
      refine ⟨admits_statusWrite created entitled.watched (.write rfl), ?_⟩
      cases reply with
      | error e =>
        exact @Entitles.modify _ _ _ _ entitled (·.withResourceVersion _) rfl rfl fun _ => id
      | ok written => exact entitled.returned answered.1.1 (answered.2 written rfl)
  · exact entitled

/-- The requests that patch a watched ObjectSync are granted to an entitled run. -/
theorem wp_patchSpec_entitled (created : values.serviceAccountCreate = true)
    (entitled : values.Entitles plural cache event) :
    event.patchSpec.wp (values.granting plural present cache)
      (fun value _ => values.Entitles plural cache value.1) () := by
  have granted (verb : Verb) :
      values.Granted ⟨verb, ⟨"sync.rustrial.org", "objectsyncs", ""⟩,
        some event.address.namespace_⟩ :=
    granted_sync created (.inl rfl) entitled.watched
  unfold ObjectSyncModifications.patchSpec
  split
  · unfold ObjectSyncModifications.patchSpecNow
    rw [wp_api]
    intro _ _ reply _ _
    constructor
    · exact admits_of_single rfl (granted .get)
    · cases reply with
      | error e => exact entitled
      | ok latest =>
        dsimp only
        split
        · exact entitled
        · rw [wp_api]
          intro _ _ reply after answered
          constructor
          · exact admits_of_single rfl (granted .patch)
          · cases reply with
            | error e => exact entitled
            | ok patched => exact entitled.returned answered.1 (answered.2 patched rfl)
  · exact entitled

/-- Updating a condition reads the clock. -/
theorem wp_updateCondition_entitled (entitled : values.Entitles plural cache event)
    (condition : Condition) :
    (event.updateCondition condition).wp (values.granting plural present cache)
      (fun event' _ => values.Entitles plural cache event' ∧
        event'.modified.destinationList = event.modified.destinationList) () := by
  unfold ObjectSyncModifications.updateCondition
  rw [wp_clock]
  intro _ _ time _ _
  have kept := ObjectSync.updateCondition_destinationList event.modified time condition
  refine ⟨trivial, entitled.modify rfl rfl ?_, kept⟩
  intro d member
  rw [kept] at member
  exact member

/-- The requests that publish a condition are granted to an entitled run. -/
theorem wp_publish_entitled (created : values.serviceAccountCreate = true)
    (entitled : values.Entitles plural cache event) (condition : Condition) :
    (ObjectSyncController.publish event condition).wp (values.granting plural present cache)
      (fun value _ => values.Entitles plural cache value.1) () := by
  unfold ObjectSyncController.publish
  rw [wp_bind]
  refine wp_imp (fun event' _ kept => ?_) (wp_updateCondition_entitled entitled condition)
  exact wp_replaceStatus_entitled created kept.1

/-- The requests that delete the tracked destinations are granted to an entitled run. -/
theorem wp_deleteDestinations_entitled (created : values.serviceAccountCreate = true)
    (entitled : values.Entitles plural cache event) :
    (ObjectSyncController.deleteDestinations event).wp (values.granting plural present cache)
      (fun value _ => values.Entitles plural cache value.1) () := by
  unfold ObjectSyncController.deleteDestinations
  cases tracked : event.modified.statusDestinations with
  | none => exact entitled
  | some destinations =>
    have listed : event.modified.destinationList = destinations :=
      ObjectSync.destinationList_of_tracked tracked
    have removals (d : DestinationStatus) (member : d ∈ destinations) (request : ApiRequest)
        (removal : d.Removal request) : values.Admits plural present (.api request) :=
      admits_removal created (entitled.permits.tracked d (listed ▸ member)) removal
    dsimp only
    rw [wp_bind]
    refine wp_imp (fun result _ fewer => ?_)
      (wp_provided (wp_informed (requests_deleteDestinations destinations removals)))
    cases result with
    | error e => exact entitled
    | ok remaining =>
      dsimp only
      rw [wp_bind]
      refine wp_imp (fun event' _ kept => ?_) (wp_updateCondition_entitled entitled _)
      have within : values.Entitles plural cache (event'.updateDestinations remaining) := by
        apply kept.1.modify rfl rfl
        intro d member
        rw [kept.2, listed]
        exact (fewer remaining rfl).subset member
      rw [wp_bind]
      refine wp_imp (fun value _ entitled' => ?_) (wp_replaceStatus_entitled created within)
      obtain ⟨event'', result⟩ := value
      cases result with
      | error e => exact entitled'
      | ok =>
        dsimp only
        split <;> exact entitled'

/-- The kind of a source that is discovered is the one that was asked for. -/
theorem wp_getGvk_entitled (source : SourceObject) :
    (ObjectSyncController.getGvk source).wp (values.granting plural present cache)
      (fun result _ => ∀ gvk, result = .ok gvk → gvk.group = source.group ∧ gvk.kind = source.kind)
      () := by
  have picks {apigroup : ApiGroup} {resource : GroupVersionKind × Scope}
      (picked : ObjectSyncController.findApiResource source apigroup = .ok resource) :
      resource ∈ apigroup.recommendedResources ∧ resource.1.kind = source.kind := by
    unfold ObjectSyncController.findApiResource ApiGroup.recommendedKind at picked
    split at picked
    · split at picked
      · rename_i found
        cases picked
        have passes := List.find?_some found
        rw [Bool.and_eq_true] at passes
        exact ⟨List.mem_of_find?_eq_some found, eq_of_beq passes.1⟩
      · cases picked
    · split at picked
      · rename_i found
        cases picked
        have same := @List.find?_some _
          (fun resource : GroupVersionKind × Scope => resource.1.kind == source.kind) _ _ found
        exact ⟨List.mem_of_find?_eq_some found, eq_of_beq same⟩
      · cases picked
  unfold ObjectSyncController.getGvk
  rw [wp_api]
  intro _ _ reply _ answered
  constructor
  · intro asked asks
    cases asks
  · cases reply with
    | ok apigroup =>
      have listed := answered.2 apigroup rfl
      intro gvk found
      cases picked : ObjectSyncController.findApiResource source apigroup with
      | error e =>
        rw [picked] at found
        cases found
      | ok resource =>
        have spec := picks picked
        rw [picked] at found
        obtain ⟨kind, scope⟩ := resource
        cases scope with
        | cluster => cases found
        | namespaced =>
          cases found
          exact ⟨listed _ spec.1, spec.2⟩
    | error e => cases e <;> intro gvk same <;> cases same

/-- The requests that release the source are granted to an entitled run. -/
theorem wp_releaseSource_entitled (created : values.serviceAccountCreate = true)
    (entitled : values.Entitles plural cache event) :
    (ObjectSyncController.releaseSource event).wp (values.granting plural present cache)
      (fun _ _ => True) () := by
  unfold ObjectSyncController.releaseSource
  rw [wp_bind]
  refine wp_imp (fun result _ discovered => ?_) (wp_getGvk_entitled event.modified.spec.source)
  split
  · rename_i gvk
    have kind := discovered gvk rfl
    have granted (verb : Verb) (verbs : verb = .get ∨ verb = .patch) :
        values.Granted ⟨verb, gvk.resource plural, some (event.modified.sourceNamespace.getD "")⟩ :=
      granted_object created verbs (entitled.permits.kind gvk kind.1 kind.2) entitled.permits.source
    dsimp only
    rw [wp_api]
    intro _ _ reply _ _
    constructor
    · exact admits_of_single rfl (granted .get (.inl rfl))
    · cases reply with
      | ok source =>
        have releases := @requests_removeFinalizer (values.Admits plural present)
          ⟨gvk, event.modified.sourceNamespace.getD ""⟩ (ensureGvk source gvk) finalizer
          (fun _ => admits_of_single rfl (granted .patch (.inr rfl)))
        dsimp only
        rw [wp_bind]
        exact wp_imp (fun _ _ _ => trivial) (wp_provided (wp_informed releases))
      | error e =>
        dsimp only
        split <;> trivial
  · trivial
  · trivial

/-- The requests that delete an ObjectSync are granted to an entitled run. -/
theorem wp_delete_entitled (created : values.serviceAccountCreate = true)
    (entitled : values.Entitles plural cache event) :
    (ObjectSyncController.delete event).wp (values.granting plural present cache)
      (fun _ _ => True) () := by
  unfold ObjectSyncController.delete ObjectSyncController.remove
  rw [wp_memory]
  intro _ _ removed _ _
  refine ⟨trivial, ?_⟩
  rw [wp_bind]
  refine wp_imp (fun value _ entitled' => ?_) (wp_deleteDestinations_entitled created entitled)
  obtain ⟨event', result⟩ := value
  cases result with
  | error e => trivial
  | ok =>
    dsimp only
    rw [wp_bind]
    refine wp_imp (fun result _ _ => ?_) (wp_releaseSource_entitled created entitled')
    cases result with
    | error e => trivial
    | ok =>
      dsimp only
      rw [wp_bind]
      unfold ObjectSyncController.removeFinalizer
      dsimp only
      split
      · have within : values.Entitles plural cache (ObjectSyncController.setFinalizers event'
            (event'.modified.metadata.finalizerList.filter (· != finalizer))) :=
          entitled'.modify rfl rfl fun _ => id
        rw [wp_bind]
        exact wp_imp (fun _ _ _ => trivial) (wp_patchSpec_entitled created within)
      · trivial

/-- The requests that move an ObjectSync to another resource controller are granted to an entitled
run. -/
theorem wp_moveSource_entitled (created : values.serviceAccountCreate = true)
    (entitled : values.Entitles plural cache event) (currentGvk : GroupVersionKind) :
    (ObjectSyncController.moveSource event currentGvk).wp (values.granting plural present cache)
      (fun value _ => values.Entitles plural cache value.1) () := by
  unfold ObjectSyncController.moveSource ObjectSyncController.remove
  rw [wp_memory]
  intro _ _ removed _ _
  refine ⟨trivial, ?_⟩
  rw [wp_bind]
  refine wp_imp (fun value _ entitled' => ?_) (wp_deleteDestinations_entitled created entitled)
  obtain ⟨event', result⟩ := value
  cases result with
  | error e => exact entitled'
  | ok =>
    exact fun _ _ _ _ _ => ⟨trivial, fun _ _ _ _ _ => ⟨trivial, fun _ _ _ _ _ =>
      ⟨trivial, entitled'⟩⟩⟩

/-- The requests that add the finalizer to an ObjectSync are granted to an entitled run. -/
theorem wp_addFinalizerIfMissing_entitled (created : values.serviceAccountCreate = true)
    (entitled : values.Entitles plural cache event) :
    (ObjectSyncController.addFinalizerIfMissing event).wp (values.granting plural present cache)
      (fun value _ => values.Entitles plural cache value.1) () := by
  have within (finalizers : List String) :
      values.Entitles plural cache (ObjectSyncController.setFinalizers event finalizers) :=
    entitled.modify rfl rfl fun _ => id
  unfold ObjectSyncController.addFinalizerIfMissing
  dsimp only
  split
  · exact within _
  · rw [wp_bind]
    exact wp_imp (fun _ _ entitled' => entitled') (wp_patchSpec_entitled created (within _))

/-- The requests that check an ObjectSync are granted to an entitled run. -/
theorem wp_check_entitled (created : values.serviceAccountCreate = true)
    (entitled : values.Entitles plural cache event) :
    (ObjectSyncController.check event).wp (values.granting plural present cache)
      (fun value _ => values.Entitles plural cache value.1) () := by
  unfold ObjectSyncController.check
  rw [wp_bind]
  refine wp_imp (fun value _ entitled' => ?_) (wp_addFinalizerIfMissing_entitled created entitled)
  obtain ⟨event', result⟩ := value
  cases result with
  | error e => exact entitled'
  | ok =>
    dsimp only
    rw [wp_bind]
    refine wp_imp (fun result _ _ => ?_) (wp_getGvk_entitled event'.modified.spec.source)
    cases result with
    | error e => exact entitled'
    | ok currentGvk =>
      dsimp only
      rw [wp_memory]
      intro _ _ registered _ _
      refine ⟨trivial, ?_⟩
      cases registered with
      | none =>
        exact fun _ _ _ _ _ => ⟨trivial, fun _ _ _ _ _ => ⟨trivial, fun _ _ _ _ _ =>
          ⟨trivial, wp_publish_entitled created entitled' _⟩⟩⟩
      | some active =>
        dsimp only
        split
        · rw [wp_bind]
          refine wp_imp (fun value _ moved => ?_)
            (wp_moveSource_entitled created entitled' currentGvk)
          obtain ⟨event'', result⟩ := value
          cases result with
          | error e => exact fun _ _ _ _ _ => ⟨trivial, moved⟩
          | ok => exact fun _ _ _ _ _ => ⟨trivial, wp_publish_entitled created moved _⟩
        · exact fun _ _ _ _ _ => ⟨trivial, entitled'⟩

/-- The requests that check an ObjectSync and report what goes wrong are granted to an entitled run.
-/
theorem wp_checkOrReport_entitled (created : values.serviceAccountCreate = true)
    (entitled : values.Entitles plural cache event) :
    (ObjectSyncController.checkOrReport event).wp (values.granting plural present cache)
      (fun _ _ => True) () := by
  unfold ObjectSyncController.checkOrReport
  rw [wp_bind]
  refine wp_imp (fun value _ entitled' => ?_) (wp_check_entitled created entitled)
  obtain ⟨event', result⟩ := value
  cases result with
  | ok => trivial
  | error e =>
    dsimp only
    rw [wp_bind]
    refine wp_imp (fun event'' _ kept => ?_) (wp_updateCondition_entitled entitled' _)
    rw [wp_bind]
    refine wp_imp (fun value _ _ => ?_) (wp_replaceStatus_entitled created kept.1)
    obtain ⟨written, result⟩ := value
    cases result <;> trivial

/-- The requests that reconcile an ObjectSync within the values are granted. -/
theorem wp_reconcileSync_entitled (created : values.serviceAccountCreate = true)
    (plain : values.Plain) {object : ObjectSync} (permits : values.Permits plural cache object) :
    (ObjectSyncController.reconcile (.new values.environment) object).wp
      (values.granting plural present cache) (fun _ _ => True) () := by
  unfold ObjectSyncController.reconcile
  dsimp only
  by_cases watched : ObjectSyncController.watches (.new values.environment)
      ((ObjectSyncModifications.new object).modified.metadata.namespace_.getD "") = true
  · have entitled : values.Entitles plural cache (.new object) := by
      refine ⟨permits, reaches_watchRole ?_⟩
      rw [Configuration.new_environment plain] at watched
      exact admits_restriction_iff.mp watched
    rw [if_pos watched]
    split
    · rw [wp_bind]
      exact wp_imp (fun _ _ _ => trivial) (wp_delete_entitled created entitled)
    · rw [wp_bind]
      exact wp_imp (fun _ _ _ => trivial) (wp_checkOrReport_entitled created entitled)
  · rw [if_neg watched]
    trivial

end Syncs

/-! ## Runs for objects -/

section Objects

variable {values : Values} {plural : GroupVersionKind → String} {present : ObjectKey → Bool}
  {cache : List Namespace}
  {self : ResourceControllerImpl}

/-- An object that a resource controller may patch, if there is something to patch: it lies in a
source or target namespace, or there are source namespaces and it has no finalizer to be removed. -/
def Reached (values : Values) (object : DynamicObject) : Prop :=
  Reaches values.sourceNamespaces (some (object.metadata.namespace_.getD "")) ∨
    Reaches values.targetNamespaces (some (object.metadata.namespace_.getD "")) ∨
    values.sourceNamespaces ≠ [] ∧ finalizer ∉ object.metadata.finalizerList

/-- The ObjectSyncs of an object are watched and stay within the values, and the object is in a
source namespace. -/
theorem wp_lookup_entitled (created : values.serviceAccountCreate = true) (plain : values.Plain)
    (configured : self.configuration = .new values.environment) (sourceRef : SourceRef) :
    (self.lookupObjectSyncsForSource sourceRef).wp (values.granting plural present cache)
      (fun found _ => ∀ objs, found = some objs →
        Covers values.sourceNamespaces sourceRef.name.namespace_ ∧
          ∀ rs ∈ objs, values.Entitles plural cache rs) () := by
  unfold ResourceControllerImpl.lookupObjectSyncsForSource
  by_cases source : self.isSourceNamespace sourceRef.name.namespace_ = true
  · have covers : Covers values.sourceNamespaces sourceRef.name.namespace_ := by
      unfold ResourceControllerImpl.isSourceNamespace at source
      rw [configured, Configuration.new_environment plain] at source
      exact admits_restriction_iff.mp source
    rw [if_pos source, wp_memory]
    intro _ _ reply _ answered
    refine ⟨trivial, ?_⟩
    cases reply with
    | none =>
      intro objs same
      cases same
    | some refs =>
      have watched := answered refs rfl
      dsimp only
      split
      · intro objs same
        cases same
      · have fetched := @ResourceControllerImpl.wp_fetchObjectSyncs
          (values.Provides plural cache) (values.Admits plural present)
          (fun r sync => ObjectSyncRef.ofSync sync = r ∧ values.Permits plural cache sync)
          (fun r sync provided => ⟨provided.1, provided.2 sync rfl⟩) sourceRef refs
          (fun r member => admits_of_single rfl
            (granted_sync created (.inl rfl) (watched r member)))
        rw [wp_bind]
        refine wp_imp (fun objs _ listed objs' same => ?_) fetched
        cases same
        refine ⟨covers, fun rs member => ?_⟩
        obtain ⟨r, asked, sync, same, -, identity, permits⟩ := listed rs member
        have address : rs.address = r.name := by
          rw [same]
          exact congrArg ObjectSyncRef.name identity
        refine ⟨same ▸ permits, ?_⟩
        rw [address]
        exact watched r asked
  · rw [if_neg source]
    intro objs same
    cases same

/-- The requests that synchronize the destinations of an ObjectSync are granted to an entitled run.
-/
theorem wp_reconcileSource_entitled (created : values.serviceAccountCreate = true)
    (allows : values.Allows (self.gvk.resource plural)) {event : ObjectSyncModifications}
    (entitled : values.Entitles plural cache event) (source : DynamicObject) :
    (self.reconcileSource event source).wp (values.granting plural present cache)
      (fun _ _ => True) () := by
  apply wp_provided
  apply self.requests_reconcileSource_entries source trivial trivial
  · intro d member request removal
    exact admits_removal created (entitled.permits.tracked d member) removal
  · intro target wanted request upsert
    exact admits_upsert created allows (entitled.permits.expected target wanted) upsert
  · intro event' same request write
    have watched := entitled.watched
    rw [← same] at watched
    exact admits_statusWrite created watched write

/-- Adding the finalizer to an object that still exists asks for no more than a patch. -/
theorem wp_protect_entitled {object : DynamicObject} (exists_ : self.StillThere present object)
    (patches : values.Granted
      ⟨.patch, self.gvk.resource plural, some (object.metadata.namespace_.getD "")⟩) :
    (addFinalizerIfMissing (self.namespacedApi (SourceRef.ofObject object).name.namespace_)
      (ensureGvk object self.gvk) finalizer).wp (values.granting plural present cache)
      (fun _ _ => True) () := by
  by_cases carries : finalizer ∈ object.metadata.finalizerList
  · have carries' : finalizer ∈ (ensureGvk object self.gvk).metadata.finalizerList := carries
    unfold addFinalizerIfMissing
    rw [if_pos carries']
    trivial
  · obtain ⟨name, named, (found : present ((self.namespacedApi
      (SourceRef.ofObject object).name.namespace_).key name) = true)⟩ := exists_ carries
    have key : (finalizerPatch (ensureGvk object self.gvk) finalizer).metadata.nameAny = name := by
      simp only [finalizerPatch, ensureGvk, ObjectMeta.nameAny, named, Option.some_or,
        Option.getD_some]
    have adds := @requests_addFinalizerIfMissing (values.Admits plural present)
      (self.namespacedApi (SourceRef.ofObject object).name.namespace_) (ensureGvk object self.gvk)
      finalizer (by
        intro asked asks
        rw [key] at asks
        rcases ApiRequest.access_apply asks with rfl | ⟨absent, -⟩
        · exact patches
        · rw [found] at absent
          cases absent)
    exact wp_imp (fun _ _ _ => trivial) (wp_provided (wp_informed adds))

/-- The requests that reconcile an object are granted, if it is reached and still there. -/
theorem wp_reconcileObject_entitled (created : values.serviceAccountCreate = true)
    (plain : values.Plain) (configured : self.configuration = .new values.environment)
    (allows : values.Allows (self.gvk.resource plural)) {object : DynamicObject}
    (reached : values.Reached object) (exists_ : self.StillThere present object) :
    (self.reconcile object).wp
      (.requests (fun call reply => values.Provides plural cache call.2 reply)
        fun call => values.Admits plural present call.2) (fun _ _ => True) () := by
  -- Where the object may be patched, its finalizer may be added and removed.
  have patches
      (within : Reaches values.sourceNamespaces (some (object.metadata.namespace_.getD "")) ∨
        Reaches values.targetNamespaces (some (object.metadata.namespace_.getD ""))) :
      values.Granted ⟨.patch, self.gvk.resource plural,
        some (object.metadata.namespace_.getD "")⟩ :=
    granted_object created (.inr rfl) allows within
  have releases : (removeFinalizer
      (self.namespacedApi (SourceRef.ofObject object).name.namespace_) (ensureGvk object self.gvk)
      finalizer).wp (values.granting plural present cache) (fun _ _ => True) () := by
    by_cases carries : finalizer ∈ object.metadata.finalizerList
    · have within : Reaches values.sourceNamespaces (some (object.metadata.namespace_.getD "")) ∨
          Reaches values.targetNamespaces (some (object.metadata.namespace_.getD "")) := by
        rcases reached with source | target | lacks
        · exact .inl source
        · exact .inr target
        · exact absurd carries lacks.2
      have asks := @requests_removeFinalizer (values.Admits plural present)
        (self.namespacedApi (SourceRef.ofObject object).name.namespace_) (ensureGvk object self.gvk)
        finalizer (fun _ => admits_of_single rfl (patches within))
      exact wp_imp (fun _ _ _ => trivial) (wp_provided (wp_informed asks))
    · have lacks : finalizer ∉ (ensureGvk object self.gvk).metadata.finalizerList := carries
      rw [removeFinalizer_of_not_mem lacks]
      trivial
  unfold ResourceControllerImpl.reconcile
  dsimp only
  rw [wp_bind, wp_label]
  refine wp_imp (fun found _ known => ?_)
    (wp_lookup_entitled created plain configured (SourceRef.ofObject object))
  cases found with
  | none =>
    dsimp only
    split
    · rw [wp_bind, wp_label]
      refine wp_imp (fun value _ _ => ?_) releases
      obtain ⟨source, result⟩ := value
      cases result <;> trivial
    · trivial
  | some objs =>
    have listed := known objs rfl
    have within : Reaches values.sourceNamespaces (some (object.metadata.namespace_.getD "")) ∨
        Reaches values.targetNamespaces (some (object.metadata.namespace_.getD "")) := by
      rcases reached with source | target | lacks
      · exact .inl source
      · exact .inr target
      · exact .inl (reaches_of_covers lacks.1 listed.1)
    dsimp only
    split
    · rw [wp_bind]
      refine wp_imp (fun succeeded _ _ => ?_) (@ResourceControllerImpl.wp_deleteAll _ _
        (fun _ => True) _ objs (fun rs member _ _ => ?_) trivial)
      · split
        · rw [wp_bind, wp_label]
          exact wp_imp (fun _ _ _ => trivial) releases
        · trivial
      · rw [wp_label]
        exact wp_imp (fun _ _ _ => trivial)
          (wp_deleteDestinations_entitled created (listed.2 rs member))
    · rw [wp_bind, wp_label]
      refine wp_imp (fun value _ _ => ?_) (wp_protect_entitled exists_ (patches within))
      rw [wp_bind]
      refine wp_imp (fun _ _ _ => trivial) (@ResourceControllerImpl.wp_reconcileAll _ _
        (fun _ => True) _ self _ objs (fun rs member _ _ => ?_) trivial)
      rw [wp_label]
      exact wp_imp (fun _ _ _ => trivial)
        (wp_reconcileSource_entitled created allows (listed.2 rs member) _)

end Objects

end Values

open Values

section Granted

variable {values : Values} {plural : GroupVersionKind → String} {present : ObjectKey → Bool}
  {cache : List Namespace}

/-- **Authorization for ObjectSyncs.** The controller that the chart configures for ObjectSyncs
never asks for what the roles of the chart do not grant, as long as the ObjectSync and those that
the API server returns stay within the values. -/
theorem checks_granted (created : values.serviceAccountCreate = true) (plain : values.Plain)
    {object : ObjectSync} (permits : values.Permits plural cache object) {request : ApiRequest}
    (issued : (ObjectSyncController.reconcile (.new values.environment) object).Issues
      (fun _ _ => True) (fun _ call reply _ => values.Provides plural cache call reply) ()
      (.api request)) :
    ∀ present, ∀ asked ∈ request.access plural present, values.Granted asked := by
  intro present
  obtain ⟨_, _, _, admitted⟩ := Issues.guaranteed issued (fun _ => trivial)
    (fun _ call => (exists_provides call).imp fun _ provided => ⟨(), provided⟩)
    (wp_reconcileSync_entitled created plain permits)
  exact admitted

/-- **Authorization for objects.** A resource controller that the chart configures never asks for
what the roles of the chart do not grant, if the values allow its kind, the object lies where it may
be patched and still exists when the finalizer is added to it, and ObjectSyncs stay within the
values. -/
theorem syncs_granted (created : values.serviceAccountCreate = true) (plain : values.Plain)
    {self : ResourceControllerImpl} (configured : self.configuration = .new values.environment)
    (allows : values.Allows (self.gvk.resource plural)) {object : DynamicObject}
    (reached : values.Reached object) {name : Option ObjectSyncRef} {request : ApiRequest}
    (issued : (self.reconcile object).Issues (fun _ _ => True)
      (fun _ call reply _ => values.Provides plural cache call.2 reply) () (name, .api request)) :
    ∀ present, self.StillThere present object →
      ∀ asked ∈ request.access plural present, values.Granted asked := by
  intro present exists_
  obtain ⟨_, _, _, admitted⟩ := Issues.guaranteed issued (fun _ => trivial)
    (fun _ call => (exists_provides call.2).imp fun _ provided => ⟨(), provided⟩)
    (wp_reconcileObject_entitled created plain configured allows reached exists_)
  exact admitted

end Granted

/-- Values for the settings: they may be copied from one namespace to another. -/
def settingsValues : Values where
  serviceAccountCreate := true
  watchNamespaces := ["default"]
  sourceNamespaces := ["default"]
  targetNamespaces := ["team"]
  allowedResources := [⟨[""], ["configmaps"]⟩]

/-- The values for the settings have plain namespaces. -/
theorem settingsValues_plain : settingsValues.Plain where
  watch := by decide
  source := by decide
  target := by decide

/-- The ObjectSync of the settings stays within the values. -/
theorem settingsSync_permitted :
    settingsValues.Permits settingsPlural settingsNamespaces settingsSync where
  kind := by
    intro gvk group kind
    have resource : gvk.resource settingsPlural = ⟨"", "configmaps", ""⟩ := by
      have plural : settingsPlural gvk = "configmaps" := if_pos kind
      unfold GroupVersionKind.resource
      rw [plural, group]
      rfl
    rw [resource]
    decide
  source := .inl (reaches_some_iff.mpr (by decide))
  tracked d member := absurd member List.not_mem_nil
  expected := by
    intro target member
    have only : target = ("team", "settings", none) := List.mem_singleton.mp member
    rw [only]
    exact reaches_some_iff.mpr (by decide)

/-- The deleted ObjectSync that tracks a copy stays within the values. -/
theorem deletedSync_permitted :
    settingsValues.Permits settingsPlural settingsNamespaces deletedSync where
  kind := settingsSync_permitted.kind
  source := settingsSync_permitted.source
  tracked := by
    intro d member
    have only : d = configMaps.expectedStatus ("team", "settings", none) :=
      List.mem_singleton.mp member
    rw [only]
    constructor
    · decide
    · exact reaches_some_iff.mpr (by decide)
  expected := settingsSync_permitted.expected

/-- When an ObjectSync is deleted, its copy is looked up and may be deleted. -/
theorem settings_removal_granted :
    settingsValues.Granted ⟨.delete, ⟨"", "configmaps", ""⟩, some "team"⟩ := by
  have issued : (ObjectSyncController.reconcile (.new settingsValues.environment)
      deletedSync).Issues (fun _ _ => True)
      (fun _ call reply _ => settingsValues.Provides settingsPlural settingsNamespaces call reply)
      () (.api (.delete ⟨⟨"", "v1", "ConfigMap"⟩, "team"⟩ "settings")) := by
    have watched : ObjectSyncController.watches (.new settingsValues.environment)
        ((ObjectSyncModifications.new deletedSync).modified.metadata.namespace_.getD "") =
        true := by
      rw [Configuration.new_environment settingsValues_plain]
      decide
    unfold ObjectSyncController.reconcile
    dsimp only
    rw [if_pos watched, if_pos (by decide)]
    refine Issues.after () () none ?_ trivial trivial
    refine Issues.after () () (.ok settingsTeamCopy) ?_ trivial ⟨rfl, fun _ _ => trivial⟩
    -- The copy carries the finalizer, which is removed first.
    refine Issues.after () () (.error (.other "")) ?_ trivial ⟨trivial, ?_⟩
    · exact issues_call
    · intro value same
      cases same
  exact checks_granted rfl settingsValues_plain deletedSync_permitted issued (fun _ => true) _
    List.mem_cons_self

/-- The finalizer may be added to the settings, by the role for their namespace. -/
theorem settings_protection_granted :
    settingsValues.Granted ⟨.patch, ⟨"", "configmaps", ""⟩, some "default"⟩ := by
  have issued : (ResourceControllerImpl.reconcile
      ⟨.new settingsValues.environment, ⟨"", "v1", "ConfigMap"⟩, 0⟩ settingsSource).Issues
      (fun _ _ => True) (fun _ call reply _ =>
        settingsValues.Provides settingsPlural settingsNamespaces call.2 reply) ()
      (none, .api (.apply ⟨⟨"", "v1", "ConfigMap"⟩, "default"⟩ "settings"
        (finalizerPatch (ensureGvk settingsSource ⟨"", "v1", "ConfigMap"⟩) finalizer))) := by
    have source : ResourceControllerImpl.isSourceNamespace
        ⟨.new settingsValues.environment, ⟨"", "v1", "ConfigMap"⟩, 0⟩
        (SourceRef.ofObject settingsSource).name.namespace_ = true := by
      rw [Configuration.new_environment settingsValues_plain]
      decide
    unfold ResourceControllerImpl.reconcile ResourceControllerImpl.lookupObjectSyncsForSource
    dsimp only
    rw [if_pos source]
    refine Issues.after () () (some [settingsRef]) ?_ trivial ?_
    · exact Issues.after () () (.ok settingsSync) issues_call trivial
        ⟨rfl, fun value same => Except.ok.inj same ▸ settingsSync_permitted⟩
    · intro names same r member
      rw [← Option.some.inj same, List.mem_singleton] at member
      rw [member]
      exact reaches_some_iff.mpr (by decide)
  have allows : settingsValues.Allows
      (GroupVersionKind.resource ⟨"", "v1", "ConfigMap"⟩ settingsPlural) := by decide
  have reached : settingsValues.Reached settingsSource :=
    .inl (reaches_some_iff.mpr (by decide))
  have exists_ : ResourceControllerImpl.StillThere
      ⟨.new settingsValues.environment, ⟨"", "v1", "ConfigMap"⟩, 0⟩ (fun _ => true)
      settingsSource :=
    fun _ => ⟨"settings", rfl, rfl⟩
  exact @syncs_granted _ _ _ rfl settingsValues_plain _ rfl allows _ reached _ _ issued _ exists_ _
    List.mem_cons_self

end ObjectSyncer
