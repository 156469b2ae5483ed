import ObjectSyncer.Sparing
import ObjectSyncer.Teardown

/-!
# Deletability

An attempt to delete an ObjectSync starts from whatever earlier attempts have left. When every
request is served, only the answer to the discovery of the source decides whether it gets as far as
to remove the finalizer of the ObjectSync.
-/
namespace ObjectSyncer

open Interaction Interaction.Program Server

/-- The kind of a source is known to be cluster scoped. -/
def Server.ClusterScoped (server : Server) (source : SourceObject) : Prop :=
  ∃ apigroup resource, server.apis source.group = some apigroup ∧
    ObjectSyncController.findApiResource source apigroup = .ok (resource, .cluster)

/-- The ObjectSync does not carry the finalizer. -/
def Server.SyncLacks (server : Server) (o : ObjectSyncRef) : Prop :=
  ∀ sync, server.syncs o.name = some sync → finalizer ∉ sync.metadata.finalizerList

/-- An object with a finalizer is not gone. -/
theorem ObjectMeta.present_of_finalizer {metadata : ObjectMeta}
    (carries : finalizer ∈ metadata.finalizerList) : metadata.gone = false := by
  have listed : metadata.finalizerList ≠ [] := List.ne_nil_of_mem carries
  have some_ : metadata.finalizerList.isEmpty = false := by simpa using listed
  rw [ObjectMeta.gone, some_, Bool.and_false]

namespace ObjectSyncController

section Alone

variable {maker : Option ObjectSyncRef} {cache : List Namespace} {possible : Server → Prop}
  {o : ObjectSyncRef} {event : ObjectSyncModifications} {server : Server}

/-- What removing the destinations leaves: the working copy is in step with an ObjectSync that
differs in its status only. -/
structure Withdrawn (o : ObjectSyncRef) (event event' : ObjectSyncModifications)
    (server after : Server) : Prop where
  apis : after.apis = server.apis
  inStep : InStep o event' after
  only : StatusOnly event.original event'.original

/-- Removing the destinations succeeds, releases them and leaves the other ObjectSyncs alone. -/
theorem wp_deleteDestinations_withdrawn (inStep : InStep o event server) :
    (deleteDestinations event).wp (alone maker cache possible)
      (fun value after => value.2 = .ok () ∧ Withdrawn o event value.1 server after ∧
        (∀ name, name ≠ o.name → after.syncs name = server.syncs name) ∧
        ∀ d ∈ event.modified.destinationList, after.Lacks d.key) server := by
  unfold deleteDestinations ObjectSync.destinationList
  cases event.modified.statusDestinations with
  | none =>
    exact ⟨rfl, ⟨rfl, inStep, rfl, rfl, rfl, rfl, rfl⟩, fun _ _ => rfl,
      fun d member => absurd member List.not_mem_nil⟩
  | some destinations =>
    dsimp only
    rw [wp_bind]
    refine wp_imp ?_ (wp_deleteDestinations_alone destinations)
    intro result middle cleared
    obtain ⟨settled, clears⟩ := cleared
    rw [settled]
    have inStep' : InStep o event middle := by
      refine ⟨?_, inStep.kept, inStep.present⟩
      rw [clears.agree.syncs]
      exact inStep.found
    dsimp only
    rw [wp_bind]
    refine wp_imp ?_ (wp_updateCondition_alone inStep' _)
    intro event' now updated
    obtain ⟨same, inStep'', original, -⟩ := updated
    subst same
    have tracked : InStep o (event'.updateDestinations []) now := inStep''.modify fun sync => rfl
    rw [wp_bind]
    refine wp_imp ?_ (wp_replaceStatus_alone tracked)
    intro value after written
    obtain ⟨event'', result⟩ := value
    obtain ⟨succeeded, writes⟩ := written
    dsimp only at succeeded writes
    rw [succeeded]
    have only : StatusOnly event.original event''.original := by
      have same : (event'.updateDestinations []).original = event.original := original
      rw [← same]
      exact writes.only
    refine ⟨rfl, ⟨writes.agree.apis.trans clears.agree.apis, writes.inStep, only⟩,
      fun name other => ?_, fun d member stored found => ?_⟩
    · rw [writes.agree.syncs name other, clears.agree.syncs]
    · rw [writes.agree.objects] at found
      exact (clears.cleared d.key (List.mem_map_of_mem member)).lacks stored found

/-- Discovery answers with an error that is returned exactly when the kind is cluster scoped. -/
theorem wp_getGvk_alone (source : SourceObject) :
    (getGvk source).wp (alone maker cache possible) (fun result after => after = server ∧
      result.toOption = server.discovered source ∧
        ((∃ gvk, result = .ok gvk) ∧ ¬server.ClusterScoped source ∨
        (∃ message, result = .error (.apiDiscoveryError message)) ∧ ¬server.ClusterScoped source ∨
        (∃ message, result = .error (.clusterScopedResource message)) ∧
          server.ClusterScoped source)) server := by
  unfold getGvk
  cases known : server.apis source.group with
  | none =>
    have served (choice : Choice) : server.serve maker choice (.discoverGroup source.group) =
        (.error (.discovery "no such group"), server) := by simp only [serve, known]
    refine wp_served served fun choice _ => ⟨rfl, ?_, .inr (.inl ⟨⟨_, rfl⟩, ?_⟩)⟩
    · rw [Server.discovered, known]
      rfl
    intro cluster
    obtain ⟨apigroup, resource, found, -⟩ := cluster
    rw [known] at found
    cases found
  | some apigroup =>
    have served (choice : Choice) : server.serve maker choice (.discoverGroup source.group) =
        (.ok apigroup, server) := by simp only [serve, known]
    have listed : server.discovered source =
        ((findApiResource source apigroup).bind requireNamespaced).toOption := by
      rw [Server.discovered, known, Option.bind_some]
    refine wp_served served fun choice _ => ⟨rfl, listed.symm, ?_⟩
    have decided : server.ClusterScoped source ↔
        ∃ resource, findApiResource source apigroup = .ok (resource, .cluster) := by
      simp only [Server.ClusterScoped, known, Option.some.injEq, exists_eq_left',
        exists_and_left]
    rw [decided]
    cases picked : findApiResource source apigroup with
    | error e =>
      refine .inr (.inl ⟨?_, ?_⟩)
      · unfold findApiResource at picked
        split at picked <;> split at picked <;> cases picked <;> exact ⟨_, rfl⟩
      · intro cluster
        obtain ⟨resource, found⟩ := cluster
        cases found
    | ok resource =>
      obtain ⟨gvk, scope⟩ := resource
      cases scope with
      | cluster => exact .inr (.inr ⟨⟨_, rfl⟩, gvk, rfl⟩)
      | namespaced =>
        refine .inl ⟨⟨gvk, rfl⟩, ?_⟩
        intro cluster
        obtain ⟨resource, found⟩ := cluster
        cases found

/-- Releasing the source fails exactly when its kind is cluster scoped, and leaves the ObjectSyncs
alone. No object gets the finalizer, and the source of a discovered kind lacks it. -/
theorem wp_releaseSource_alone (event : ObjectSyncModifications) :
    (releaseSource event).wp (alone maker cache possible) (fun result after =>
      after.syncs = server.syncs ∧ (∀ key, server.Lacks key → after.Lacks key) ∧
        (∀ gvk, server.discovered event.modified.spec.source = some gvk → after.Lacks
          (DynamicApi.key ⟨gvk, event.modified.sourceNamespace.getD ""⟩
            event.modified.sourceName)) ∧
        (result = .ok () ∧ ¬server.ClusterScoped event.modified.spec.source ∨
          (∃ e, result = .error e) ∧ server.ClusterScoped event.modified.spec.source)) server := by
  unfold releaseSource
  rw [wp_bind]
  refine wp_imp ?_ (wp_getGvk_alone event.modified.spec.source)
  intro result middle discovered
  obtain ⟨same, known, discovered⟩ := discovered
  subst same
  rw [← known]
  rcases discovered with namespaced | unknown | cluster
  · obtain ⟨⟨gvk, found⟩, namespaced⟩ := namespaced
    rw [found]
    have only (gvk' : GroupVersionKind)
        (same : (.ok gvk : Except ControllerError _).toOption = some gvk') : gvk = gvk' :=
      Option.some.inj same
    dsimp only
    generalize apiEq : (⟨gvk, event.modified.sourceNamespace.getD ""⟩ : DynamicApi) = api
    generalize nameEq : event.modified.sourceName = name
    cases present : middle.objects (api.key name) with
    | none =>
      have served (choice : Choice) : middle.serve maker choice (.get api name) =
          (.error (.api 404 "not found"), middle) := by simp only [serve, present]
      refine wp_served served fun choice _ => ⟨rfl, fun _ => id, fun gvk' same => ?_,
        .inl ⟨rfl, namespaced⟩⟩
      obtain rfl := only gvk' same
      rw [apiEq]
      intro stored there
      rw [present] at there
      cases there
    | some stored =>
      have served (choice : Choice) : middle.serve maker choice (.get api name) =
          (.ok stored.object, middle) := by simp only [serve, present]
      refine wp_served served fun choice _ => ?_
      have named : (ensureGvk stored.object gvk).metadata.nameAny = name := by
        show stored.object.metadata.nameAny = name
        rw [ObjectMeta.nameAny, (middle.named present).1]
        rfl
      dsimp only
      rw [wp_bind]
      refine wp_imp ?_ (wp_removeFinalizer_alone named present rfl)
      intro value after released
      obtain ⟨succeeded, agree, removed, absent⟩ := released
      obtain ⟨source, result'⟩ := value
      dsimp only at succeeded
      rw [succeeded]
      have lacks : after.Lacks (api.key name) := by
        by_cases carries : finalizer ∈ stored.object.metadata.finalizerList
        · exact ((removed carries).lacks present).1
        · rw [absent carries]
          intro later there
          rw [present] at there
          rwa [← Option.some.inj there]
      refine ⟨agree.syncs, fun key lacked => ?_, fun gvk' same => ?_, .inl ⟨rfl, namespaced⟩⟩
      · by_cases here : key = api.key name
        · rw [here]
          exact lacks
        · intro later there
          rw [agree.objects key here] at there
          exact lacked later there
      · obtain rfl := only gvk' same
        rw [apiEq]
        exact lacks
  · obtain ⟨⟨message, failed⟩, namespaced⟩ := unknown
    rw [failed]
    refine ⟨rfl, fun _ => id, fun gvk same => ?_, .inl ⟨rfl, namespaced⟩⟩
    cases same
  · obtain ⟨⟨message, failed⟩, cluster⟩ := cluster
    rw [failed]
    refine ⟨rfl, fun _ => id, fun gvk same => ?_, .inr ⟨⟨_, rfl⟩, cluster⟩⟩
    cases same

/-- A patch between different lists of finalizers is not empty. -/
theorem diffFinalizers_ne_nil {old new : Option (List String)} (differ : old ≠ new) :
    diffFinalizers old new ≠ [] := by
  intro nothing
  have applied := applyFinalizerOps_diffFinalizers old new
  rw [nothing] at applied
  exact differ (Option.some.inj applied)

/-- Patching other finalizers into an ObjectSync that nobody else touches succeeds. -/
theorem wp_patchFinalizers_alone (inStep : InStep o event server) {finalizers : List String}
    (differ : event.original.metadata.finalizers ≠ some finalizers) :
    (setFinalizers event finalizers).patchSpec.wp (alone maker cache possible)
      (fun value after => value.2 = .ok () ∧ ∃ (choice : Choice) (patch : ObjectSyncPatch),
        patch.spec = none ∧
          value.1 = .new (choice.patched event.original patch (some finalizers)) ∧
          after = server.writeSync o.name (choice.patched · patch (some finalizers))
            fun _ => ⟨rfl, rfl⟩) server := by
  have metadata : event.modified.metadata = event.original.metadata := by
    rw [inStep.kept]
  have spec : event.modified.spec = event.original.spec := by
    rw [inStep.kept]
  -- Nothing but the finalizers differs between the server and the working copy.
  generalize patchEq :
    ObjectSyncPatch.diff event.original (setFinalizers event finalizers).modified =
    patch
  have patched : patch.finalizers =
      diffFinalizers event.original.metadata.finalizers (some finalizers) := by
    rw [← patchEq]
    rfl
  have version : patch.resourceVersion = none := by
    rw [← patchEq]
    have same : event.original.metadata.resourceVersion =
        (setFinalizers event finalizers).modified.metadata.resourceVersion :=
      congrArg (·.resourceVersion) metadata.symm
    exact if_pos same
  have unspecified : patch.spec = none := by
    rw [← patchEq]
    have same : event.original.spec = (setFinalizers event finalizers).modified.spec := spec.symm
    exact if_pos same
  have nonempty : patch.isEmpty = false := by
    have some_ : patch.finalizers.isEmpty = false := by
      rw [patched]
      simpa using diffFinalizers_ne_nil differ
    rw [ObjectSyncPatch.isEmpty, some_]
    rfl
  have asked : (setFinalizers event finalizers).getSpecPatch event.original = some patch := by
    unfold ObjectSyncModifications.getSpecPatch
    dsimp only
    rw [patchEq, nonempty]
    rfl
  unfold ObjectSyncModifications.patchSpec
  have changed : (setFinalizers event finalizers).specHasChanged = true := by
    unfold ObjectSyncModifications.specHasChanged
    have same : (setFinalizers event finalizers).original = event.original := rfl
    rw [same, asked]
    rfl
  have address : (setFinalizers event finalizers).address = o.name := inStep.address
  rw [if_pos changed]
  unfold ObjectSyncModifications.patchSpecNow
  rw [address]
  have read (choice : Choice) : server.serve maker choice (.getSync o.name) =
      (.ok event.original, server) := by simp only [serve, inStep.found]
  refine wp_served read fun choice _ => ?_
  dsimp only
  rw [asked]
  have applied : applyFinalizerOps patch.finalizers event.original.metadata.finalizers =
      some (some finalizers) := by
    rw [patched]
    exact applyFinalizerOps_diffFinalizers _ _
  have write (choice : Choice) : server.serve maker choice (.jsonPatchSync o.name patch) =
      (.ok (choice.patched event.original patch (some finalizers)),
        server.writeSync o.name (choice.patched · patch (some finalizers)) fun _ =>
          ⟨rfl, rfl⟩) := by
    simp only [serve, inStep.found, applied, version, Option.any_none, Bool.false_eq_true, if_false]
  exact wp_served write fun choice _ => ⟨rfl, choice, patch, unspecified, rfl, rfl⟩

/-- Removing the finalizer from an ObjectSync that nobody else touches succeeds. -/
theorem wp_removeFinalizer_released (inStep : InStep o event server)
    (carries : finalizer ∈ event.original.metadata.finalizerList) :
    (removeFinalizer event).wp (alone maker cache possible)
      (fun value after => value.2 = .ok () ∧ after.SyncLacks o) server := by
  have metadata : event.modified.metadata = event.original.metadata := by
    rw [inStep.kept]
  unfold removeFinalizer
  dsimp only
  rw [metadata]
  generalize remaining : event.original.metadata.finalizerList.filter (· != finalizer) = retained
  have lacks : finalizer ∉ retained := by
    rw [← remaining, List.mem_filter, bne_self_eq_false]
    exact fun listed => Bool.false_ne_true listed.2
  have fewer : retained.length ≠ event.original.metadata.finalizerList.length := by
    rw [← remaining]
    exact length_filter_finalizer_ne carries
  have differ : event.original.metadata.finalizers ≠ some retained := by
    intro same
    rw [ObjectMeta.finalizerList, same] at carries
    exact lacks carries
  rw [if_pos fewer, wp_bind]
  refine wp_imp ?_ (wp_patchFinalizers_alone inStep differ)
  intro value after patched
  obtain ⟨event', result⟩ := value
  obtain ⟨succeeded, choice, patch, -, -, left⟩ := patched
  dsimp only at succeeded
  rw [succeeded, left]
  refine ⟨rfl, fun sync found => ?_⟩
  rw [writeSync_syncs, Function.update_self, inStep.found, Option.bind_some] at found
  unfold ObjectSync.settled at found
  split at found
  · cases found
  · rw [← Option.some.inj found]
    exact lacks

/-- An attempt to delete an ObjectSync that carries the finalizer removes it exactly when the kind
of its source is not cluster scoped. -/
theorem wp_delete_alone {sync : ObjectSync} (found : server.syncs o.name = some sync)
    (carries : finalizer ∈ sync.metadata.finalizerList) :
    (delete (.new sync)).wp (alone maker cache possible) (fun value after =>
      (value.2 = .ok () ∧ after.SyncLacks o) ∧ ¬server.ClusterScoped sync.spec.source ∨
        ((∃ e, value.2 = .error e) ∧ ¬after.SyncLacks o) ∧ server.ClusterScoped sync.spec.source)
      server := by
  have present := ObjectMeta.present_of_finalizer carries
  unfold delete remove
  rw [wp_memory]
  intro moved same reply after answered
  subst same
  have still : server = after := answered.1.symm
  subst still
  refine ⟨trivial, ?_⟩
  rw [wp_bind]
  refine wp_imp ?_ (wp_deleteDestinations_withdrawn (inStep_new found present))
  intro value middle withdrawn
  obtain ⟨event, result⟩ := value
  obtain ⟨succeeded, withdrawn, -, -⟩ := withdrawn
  dsimp only at succeeded withdrawn
  rw [succeeded]
  have listed : finalizer ∈ event.original.metadata.finalizerList := by
    rw [ObjectMeta.finalizerList, withdrawn.only.finalizers]
    exact carries
  have source : event.modified.spec.source = sync.spec.source := by
    rw [withdrawn.inStep.kept]
    exact congrArg (·.source) withdrawn.only.spec
  dsimp only
  rw [wp_bind]
  refine wp_imp ?_ (wp_releaseSource_alone event)
  intro released now left
  obtain ⟨syncs, -, -, left⟩ := left
  have cluster : middle.ClusterScoped event.modified.spec.source ↔
      server.ClusterScoped sync.spec.source := by
    rw [source, Server.ClusterScoped, Server.ClusterScoped, withdrawn.apis]
  rw [cluster] at left
  have inStep : InStep o event now := by
    refine ⟨?_, withdrawn.inStep.kept, withdrawn.inStep.present⟩
    rw [syncs]
    exact withdrawn.inStep.found
  rcases left with left | left
  · obtain ⟨succeeded, namespaced⟩ := left
    rw [succeeded]
    dsimp only
    rw [wp_bind]
    refine wp_imp ?_ (wp_removeFinalizer_released inStep listed)
    intro value after removed
    obtain ⟨event', result⟩ := value
    obtain ⟨succeeded, lacks⟩ := removed
    dsimp only at succeeded lacks
    rw [succeeded]
    exact .inl ⟨⟨rfl, lacks⟩, namespaced⟩
  · obtain ⟨⟨e, failed⟩, cluster⟩ := left
    rw [failed]
    refine .inr ⟨⟨⟨e, rfl⟩, ?_⟩, cluster⟩
    intro lacks
    exact lacks _ inStep.found listed

end Alone

/-- **Deletability.** Whatever earlier attempts have left, an attempt to delete the current
ObjectSync in which every request is served comes to its end, and it removes the finalizer if and
only if the kind of the source is not known to be cluster scoped. Otherwise it fails. -/
theorem delete_removes_finalizer_iff {maker : Option ObjectSyncRef} {cache : List Namespace}
    {o : ObjectSyncRef} {server : Server} {sync : ObjectSync}
    (found : server.syncs o.name = some sync)
    (carries : finalizer ∈ sync.metadata.finalizerList) :
    (∃ value after, Returns (alone maker cache fun _ => True).rely
      (alone maker cache fun _ => True).answers (delete (.new sync)) server value after) ∧
    ∀ value after, Returns (alone maker cache fun _ => True).rely
      (alone maker cache fun _ => True).answers (delete (.new sync)) server value after →
        (after.SyncLacks o ↔ ¬server.ClusterScoped sync.spec.source) ∧
          (value.2 = .ok () ↔ ¬server.ClusterScoped sync.spec.source) := by
  have total := alone_total maker cache
  refine ⟨exists_returns (fun _ => rfl) total _ server, fun value after returned => ?_⟩
  have ended := returned.meets (wp_delete_alone found carries)
  rcases ended with removed | failed
  · obtain ⟨⟨succeeded, lacks⟩, namespaced⟩ := removed
    exact ⟨iff_of_true lacks namespaced, iff_of_true succeeded namespaced⟩
  · obtain ⟨⟨⟨e, failed⟩, carries'⟩, cluster⟩ := failed
    refine ⟨iff_of_false carries' (not_not.mpr cluster), iff_of_false ?_ (not_not.mpr cluster)⟩
    intro succeeded
    rw [failed] at succeeded
    cases succeeded

end ObjectSyncController

/-- The deleted ObjectSync of the settings, whose group is not known, loses its finalizer. -/
theorem deletedSync_deletable :
    ∃ value after, Returns (alone (some settingsRef) settingsNamespaces fun _ => True).rely
      (alone (some settingsRef) settingsNamespaces fun _ => True).answers
      (ObjectSyncController.delete (.new deletedSync))
      (deletedServer (some settingsCopied) @settingsCopied_named) value after ∧
        after.SyncLacks settingsRef := by
  have deletable := @ObjectSyncController.delete_removes_finalizer_iff (some settingsRef)
    settingsNamespaces settingsRef (deletedServer (some settingsCopied) @settingsCopied_named)
    deletedSync rfl (by decide)
  obtain ⟨value, after, returned⟩ := deletable.1
  refine ⟨value, after, returned, (deletable.2 value after returned).1.mpr ?_⟩
  intro cluster
  obtain ⟨apigroup, resource, known, picked⟩ := cluster
  cases known
  cases picked

/-- An ObjectSync whose source is a namespace; `check` has put the finalizer on it. -/
def namespaceSync : ObjectSync :=
  { deletedSync with spec := ⟨⟨"", none, "Namespace", "default", none⟩, []⟩, status := none }

/-- The ObjectSync of a namespace is stored under its name. -/
theorem namespaceSync_named {new : ObjectSync} (stored : some namespaceSync = some new) :
    new.metadata.Named settingsRef.name.namespace_ settingsRef.name.name := by
  cases stored
  exact ⟨rfl, rfl⟩

/-- A server that knows namespaces, with that ObjectSync. -/
def namespaceServer : Server :=
  { Server.empty.putSync settingsRef.name (some namespaceSync) @namespaceSync_named with
    apis := fun _ => some ⟨[(⟨"", "v1", "Namespace"⟩, .cluster)]⟩ }

/-- An ObjectSync whose source is cluster scoped cannot be deleted. -/
theorem namespaceSync_not_deletable :
    ¬∀ (server : Server) (sync : ObjectSync), server.syncs settingsRef.name = some sync →
      finalizer ∈ sync.metadata.finalizerList → ∀ value after,
        Returns (alone none [] fun _ => True).rely (alone none [] fun _ => True).answers
          (ObjectSyncController.delete (.new sync)) server value after →
            after.SyncLacks settingsRef := by
  intro deletable
  let handler := Server.answer none ⟨"u", "2", 0, []⟩ [] "now"
  have allowed (server : Server) (call : Call) : (alone none [] fun _ => True).answers server call
      (handler server call).1 (handler server call).2 := by
    cases call with
    | api request => exact ⟨⟨_, rfl⟩, trivial, trivial⟩
    | namespaces => exact ⟨rfl, rfl, trivial⟩
    | _ => exact ⟨rfl, trivial, trivial⟩
  have returned := returns_run (fun _ => rfl) allowed
    (ObjectSyncController.delete (.new namespaceSync)) namespaceServer
  have lacks := deletable namespaceServer namespaceSync rfl (by decide) _ _ returned
  have left : (((ObjectSyncController.delete (.new namespaceSync)).run handler
      namespaceServer).2.syncs settingsRef.name) = some namespaceSync := by decide +kernel
  exact lacks _ left (by decide)

end ObjectSyncer
