import ObjectSyncer.Areas
import ObjectSyncer.SourceKinds
import ObjectSyncer.StuckFinalizers

/-!
# Copies from the first to the last

The copies of any number of ObjectSyncs over whole sequences of runs: ObjectSyncs are created,
checked, edited, moved to other sources and deleted, and sources are reconciled in between. Whatever
lies in the area of an ObjectSync is tracked by it, so that nothing is left there when it is gone.
-/
namespace ObjectSyncer

open Interaction Interaction.Program Server Collections

namespace Memory

variable {memory : Memory}

/-- No resource controller lists an ObjectSync twice for a source. -/
def Unique (memory : Memory) : Prop := ∀ controller, SetMap.Unique (memory.sources controller)

/-- Neither does a controller that has just started. -/
theorem unique_of_empty : Memory.empty.Unique := fun _ => SetMap.unique_empty

/-- The registries are all that matters. -/
theorem Unique.of_controllers {memory' : Memory} (unique : memory.Unique)
    (same : memory'.controllers = memory.controllers) : memory'.Unique := by
  intro controller
  rw [sources, same]
  exact unique controller

/-- Changing a registry to one without duplicates. -/
theorem Unique.changeSources (unique : memory.Unique) (controller : ControllerId)
    {change : Registry → Registry}
    (keeps : ∀ registry, SetMap.Unique registry → SetMap.Unique (change registry)) :
    (memory.changeSources controller change).Unique := by
  intro other
  rcases sources_changeSources_cases memory controller other change with same | ⟨-, changed⟩
  · rw [same]
    exact unique other
  · rw [changed]
    exact keeps _ (unique other)

/-- Dropping an instance lists no ObjectSync twice. -/
theorem Unique.release (unique : memory.Unique) (inst : ObjectSyncInstance) :
    (memory.release inst).Unique := by
  have released : (memory.dropHandle inst.resourceControllerHandle).Unique := by
    have counted : Unique
        { memory with handles := memory.handles.release inst.resourceControllerHandle } :=
      unique.of_controllers rfl
    unfold dropHandle
    dsimp only
    split
    · exact counted.changeSources _ fun _ => SetMap.unique_remove _ _
    · exact counted
  exact released.of_controllers rfl

/-- Taking an entry out of `instances` lists no ObjectSync twice. -/
theorem Unique.discard (unique : memory.Unique) (id : ObjectSyncRef) :
    (memory.discard id).Unique := by
  unfold Memory.discard
  split
  · exact unique
  · have without : Unique { memory with instances := Function.update memory.instances id none } :=
      unique.of_controllers rfl
    exact without.release _

/-- No operation lists an ObjectSync twice. -/
theorem Unique.exec (unique : memory.Unique) (op : MemoryOp) : (memory.exec op).2.Unique := by
  cases op with
  | getInstance id =>
    cases entry : memory.instances id with
    | none => simpa only [Memory.exec, entry] using unique
    | some inst =>
      simp only [Memory.exec, entry]
      exact unique.of_controllers rfl
  | removeInstance id => exact unique.discard id
  | insertInstance id inst => exact (unique.discard id).of_controllers rfl
  | dropInstance id inst => exact unique.release inst
  | upgradeOrNew id gvk =>
    simp only [Memory.exec]
    split
    · exact unique.of_controllers rfl
    · have started : (memory.start gvk).Unique := by
        intro controller
        by_cases same : controller = memory.nextController
        · subst same
          simp [sources, Memory.start, SetMap.unique_empty]
        · have others : (memory.start gvk).sources controller = memory.sources controller := by
            simp [sources, Memory.start, same]
          rw [others]
          exact unique controller
      exact started.of_controllers rfl
  | register id controller src =>
    have registered : (memory.changeSources controller (·.register src id)).Unique :=
      unique.changeSources controller fun _ => SetMap.unique_add src id
    exact registered.of_controllers rfl
  | lookup controller src => exact unique

end Memory

/-! ## Runs -/

/-- What holds between any two runs: everything is tidy, and no registry lists an ObjectSync twice.
-/
structure Areas.InOrder (areas : Areas) (cluster : Cluster) : Prop where
  tidy : areas.Tidy cluster.system.server
  unique : cluster.system.memory.Unique

/-- A run keeps to the areas: the object of the cache that is reconciled fits them, and whoever
copies it has an area that holds all expected destinations. -/
def Areas.Permits (areas : Areas) (cluster : Cluster) : Run → Prop
  | .check _ | .delete _ => True
  | .reconcile controller object =>
    areas.Fits cluster.system.server (controller.sourceKey (.ofObject object)) object ∧
      ∀ o sync, cluster.system.server.syncs o.name = some sync →
        SourceRef.ofSync sync = .ofObject object →
          ∀ target ∈ ResourceControllerImpl.expectedDestinations sync cluster.cache,
            areas.holds o (controller.expectedStatus target).key

/-- Users may change what they like, but they leave the persisted destinations to the controller,
and put neither objects nor finalizers into the areas. -/
structure Areas.Considerate (areas : Areas) (before after : Cluster) : Prop where
  tracked : ∀ o, after.system.server.tracked o = before.system.server.tracked o
  objects : ∀ o key stored, areas.holds o key → after.system.server.objects key = some stored →
    (∃ old, before.system.server.objects key = some old) ∧
      ∀ f ∈ stored.object.metadata.finalizerList, f = finalizer
  settled : after.system.server.Settled
  present : after.system.server.SyncsPresent

section Runs

variable {areas : Areas} {cluster start : Cluster} {o : ObjectSyncRef} {sync : ObjectSync}
  {maker : Option ObjectSyncRef} {cache : List Namespace}

/-- No run lists an ObjectSync twice. -/
theorem wp_unique {α : Type} {program : LabelledAsync α} (unique : start.system.memory.Unique) :
    program.wp (serving cache) (fun _ after => after.system.memory.Unique) start := by
  refine wp_invariant program ?_ ?_ unique
  · intro world moved kept same
    exact same ▸ kept
  · intro world call reply after kept answered
    refine ⟨trivial, ?_⟩
    rcases System.memory_of_answered answered.1 with memory | unchanged
    · obtain ⟨op, -, done, -⟩ := memory
      rw [← done]
      exact kept.exec op
    · rw [unchanged]
      exact kept

/-- Adding an ObjectSync to the memory leaves the server. -/
theorem wp_add_tidy {event : ObjectSyncModifications} {gvk : GroupVersionKind} :
    (ObjectSyncController.add event gvk).wp ((serving cache).under maker)
      (fun _ after => after.system.server = cluster.system.server) cluster := by
  unfold ObjectSyncController.add
  refine wp_serving_memory fun first same _ => ?_
  refine wp_serving_memory fun second same' _ => ?_
  refine @wp_serving_memory _ _ _ _ _ (fun _ => pure ()) _ fun third same'' _ => ?_
  exact same''.trans (same'.trans same)

/-- Moving to another source empties the area. -/
theorem wp_moveSource_tidy {event : ObjectSyncModifications} {gvk : GroupVersionKind}
    (tidy : areas.Tidy cluster.system.server) (inStep : InStep o event cluster.system.server)
    (status : event.original.status = event.modified.status) :
    (ObjectSyncController.moveSource event gvk).wp ((serving cache).under maker)
      (fun value after => value.2 = .ok () ∧ areas.Tidy after.system.server ∧
        InStep o value.1 after.system.server ∧
        after.system.server.tracked o = value.1.modified.destinationList) cluster := by
  unfold ObjectSyncController.moveSource ObjectSyncController.remove
  refine wp_serving_memory fun removed same _ => ?_
  rw [← same] at tidy inStep
  rw [wp_bind]
  refine wp_imp ?_ (wp_serving_view (wp_withdraw_tidy tidy inStep status))
  rintro ⟨event', result⟩ left ⟨succeeded, kept, untracked, inStep', empty⟩
  obtain rfl : result = .ok () := succeeded
  dsimp only at inStep' empty ⊢
  rw [wp_bind]
  refine wp_imp ?_ wp_add_tidy
  intro _ added same'
  rw [← same'] at inStep' untracked
  exact ⟨rfl, by rw [same']; exact kept.tidy, inStep', untracked.trans empty.symm⟩

/-- Checking an ObjectSync keeps everything tidy. -/
theorem wp_check_tidy (tidy : areas.Tidy start.system.server)
    (found : start.system.server.syncs o.name = some sync) :
    (ObjectSyncController.check (.new sync)).wp ((serving cache).under maker)
      (fun _ after => areas.Tidy after.system.server) start := by
  have present := tidy.present _ _ found
  have covers := tidy.covers o
  rw [Server.tracked_of_found found] at covers
  unfold ObjectSyncController.check
  rw [wp_bind]
  refine wp_imp ?_ (wp_serving_view
    (ObjectSyncController.wp_addFinalizerIfMissing_alone found present))
  rintro ⟨event, result⟩ now ⟨succeeded, finalized⟩
  obtain rfl : result = .ok () := succeeded
  have inStep := finalized.inStep
  have status : event.original.status = event.modified.status :=
    finalized.status.trans finalized.modified.symm
  rw [← ObjectSync.destinationList_eq_of_status finalized.status] at covers
  have tidy' := tidy.persisted finalized.agree inStep.found inStep.present covers
  dsimp only at inStep status tidy' ⊢
  rw [wp_bind]
  refine wp_imp ?_ (wp_serving_view
    (ObjectSyncController.wp_getGvk_alone event.modified.spec.source))
  rintro result next ⟨same, -⟩
  rw [← same] at inStep tidy'
  cases result with
  | error e => exact tidy'
  | ok currentGvk =>
    dsimp only
    refine wp_serving_memory fun middle same' _ => ?_
    rw [← same'] at inStep tidy'
    cases (next.system.memory.exec (.getInstance event.id)).1 with
    | none =>
      dsimp only
      rw [wp_bind]
      refine wp_imp ?_ wp_add_tidy
      intro _ added same''
      rw [← same''] at inStep tidy'
      have tracked := (Server.tracked_of_found inStep.found).trans
        (ObjectSync.destinationList_eq_of_status status)
      exact wp_imp (fun _ _ kept => kept.tidy)
        (wp_serving_view (wp_publish_tidy tidy' inStep tracked _))
    | some active =>
      dsimp only
      split
      · rw [wp_bind]
        refine wp_imp ?_ (wp_moveSource_tidy tidy' inStep status)
        rintro ⟨event', result⟩ left ⟨succeeded, tidy'', inStep', tracked⟩
        obtain rfl : result = .ok () := succeeded
        refine wp_serving_memory fun dropped same'' _ => ?_
        dsimp only at inStep' tracked
        rw [← same''] at tidy'' inStep' tracked
        exact wp_imp (fun _ _ kept => kept.tidy)
          (wp_serving_view (wp_publish_tidy tidy'' inStep' tracked _))
      · refine wp_serving_memory fun dropped same'' _ => ?_
        rw [← same''] at tidy'
        exact tidy'

/-- A call that reads ObjectSyncs or patches the one of some name. -/
def PatchesOnly (name : NamespacedName) : Call → Prop
  | .api (.getSync _) => True
  | .api (.jsonPatchSync target _) => target = name
  | _ => False

/-- A patch leaves what is tracked, or removes the ObjectSync. -/
theorem tracked_of_patched {server after : Server} {patch : ObjectSyncPatch}
    {reply : Except KubeError ObjectSync} (untracked : server.tracked o = [])
    (served : Served maker server (.jsonPatchSync o.name patch) reply after) :
    after.tracked o = [] := by
  obtain ⟨choice, eq⟩ := served
  have done := congrArg Prod.snd eq
  simp only [serve] at done
  split at done
  · rw [← done]
    exact untracked
  · rename_i current found
    rw [Server.tracked_of_found found] at untracked
    split at done
    · rw [← done, Server.tracked_of_found found]
      exact untracked
    · split at done
      · rw [← done, Server.tracked_of_found found]
        exact untracked
      · rw [← done, Server.tracked, writeSync_syncs, Function.update_self, found, Option.bind_some]
        unfold ObjectSync.settled
        split
        · rfl
        · exact untracked

/-- Removing the finalizer of an ObjectSync without tracked destinations keeps everything tidy, and
leaves the objects. -/
theorem wp_removeFinalizer_untracked {event : ObjectSyncModifications} (of : event.Of o)
    (tidy : areas.Tidy cluster.system.server) (untracked : cluster.system.server.tracked o = []) :
    (ObjectSyncController.removeFinalizer event).wp ((serving cache).under maker)
      (fun _ after => areas.Tidy after.system.server ∧
        after.system.server.objects = cluster.system.server.objects) cluster := by
  have address : event.address = o.name := of.addressed
  have shape := @ObjectSyncController.requests_removeFinalizer (PatchesOnly o.name) event trivial
    fun _ => address
  suffices kept : (ObjectSyncController.removeFinalizer event).wp ((serving cache).under maker)
      (fun _ after => True ∧ areas.Tidy after.system.server ∧
        after.system.server.objects = cluster.system.server.objects ∧
          after.system.server.tracked o = []) cluster from
    wp_imp (fun _ _ kept => ⟨kept.2.1, kept.2.2.1⟩) kept
  refine wp_serving_requests shape ?_ ⟨tidy, rfl, untracked⟩
  rintro before call reply after ⟨tidy', objects, untracked'⟩ only answered
  cases call with
  | api request =>
    have served : Served maker before.system.server request reply after.system.server :=
      answered.1.1
    have effect := Faulty.effect (.served served)
    cases request with
    | getSync name =>
      obtain ⟨choice, eq⟩ := served
      have same := congrArg Prod.snd eq
      have still : after.system.server = before.system.server := by
        simp only [serve] at same
        split at same <;> exact same.symm
      rw [still]
      exact ⟨tidy', objects, untracked'⟩
    | jsonPatchSync name patch =>
      obtain rfl : name = o.name := only
      have unchanged : after.system.server.objects = before.system.server.objects := by
        funext key
        refine effect.objects_eq ?_
        rintro ⟨⟩
      have now := tracked_of_patched untracked' served
      refine ⟨tidy'.untracked unchanged (fun name other => effect.syncs_eq fun hit => other ?_)
        untracked' now (effect.syncsPresent tidy'.present), unchanged.trans objects, now⟩
      exact (Option.some.inj hit).symm
    | _ => exact only.elim
  | _ => exact only.elim

/-- Deleting an ObjectSync leaves nothing in its area. -/
theorem wp_delete_tidy (tidy : areas.Tidy start.system.server)
    (found : start.system.server.syncs o.name = some sync) :
    (ObjectSyncController.delete (.new sync)).wp ((serving cache).under maker)
      (fun _ after => areas.Tidy after.system.server ∧
        ∀ key, areas.holds o key → after.system.server.objects key = none) start := by
  have inStep := inStep_new found (tidy.present _ _ found)
  unfold ObjectSyncController.delete ObjectSyncController.remove
  refine wp_serving_memory fun removed same _ => ?_
  rw [← same] at tidy inStep
  rw [wp_bind]
  refine wp_imp ?_ (wp_serving_view (wp_withdraw_tidy tidy inStep rfl))
  rintro ⟨event, result⟩ left ⟨succeeded, kept, untracked, inStep', -⟩
  obtain rfl : result = .ok () := succeeded
  dsimp only at inStep' ⊢
  rw [wp_bind]
  refine wp_imp ?_ (wp_serving_view (wp_releaseSource_tidy kept.tidy event))
  rintro result released ⟨tidy', syncs⟩
  have untracked' : released.system.server.tracked o = [] :=
    (Server.tracked_of_eq (congrFun syncs o.name)).trans untracked
  cases result with
  | error e => exact ⟨tidy', fun key inside => tidy'.empty untracked' inside⟩
  | ok =>
    dsimp only
    rw [wp_bind]
    refine wp_imp ?_ (wp_removeFinalizer_untracked inStep'.of tidy' untracked')
    rintro _ after ⟨tidy'', objects⟩
    refine ⟨tidy'', fun key inside => ?_⟩
    rw [objects]
    exact tidy'.empty untracked' inside

/-- Looking up reads the registered ObjectSyncs that still refer to the object. -/
theorem wp_lookup_tidy (controller : ResourceControllerImpl) (object : DynamicObject) :
    ((controller.lookupObjectSyncsForSource (.ofObject object)).label none).wp (serving cache)
      (fun value after => value = (start.lookedUp controller object).map (·.map .new) ∧
        after.system.server = start.system.server) start := by
  refine wp_mono ?_ ?_ ?_ ?_
    (@wp_lookup_protecting start (.check ⟨⟨"", ""⟩⟩) cache controller object)
  · exact fun _ _ => id
  · exact fun _ _ _ _ => id
  · exact fun _ _ _ _ _ _ => trivial
  · exact fun _ _ => id

/-- What a run works through is still on the server as it was read. -/
structure Pending (syncs : List ObjectSync) (server : Server) : Prop where
  distinct : (syncs.map ObjectSyncRef.ofSync).Nodup
  found : ∀ sync ∈ syncs, server.syncs (ObjectSyncRef.ofSync sync).name = some sync

/-- Work for the first of the ObjectSyncs leaves the others as they were read. -/
theorem Pending.rest {syncs : List ObjectSync} {server after : Server}
    (pending : Pending (sync :: syncs) server)
    (kept : areas.Kept (.ofSync sync) server after) : Pending syncs after := by
  have distinct := pending.distinct
  rw [List.map_cons, List.nodup_cons] at distinct
  refine ⟨distinct.2, fun other member => ?_⟩
  have apart : (ObjectSyncRef.ofSync other).name ≠ (ObjectSyncRef.ofSync sync).name := by
    intro same
    have identical : ObjectSyncRef.ofSync other = ObjectSyncRef.ofSync sync :=
      congrArg ObjectSyncRef.mk same
    exact distinct.1 (identical ▸ List.mem_map_of_mem member)
  rw [kept.others _ apart]
  exact pending.found other (List.mem_cons_of_mem _ member)

/-- The ObjectSyncs of some identities that refer to an object are among these. -/
theorem Server.referring_sublist (server : Server) (sourceRef : SourceRef)
    (refs : List ObjectSyncRef) :
    ((server.referring sourceRef refs).map ObjectSyncRef.ofSync).Sublist refs := by
  induction refs with
  | nil => exact List.Sublist.slnil
  | cons r refs ih =>
    by_cases refers : ∃ sync, server.syncs r.name = some sync ∧ SourceRef.ofSync sync = sourceRef
    · obtain ⟨sync, found, refers⟩ := refers
      have identity : ObjectSyncRef.ofSync sync = r := (server.syncNamed found).ofSync
      rw [Server.referring_cons found refers, List.map_cons, identity]
      exact ih.cons_cons r
    · rw [Server.referring_skip fun sync found same => refers ⟨sync, found, same⟩]
      exact ih.cons r

/-- What a run has looked up is on the server, refers to the object and is listed once. -/
theorem Cluster.pending_of_lookedUp {controller : ResourceControllerImpl} {object : DynamicObject}
    {syncs : List ObjectSync} (unique : cluster.system.memory.Unique)
    (looked : cluster.lookedUp controller object = some syncs) :
    Pending syncs cluster.system.server ∧
      ∀ sync ∈ syncs, SourceRef.ofSync sync = .ofObject object := by
  have listed : ∃ refs : List ObjectSyncRef, refs.Nodup ∧
      cluster.system.server.referring (.ofObject object) refs = syncs := by
    unfold Cluster.lookedUp at looked
    dsimp only at looked
    split at looked
    · split at looked
      · rename_i refs there
        split at looked
        · cases looked
        · exact ⟨refs, unique controller.sources _ refs there, Option.some.inj looked⟩
      · cases looked
    · cases looked
  obtain ⟨refs, distinct, rfl⟩ := listed
  refine ⟨⟨(cluster.system.server.referring_sublist _ refs).nodup distinct, ?_⟩, ?_⟩
  · intro sync member
    obtain ⟨name, found⟩ := Server.of_mem_referring member
    rw [(cluster.system.server.syncNamed found).ofSync]
    exact found
  · intro sync member
    obtain ⟨r, -, found⟩ := List.mem_filterMap.mp member
    exact of_decide_eq_true (Option.filter_eq_some_iff.mp found).2

/-- Deleting the destinations for all ObjectSyncs of a terminating source keeps everything tidy. -/
theorem wp_deleteAll_tidy {syncs : List ObjectSync} (tidy : areas.Tidy cluster.system.server)
    (pending : Pending syncs cluster.system.server) :
    (ResourceControllerImpl.deleteAll (syncs.map .new)).wp (serving cache)
      (fun _ after => areas.Tidy after.system.server) cluster := by
  induction syncs generalizing cluster with
  | nil => exact tidy
  | cons sync syncs ih =>
    have found := pending.found sync List.mem_cons_self
    have inStep := inStep_new found (tidy.present _ _ found)
    rw [List.map_cons, ResourceControllerImpl.deleteAll, wp_bind, wp_label]
    refine wp_imp ?_ (wp_serving_view (wp_withdraw_tidy tidy inStep rfl))
    rintro ⟨event, result⟩ middle ⟨-, kept, -⟩
    dsimp only
    rw [wp_bind]
    exact wp_imp (fun _ _ tidy' => tidy') (ih kept.tidy (pending.rest kept))

/-- Synchronizing all ObjectSyncs of a live source keeps everything tidy. -/
theorem wp_reconcileAll_tidy (controller : ResourceControllerImpl) (source : DynamicObject)
    {syncs : List ObjectSync} (tidy : areas.Tidy cluster.system.server)
    (pending : Pending syncs cluster.system.server)
    (within : ∀ sync ∈ syncs,
      ∀ target ∈ ResourceControllerImpl.expectedDestinations sync cache,
        areas.holds (.ofSync sync) (controller.expectedStatus target).key) :
    (controller.reconcileAll source (syncs.map .new)).wp (serving cache)
      (fun _ after => areas.Tidy after.system.server) cluster := by
  induction syncs generalizing cluster with
  | nil => exact tidy
  | cons sync syncs ih =>
    have found := pending.found sync List.mem_cons_self
    rw [List.map_cons, ResourceControllerImpl.reconcileAll, wp_bind, wp_label]
    refine wp_imp ?_ (wp_serving_view (wp_reconcileSource_tidy controller tidy found
      (within sync List.mem_cons_self)))
    intro _ middle kept
    exact ih kept.tidy (pending.rest kept) fun other member =>
      within other (List.mem_cons_of_mem _ member)

/-- Reconciling an object that fits the areas keeps everything tidy. -/
theorem wp_reconcile_tidy {controller : ResourceControllerImpl} {object : DynamicObject}
    (inOrder : areas.InOrder start)
    (permitted : areas.Permits start (.reconcile controller object)) :
    (controller.reconcile object).wp (serving start.cache)
      (fun _ after => areas.Tidy after.system.server) start := by
  obtain ⟨fits, within⟩ := permitted
  unfold ResourceControllerImpl.reconcile
  dsimp only
  rw [wp_bind]
  refine wp_imp ?_ (wp_lookup_tidy controller object)
  rintro _ now ⟨rfl, same⟩
  have tidy : areas.Tidy now.system.server := by
    rw [same]
    exact inOrder.tidy
  have releases (after : Cluster) (tidy : areas.Tidy after.system.server) :
      ((removeFinalizer (controller.namespacedApi (SourceRef.ofObject object).name.namespace_)
        (ensureGvk object controller.gvk) finalizer).label none).wp (serving start.cache)
        (fun _ last => areas.Tidy last.system.server) after := by
    rw [wp_label]
    exact wp_imp (fun _ _ kept => kept.1)
      (wp_serving_view (wp_removeFinalizer_cached tidy fits.owned))
  cases looked : start.lookedUp controller object with
  | none =>
    dsimp only [Option.map_none]
    split
    · rw [wp_bind]
      refine wp_imp ?_ (releases now tidy)
      rintro ⟨_, result⟩ after tidy'
      cases result <;> exact tidy'
    · exact tidy
  | some syncs =>
    obtain ⟨pending, refers⟩ := Cluster.pending_of_lookedUp inOrder.unique looked
    have pending' : Pending syncs now.system.server := by
      rw [same]
      exact pending
    dsimp only [Option.map_some]
    split
    · rw [wp_bind]
      refine wp_imp ?_ (wp_deleteAll_tidy tidy pending')
      intro all after tidy'
      split
      · rw [wp_bind]
        exact wp_imp (fun _ _ tidy'' => tidy'') (releases after tidy')
      · exact tidy'
    · have tracked (o : ObjectSyncRef)
          (inside : areas.holds o (controller.sourceKey (.ofObject object))) :
          controller.sourceKey (.ofObject object) ∈
            (now.system.server.tracked o).map (·.key) := by
        rw [same]
        exact fits.tracked o inside
      rw [wp_bind, wp_label]
      refine wp_imp ?_ (wp_serving_view
        (@wp_addFinalizerIfMissing_tidy _ _ none start.cache tidy
          (controller.namespacedApi (SourceRef.ofObject object).name.namespace_)
          (ensureGvk object controller.gvk) fits.named tracked))
      rintro ⟨source, _⟩ added ⟨tidy', syncs'⟩
      dsimp only
      rw [wp_bind]
      refine wp_imp (fun _ _ kept => kept) (wp_reconcileAll_tidy controller source tidy' ?_ ?_)
      · exact ⟨pending'.distinct,
          fun sync member => by rw [syncs']; exact pending'.found sync member⟩
      · intro sync member
        exact within _ sync (pending.found sync member) (refers sync member)

/-- Every permitted run keeps everything in order. -/
theorem Areas.InOrder.run {run : Run} {program : LabelledAsync Unit} {after : Cluster}
    (inOrder : areas.InOrder start) (starts : run.Starts start program)
    (permitted : areas.Permits start run)
    (returned : Returns Eq (Cluster.answers start.cache) program start () after) :
    areas.InOrder after := by
  refine ⟨?_, returned.meets (wp_unique inOrder.unique)⟩
  cases starts with
  | check found =>
    obtain ⟨_, tidy⟩ := meets_labelled returned (wp_check_tidy inOrder.tidy found)
    exact tidy
  | delete found =>
    obtain ⟨_, tidy, -⟩ := meets_labelled returned (wp_delete_tidy inOrder.tidy found)
    exact tidy
  | reconcile kind alive =>
    obtain ⟨_, tidy⟩ := meets_run returned (wp_reconcile_tidy inOrder permitted)
    exact tidy

/-- Every considerate edit leaves a cluster in order. -/
theorem Areas.InOrder.edit {before after : Cluster} (inOrder : areas.InOrder before)
    (edited : Edited before after) (considerate : areas.Considerate before after) :
    areas.InOrder after := by
  refine ⟨⟨fun o => ?_, ?_, considerate.settled, considerate.present⟩, ?_⟩
  · rw [considerate.tracked o]
    refine ⟨(inOrder.tidy.covers o).within, fun key stored inside found => ?_⟩
    obtain ⟨⟨old, was⟩, -⟩ := considerate.objects o key stored inside found
    exact (inOrder.tidy.covers o).all key old inside was
  · intro o key stored inside found
    exact (considerate.objects o key stored inside found).2
  · rw [edited.memory]
    exact inOrder.unique

/-- Everything is in order between the runs of any sequence from a controller that has just started.
-/
theorem Sequence.inOrder {after : Cluster} (empty : start.system.memory = Memory.empty)
    (tidy : areas.Tidy start.system.server)
    (sequence : Sequence areas.Permits areas.Considerate start after) : areas.InOrder after := by
  induction sequence with
  | start =>
    refine ⟨tidy, ?_⟩
    rw [empty]
    exact Memory.unique_of_empty
  | edit _ edited considerate ih => exact ih.edit edited considerate
  | run _ starts permitted returned ih => exact ih.run starts permitted returned

/-- **No orphaned copies.** In every sequence of runs that keep to the areas and considerate edits,
from a controller that has just started on a tidy server, all objects in the area of an ObjectSync
are among its persisted destinations; and a run of `delete` for an ObjectSync, whenever it is made,
leaves nothing in the area. -/
theorem no_orphaned_copies {before after : Cluster} {program : LabelledAsync Unit}
    (empty : start.system.memory = Memory.empty) (tidy : areas.Tidy start.system.server)
    (sequence : Sequence areas.Permits areas.Considerate start before)
    (starts : (Run.delete o).Starts before program)
    (returned : Returns Eq (Cluster.answers before.cache) program before () after) :
    (∀ other key stored, areas.holds other key → before.system.server.objects key = some stored →
        ∃ d ∈ before.system.server.tracked other, d.key = key) ∧
      ∀ key, areas.holds o key → after.system.server.objects key = none := by
  have inOrder := sequence.inOrder empty tidy
  constructor
  · intro other key stored inside found
    exact List.mem_map.mp ((inOrder.tidy.covers other).all key stored inside found)
  · cases starts with
    | delete found =>
      obtain ⟨_, -, gone⟩ := meets_labelled returned (wp_delete_tidy inOrder.tidy found)
      exact gone

end Runs

/-- The copies of the ObjectSync of the settings are made in one place. -/
def settingsAreas : Areas where
  holds o key := o = settingsRef ∧ key = settingsCopy
  apart held held' := held.1.trans held'.1.symm

/-- The server is tidy when the controller starts, as no copy has been made. -/
theorem settingsKinds_tidy : settingsAreas.Tidy settingsKinds := by
  have absent (o : ObjectSyncRef) (key : ObjectKey) (stored : Stored)
      (inside : settingsAreas.holds o key) : settingsKinds.objects key ≠ some stored := by
    rw [inside.2]
    exact nofun
  have untracked (o : ObjectSyncRef) : settingsKinds.tracked o = [] := by
    unfold Server.tracked
    cases found : settingsKinds.syncs o.name with
    | none => rfl
    | some sync =>
      have only := (settingsKinds_lone o.name sync found).1
      rw [only] at found
      have stored : some settingsSync = some sync := found
      rw [← Option.some.inj stored]
      rfl
  refine ⟨fun o => ?_, ?_, ?_, settingsKinds_present⟩
  · rw [untracked]
    exact ⟨nofun, fun key stored inside found => absurd found (absent o key stored inside)⟩
  · exact fun o key stored inside found => absurd found (absent o key stored inside)
  · intro key stored found
    by_cases same : key = configMaps.sourceKey (.ofObject settingsSource)
    · subst same
      have source : settingsKinds.objects (configMaps.sourceKey (.ofObject settingsSource)) =
        some ⟨settingsSource, none⟩ := by decide +kernel
      rw [source] at found
      rw [← Option.some.inj found]
      rfl
    · have missing : settingsKinds.objects key = none := Function.update_of_ne same ..
      rw [missing] at found
      cases found

/-- The copy that was made is deleted with its ObjectSync. -/
theorem settingsMarked_cleaned :
    (∃ d ∈ settingsMarked.system.server.tracked settingsRef, d.key = settingsCopy) ∧
      (settingsMarked.after (.delete settingsRef) "4").system.server.objects settingsCopy =
        none := by
  have lone := @Cluster.after_lone settingsRef (.restarted settingsKinds) settingsKinds_lone
    (.check settingsRef) "2"
  have permitted : settingsAreas.Permits ((Cluster.restarted settingsKinds).after
      (.check settingsRef) "2") (.reconcile configMaps settingsSource) := by
    refine ⟨⟨rfl, ?_, ?_⟩, ?_⟩
    · rintro o ⟨-, same⟩
      exact absurd same (by decide)
    · rintro o ⟨-, same⟩
      exact absurd same (by decide)
    · intro o sync found _ target expected
      have only := (lone o.name sync found).1
      have expands : (((Cluster.restarted settingsKinds).after
          (.check settingsRef) "2").system.server.syncs settingsRef.name).map
            (ResourceControllerImpl.expectedDestinations · settingsNamespaces) =
          some [("team", "settings", none)] := by decide +kernel
      rw [only] at found
      rw [found, Option.map_some] at expands
      have listed : ResourceControllerImpl.expectedDestinations sync settingsNamespaces =
        [("team", "settings", none)] := Option.some.inj expands
      have expected' : target ∈ ResourceControllerImpl.expectedDestinations sync
        settingsNamespaces := expected
      rw [listed, List.mem_singleton] at expected'
      rw [expected']
      exact ⟨congrArg ObjectSyncRef.mk only, rfl⟩
  have sequence : Sequence settingsAreas.Permits settingsAreas.Considerate
      (.restarted settingsKinds) settingsMarked :=
    (Sequence.start.after (by decide +kernel) trivial "2").after (by decide +kernel) permitted "3"
  have able : (Run.delete settingsRef).canStart settingsMarked = true := by decide +kernel
  have copied : (settingsMarked.system.server.objects settingsCopy).isSome := by decide +kernel
  obtain ⟨stored, there⟩ := Option.isSome_iff_exists.mp copied
  have cleaned := no_orphaned_copies rfl settingsKinds_tidy sequence (Run.starts able)
    (returns_run (fun _ => rfl)
      (fun world call => Cluster.answer_allowed _ (versioned "4") world call)
      _ settingsMarked)
  exact ⟨cleaned.1 settingsRef settingsCopy stored ⟨rfl, rfl⟩ there,
    cleaned.2 settingsCopy ⟨rfl, rfl⟩⟩

end ObjectSyncer
