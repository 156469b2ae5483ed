import ObjectSyncer.Sparing
import ObjectSyncer.Teardown

/-!
# The finalizer of a source with tracked copies

Every run decides from its own ObjectSyncs which objects it releases, while other ObjectSyncs may
designate the same objects as their sources. As long as each run starts in a state in which nobody
else depends on what it releases, the finalizer of a source stays while copies depend on it.
-/
namespace ObjectSyncer

open Interaction Interaction.Program

/-- The ObjectSyncs of some identities that refer to an object. -/
def Server.referring (server : Server) (sourceRef : SourceRef) (refs : List ObjectSyncRef) :
    List ObjectSync :=
  refs.filterMap fun r =>
    (server.syncs r.name).filter fun sync => SourceRef.ofSync sync = sourceRef

section Referring

variable {server : Server} {sourceRef : SourceRef} {r : ObjectSyncRef} {refs : List ObjectSyncRef}

/-- An ObjectSync that refers to the object is among those that are read. -/
theorem Server.referring_cons {sync : ObjectSync} (found : server.syncs r.name = some sync)
    (refers : SourceRef.ofSync sync = sourceRef) :
    server.referring sourceRef (r :: refs) = sync :: server.referring sourceRef refs := by
  refine List.filterMap_cons_some ?_
  rw [found]
  exact if_pos (decide_eq_true refers)

/-- An ObjectSync that is missing or refers to another object is not among those that are read. -/
theorem Server.referring_skip
    (skips : ∀ sync, server.syncs r.name = some sync → SourceRef.ofSync sync ≠ sourceRef) :
    server.referring sourceRef (r :: refs) = server.referring sourceRef refs := by
  refine List.filterMap_cons_none ?_
  cases found : server.syncs r.name with
  | none => rfl
  | some sync => exact if_neg (mt of_decide_eq_true (skips sync found))

/-- What refers to an object is on the server. -/
theorem Server.of_mem_referring {sync : ObjectSync}
    (member : sync ∈ server.referring sourceRef refs) :
    ∃ name, server.syncs name = some sync := by
  obtain ⟨r, -, found⟩ := List.mem_filterMap.mp member
  exact ⟨r.name, (Option.filter_eq_some_iff.mp found).1⟩

end Referring

/-- The ObjectSyncs that a run for an object looks up, none when nothing is registered for it. -/
def Cluster.lookedUp (cluster : Cluster) (controller : ResourceControllerImpl)
    (object : DynamicObject) : Option (List ObjectSync) :=
  let sourceRef := SourceRef.ofObject object
  if controller.isSourceNamespace sourceRef.name.namespace_ then
    match (cluster.system.memory.sources controller.sources).lookup sourceRef with
    | some refs =>
      if refs.isEmpty then none
      else some (cluster.system.server.referring sourceRef refs)
    | none => none
  else none

/-- What a run looks up is on the server. -/
theorem Cluster.of_mem_lookedUp {cluster : Cluster} {controller : ResourceControllerImpl}
    {object : DynamicObject} {syncs : List ObjectSync} {sync : ObjectSync}
    (looked : cluster.lookedUp controller object = some syncs) (member : sync ∈ syncs) :
    ∃ name, cluster.system.server.syncs name = some sync := by
  unfold lookedUp at looked
  dsimp only at looked
  split at looked
  · split at looked
    · split at looked
      · cases looked
      · rw [← Option.some.inj looked] at member
        exact Server.of_mem_referring member
    · cases looked
  · cases looked

/-- The objects other than its own source from which a run may take the finalizer. -/
inductive Cluster.Releases (cluster : Cluster) : Run → ObjectKey → Prop
  /-- `check` deletes the tracked destinations when the source has changed. -/
  | moved {o : ObjectSyncRef} {sync : ObjectSync} {inst : ObjectSyncInstance}
      {gvk : GroupVersionKind} {d : DestinationStatus} :
      cluster.system.server.syncs o.name = some sync →
      cluster.system.server.discovered sync.spec.source = some gvk →
      cluster.system.memory.instances o = some inst → inst.sourceChanged sync gvk = true →
      d ∈ sync.destinationList → Releases cluster (.check o) d.key
  /-- `delete` deletes the tracked destinations. -/
  | deleted {o : ObjectSyncRef} {sync : ObjectSync} {d : DestinationStatus} :
      cluster.system.server.syncs o.name = some sync → d ∈ sync.destinationList →
      Releases cluster (.delete o) d.key
  /-- `delete` releases the source. -/
  | source {o : ObjectSyncRef} {sync : ObjectSync} {gvk : GroupVersionKind} :
      cluster.system.server.syncs o.name = some sync →
      cluster.system.server.discovered sync.spec.source = some gvk →
      Releases cluster (.delete o)
        (DynamicApi.key ⟨gvk, sync.sourceNamespace.getD ""⟩ sync.sourceName)
  /-- `reconcile` deletes the tracked destinations of a terminating source. -/
  | cleared {controller : ResourceControllerImpl} {object : DynamicObject}
      {syncs : List ObjectSync} {sync : ObjectSync} {d : DestinationStatus} :
      cluster.lookedUp controller object = some syncs → sync ∈ syncs →
      object.metadata.terminating = true → d ∈ sync.destinationList →
      Releases cluster (.reconcile controller object) d.key
  /-- `reconcile` deletes the stale destinations of a live source. -/
  | stale {controller : ResourceControllerImpl} {object : DynamicObject}
      {syncs : List ObjectSync} {sync : ObjectSync} {d : DestinationStatus} :
      cluster.lookedUp controller object = some syncs → sync ∈ syncs →
      object.metadata.terminating = false →
      d ∈ (controller.splitDestinations
        (ResourceControllerImpl.expectedDestinations sync cluster.cache) sync.destinationList).2 →
      Releases cluster (.reconcile controller object) d.key
  /-- `reconcile` releases a terminating object before it makes a copy in its place. -/
  | renewed {controller : ResourceControllerImpl} {object : DynamicObject}
      {syncs : List ObjectSync} {sync : ObjectSync}
      {target : String × String × Option SyncStrategy} :
      cluster.lookedUp controller object = some syncs → sync ∈ syncs →
      object.metadata.terminating = false →
      target ∈ ResourceControllerImpl.expectedDestinations sync cluster.cache →
      cluster.system.server.Terminating (controller.expectedStatus target).key →
      Releases cluster (.reconcile controller object) (controller.expectedStatus target).key

/-- A run for an object releases it: it is terminating, or nothing is registered for it and it is no
copy. -/
def Cluster.ReleasesSource (cluster : Cluster) (controller : ResourceControllerImpl)
    (object : DynamicObject) : Prop :=
  object.metadata.terminating = true ∨ cluster.lookedUp controller object = none ∧
    ResourceControllerImpl.isCopy object = false

/-- A run may write the status of an ObjectSync. -/
def Cluster.Writes (cluster : Cluster) : Run → NamespacedName → Prop
  | .check o, name | .delete o, name => name = o.name
  | .reconcile controller object, name => ∃ syncs, cluster.lookedUp controller object = some syncs ∧
    ∃ sync ∈ syncs, cluster.system.server.syncs name = some sync

/-- Nobody else depends on what a run releases. -/
structure Cluster.Independent (cluster : Cluster) (run : Run) : Prop where
  /-- No object that it releases is the source of an ObjectSync with persisted destinations, or of
  one that it synchronizes itself. -/
  released : ∀ key, cluster.Releases run key →
    ¬cluster.system.server.Protects run (cluster.Writes run) key
  /-- When it releases its source, all that depend on it are among those it has looked up. -/
  source : ∀ controller object, run = .reconcile controller object →
    cluster.ReleasesSource controller object → ∀ name,
      cluster.system.server.DependsOn name (controller.sourceKey (.ofObject object)) →
        cluster.Writes run name

section Runs

variable {cluster start : Cluster} {o : ObjectSyncRef} {sync : ObjectSync} {run : Run}
  {maker : Option ObjectSyncRef} {cache : List Namespace}

/-- An operation on the memory leaves the server. -/
theorem wp_protecting_memory {α : Type} {op : MemoryOp} {next : MemoryReply op → Async α}
    {post : α → Cluster → Prop}
    (step : ∀ after : Cluster, after.system.server = cluster.system.server →
      (next (cluster.system.memory.exec op).1).wp ((protecting run cache).under maker) post after) :
    (Async.memory op >>= next).wp ((protecting run cache).under maker) post cluster := by
  rw [wp_memory]
  rintro _ rfl reply after ⟨⟨replied, same⟩, -⟩
  refine ⟨keepsFinalizers_of_eq same, ?_⟩
  have value : (cluster.system.memory.exec op).1 = reply := congrArg Prod.fst replied
  rw [← value]
  exact step after same

/-- Removing an ObjectSync from the memory. -/
theorem wp_protecting_remove {α : Type} {event : ObjectSyncModifications}
    {next : Option GroupVersionKind → Async α} {post : α → Cluster → Prop}
    (step : ∀ value (after : Cluster), after.system.server = cluster.system.server →
      (next value).wp ((protecting run cache).under maker) post after) :
    (ObjectSyncController.remove event >>= next).wp ((protecting run cache).under maker) post
      cluster := by
  unfold ObjectSyncController.remove
  exact wp_protecting_memory fun after same => step _ after same

/-- Adding an ObjectSync to the memory. -/
theorem wp_protecting_add {event : ObjectSyncModifications} {gvk : GroupVersionKind} :
    (ObjectSyncController.add event gvk).wp ((protecting run cache).under maker)
      (fun _ after => after.system.server = cluster.system.server) cluster := by
  unfold ObjectSyncController.add
  refine wp_protecting_memory fun first same => ?_
  refine wp_protecting_memory fun second same' => ?_
  refine @wp_protecting_memory _ _ _ _ _ _ (fun _ => pure ()) _ fun third same'' => ?_
  exact same''.trans (same'.trans same)

/-- A working copy of an ObjectSync has its identity. -/
theorem WorksOn.id {event : ObjectSyncModifications} {server : Server}
    (found : server.syncs o.name = some sync) (works : WorksOn o.name sync event) :
    event.id = o := by
  have address := works.address
  have namespace_ := (server.syncNamed found).2
  unfold ObjectSyncModifications.address at address
  unfold ObjectSyncModifications.id ObjectSyncRef.ofSync
  have name : event.modified.metadata.nameAny = o.name.name := congrArg NamespacedName.name address
  rw [works.namespace_, namespace_, name]
  rfl

/-- Whether the source has changed depends on the specification and the namespace. -/
theorem WorksOn.sourceChanged {event : ObjectSyncModifications}
    (works : WorksOn o.name sync event) (inst : ObjectSyncInstance) (gvk : GroupVersionKind) :
    inst.sourceChanged event.modified gvk = inst.sourceChanged sync gvk := by
  simp only [ObjectSyncInstance.sourceChanged, ObjectSync.sourceNamespace, works.spec,
    works.namespace_]

/-- Checking an ObjectSync keeps the finalizers of what others depend on. -/
theorem wp_check_protecting (found : start.system.server.syncs o.name = some sync)
    (independent : start.Independent (.check o)) :
    (ObjectSyncController.check (.new sync)).wp
      ((protecting (.check o) start.cache).under (some o)) (fun _ _ => True) start := by
  have written : start.Writes (.check o) o.name := rfl
  unfold ObjectSyncController.check
  rw [wp_bind]
  -- Nothing is written and nothing is released until the instance is known.
  refine wp_imp ?_ (wp_sparing (fun _ _ => trivial) (addFinalizerIfMissing_sparing found)
    (.refl _ (fun _ => True) fun _ => False) (some o))
  rintro ⟨event, result⟩ now ⟨⟨works, listed⟩, under, memory⟩
  cases result with
  | error e => trivial
  | ok =>
    dsimp only at works listed ⊢
    rw [works.spec, wp_bind]
    refine wp_imp ?_ (wp_sparing (fun _ _ => trivial) (getGvk_sparing sync.spec.source) under
      (some o))
    rintro result now ⟨discovered, under, memory'⟩
    cases result with
    | error e => trivial
    | ok gvk =>
      have discovered := discovered gvk rfl
      have under' : Under start.system.server (start.system.server.Protects (.check o)
          (start.Writes (.check o))) (start.Writes (.check o)) now.system.server :=
        under.mono (fun _ _ => trivial) fun _ => False.elim
      dsimp only
      refine wp_protecting_memory fun now' same => ?_
      rw [works.id found, memory', memory]
      rw [← same] at under'
      rw [Memory.exec_getInstance]
      cases registered : start.system.memory.instances o with
      | none =>
        dsimp only
        rw [wp_bind]
        refine wp_imp ?_ wp_protecting_add
        intro _ after same'
        rw [← same'] at under'
        exact wp_imp (fun _ _ _ => trivial) (wp_sparing (fun _ => id)
          (publish_sparing found written works _) under' (some o))
      | some active =>
        dsimp only
        rw [works.sourceChanged]
        split
        · rename_i changed
          rw [wp_bind]
          unfold ObjectSyncController.moveSource
          refine wp_protecting_remove fun _ removed same' => ?_
          rw [← same'] at under'
          rw [wp_bind]
          refine wp_imp ?_ (wp_sparing (fun _ => id) (deleteDestinations_sparing found written works
            fun d member => independent.released d.key (.moved found discovered registered changed
              (listed id ▸ member))) under' (some o))
          rintro ⟨event', result⟩ left ⟨works', under', _⟩
          cases result with
          | error e => exact @wp_protecting_memory _ _ _ _ _ _ _ _ fun _ _ => trivial
          | ok =>
            dsimp only at works' ⊢
            rw [wp_bind]
            refine wp_imp ?_ wp_protecting_add
            intro _ added same'
            rw [← same'] at under'
            refine wp_protecting_memory fun dropped same'' => ?_
            rw [← same''] at under'
            exact wp_imp (fun _ _ _ => trivial) (wp_sparing (fun _ => id)
              (publish_sparing found written works' _) under' (some o))
        · exact wp_protecting_memory fun _ _ => trivial

/-- Deleting an ObjectSync keeps the finalizers of what others depend on. -/
theorem wp_delete_protecting (found : start.system.server.syncs o.name = some sync)
    (independent : start.Independent (.delete o)) :
    (ObjectSyncController.delete (.new sync)).wp
      ((protecting (.delete o) start.cache).under (some o)) (fun _ _ => True) start := by
  have written : start.Writes (.delete o) o.name := rfl
  unfold ObjectSyncController.delete
  refine wp_protecting_remove fun _ removed same => ?_
  have under : Under start.system.server (start.system.server.Protects (.delete o)
      (start.Writes (.delete o))) (start.Writes (.delete o)) removed.system.server := by
    rw [same]
    exact .refl ..
  rw [wp_bind]
  refine wp_imp ?_ (wp_sparing (fun _ => id) (deleteDestinations_sparing found written
    (worksOn_new found) fun d member => independent.released d.key (.deleted found member))
    under (some o))
  rintro ⟨event, result⟩ left ⟨works, under, _⟩
  cases result with
  | error e => trivial
  | ok =>
    dsimp only at works ⊢
    rw [wp_bind]
    refine wp_imp ?_ (wp_sparing (fun _ => id) (releaseSource_sparing works fun gvk discovered =>
      independent.released _ (.source found discovered)) under (some o))
    rintro result left ⟨_, under, _⟩
    cases result with
    | error e => trivial
    | ok =>
      dsimp only
      rw [wp_bind]
      exact wp_imp (fun _ _ _ => trivial) (wp_sparing (fun _ => id)
        (removeFinalizer_sparing found works) under (some o))

end Runs

/-! ## Reconciling an object -/

section Draining

variable {server middle after : Server} {name : NamespacedName} {o : ObjectSyncRef}
  {maker : Option ObjectSyncRef} {cache : List Namespace}

/-- Persisted lists of destinations have at most become empty. -/
def Server.Drains (before after : Server) : Prop :=
  ∀ name sync, after.syncs name = some sync → ∃ former, before.syncs name = some former ∧
    (sync.destinationList = former.destinationList ∨ sync.destinationList = [])

/-- An ObjectSync has no persisted destinations left. -/
def Server.Emptied (server : Server) (name : NamespacedName) : Prop :=
  ∀ sync, server.syncs name = some sync → sync.destinationList = []

/-- Where no ObjectSync has changed, nothing but destination lists has been emptied. -/
theorem Server.Drains.of_eq (same : after.syncs = server.syncs) : server.Drains after :=
  fun _ sync found => ⟨sync, same ▸ found, .inl rfl⟩

/-- Lists become empty one after the other. -/
theorem Server.Drains.trans (first : server.Drains middle) (second : middle.Drains after) :
    server.Drains after := by
  intro name sync found
  obtain ⟨between, there, now⟩ := second name sync found
  obtain ⟨former, was, earlier⟩ := first name between there
  refine ⟨former, was, ?_⟩
  rcases now with kept | empty
  · rw [kept]
    exact earlier
  · exact .inr empty

/-- A destination list that is empty stays empty. -/
theorem Server.Emptied.drains (empty : server.Emptied name) (drains : server.Drains after) :
    after.Emptied name := by
  intro sync found
  obtain ⟨former, was, kept | gone⟩ := drains name sync found
  · rw [kept, empty former was]
  · exact gone

/-- A status without destinations empties the list if it is written. -/
theorem StatusWritten.drains {body : ObjectSync} {reply : Except KubeError ObjectSync}
    (write : StatusWritten server name body reply after) (empty : body.destinationList = []) :
    server.Drains after ∧ ∀ written, reply = .ok written → after.Emptied name := by
  rcases write with ⟨rfl, failed⟩ | ⟨choice, current, there, -, rfl, -⟩
  · exact ⟨.of_eq rfl, fun written same => absurd same (failed written)⟩
  · have left (sync : ObjectSync) (found : (server.writeSync name (choice.withStatus · body)
        fun _ => ⟨rfl, rfl⟩).syncs name = some sync) : sync.destinationList = [] := by
      rw [Server.writeSync_syncs, Function.update_self, there, Option.bind_some] at found
      unfold ObjectSync.settled at found
      split at found
      · cases found
      · rw [← Option.some.inj found, ← empty]
        exact ObjectSync.destinationList_eq_of_status rfl
    refine ⟨fun other sync found => ?_, fun _ _ => left⟩
    by_cases same : other = name
    · subst same
      exact ⟨current, there, .inr (left sync found)⟩
    · rw [Server.writeSync_syncs, Function.update_of_ne same] at found
      exact ⟨sync, found, .inl rfl⟩

/-- Writing a status without destinations empties the list at most. -/
theorem wp_replaceStatus_drains {event : ObjectSyncModifications} (address : event.address = o.name)
    (empty : event.modified.destinationList = [])
    (known : ∀ sync, server.syncs o.name = some sync →
      sync.destinationList = event.original.destinationList ∨ sync.destinationList = []) :
    event.replaceStatus.wp (alone maker cache fun _ => True)
      (fun value after => server.Drains after ∧ (value.2 = .ok () → after.Emptied o.name))
      server := by
  unfold ObjectSyncModifications.replaceStatus
  split
  · unfold ObjectSyncModifications.latest
    rw [address, wp_api]
    rintro _ rfl reply middle ⟨⟨choice, served⟩, -⟩
    have same : middle = server := by
      simp only [Server.serve] at served
      split at served <;> exact (congrArg Prod.snd served).symm
    subst same
    refine ⟨trivial, ?_⟩
    cases reply with
    | error e => exact ⟨.of_eq rfl, fun same => by cases same⟩
    | ok latest =>
      dsimp only
      rw [wp_bind]
      unfold ObjectSyncModifications.replaceStatusWith
      dsimp only
      rw [ObjectSyncModifications.address_withResourceVersion, address, wp_api]
      rintro _ rfl reply after ⟨served, -⟩
      have wrote := (Served.statusWritten served).drains empty
      refine ⟨trivial, ?_⟩
      cases reply with
      | error e => exact ⟨wrote.1, fun same => by cases same⟩
      | ok written => exact ⟨wrote.1, fun _ => wrote.2 written rfl⟩
  · rename_i unchanged
    have same : event.original.status = event.modified.status := by
      simpa [ObjectSyncModifications.statusHasChanged] using unchanged
    have listed : event.original.destinationList = [] :=
      (ObjectSync.destinationList_eq_of_status same).trans empty
    refine ⟨.of_eq rfl, fun _ sync found => ?_⟩
    exact (known sync found).elim (·.trans listed) fun gone => gone

/-- Deleting the tracked destinations of an ObjectSync that was read empties its list, and no other
list changes. -/
theorem wp_deleteDestinations_drains {sync : ObjectSync} (identity : ObjectSyncRef.ofSync sync = o)
    (known : ∀ current, server.syncs o.name = some current →
      current.destinationList = sync.destinationList ∨ current.destinationList = []) :
    (ObjectSyncController.deleteDestinations (.new sync)).wp (alone maker cache fun _ => True)
      (fun value after => server.Drains after ∧ (value.2 = .ok () → after.Emptied o.name))
      server := by
  unfold ObjectSyncController.deleteDestinations
  cases tracked : (ObjectSyncModifications.new sync).modified.statusDestinations with
  | none =>
    have listed : sync.destinationList = [] := by
      rw [ObjectSync.destinationList]
      exact congrArg (·.getD []) tracked
    exact ⟨.of_eq rfl, fun _ current found => (known current found).elim (·.trans listed) id⟩
  | some destinations =>
    dsimp only
    rw [wp_bind]
    refine wp_imp ?_ (wp_deleteDestinations_alone destinations)
    rintro _ middle ⟨rfl, clears⟩
    have unwritten := clears.agree.syncs
    dsimp only
    rw [wp_bind]
    unfold ObjectSyncModifications.updateCondition
    rw [wp_clock]
    rintro _ rfl time after ⟨same, -⟩
    have same : after = middle := same
    subst same
    refine ⟨trivial, ?_⟩
    rw [pure_eq, wp_done, wp_bind]
    refine wp_imp ?_ (@wp_replaceStatus_drains after o maker cache _
      (congrArg ObjectSyncRef.name identity)
      (ObjectSync.updateDestinations_destinationList ..) (unwritten ▸ known))
    rintro ⟨event, result⟩ last ⟨drains, empties⟩
    have drains' : server.Drains last := (Server.Drains.of_eq unwritten).trans drains
    cases result with
    | error e => exact ⟨drains', fun same => by cases same⟩
    | ok =>
      dsimp only
      split
      · exact ⟨drains', fun same => by cases same⟩
      · exact ⟨drains', fun _ => empties rfl⟩

end Draining

section Runs

variable {cluster start : Cluster} {run : Run} {maker : Option ObjectSyncRef}
  {cache : List Namespace}

/-- Fetching reads the ObjectSyncs that still refer to the object. -/
theorem wp_fetch_protecting (sourceRef : SourceRef) (refs : List ObjectSyncRef) :
    (ResourceControllerImpl.fetchObjectSyncs sourceRef refs).wp ((protecting run cache).under maker)
      (fun objs after => objs = (cluster.system.server.referring sourceRef refs).map .new ∧
        after.system.server = cluster.system.server) cluster := by
  induction refs generalizing cluster with
  | nil => exact ⟨rfl, rfl⟩
  | cons r refs ih =>
    unfold ResourceControllerImpl.fetchObjectSyncs ResourceControllerImpl.getObjectSync
    rw [wp_bind, wp_api]
    rintro _ rfl reply after ⟨⟨⟨choice, served⟩, -⟩, -⟩
    have further := @ih after
    have same : after.system.server = cluster.system.server := by
      simp only [Server.serve] at served
      split at served <;> exact (congrArg Prod.snd served).symm
    rw [same] at further
    refine ⟨keepsFinalizers_of_eq same, ?_⟩
    have value : (cluster.system.server.serve maker choice (.getSync r.name)).1 = reply :=
      congrArg Prod.fst served
    simp only [Server.serve] at value
    cases found : cluster.system.server.syncs r.name with
    | none =>
      simp only [found] at value
      rw [← value, Server.referring_skip fun sync there => by rw [found] at there; cases there]
      exact further
    | some sync =>
      simp only [found] at value
      rw [← value]
      dsimp only
      rw [pure_eq, wp_done]
      dsimp only
      by_cases current : SourceRef.ofSync (ObjectSyncModifications.new sync).modified = sourceRef
      · rw [if_pos current, wp_bind, Server.referring_cons found current]
        refine wp_imp (fun objs last fetched => ?_) further
        exact ⟨congrArg (.new sync :: ·) fetched.1, fetched.2⟩
      · rw [if_neg current, Server.referring_skip fun other there => by
          rw [← Option.some.inj (found.symm.trans there)]
          exact current]
        exact further

/-- Looking up reads the registered ObjectSyncs that still refer to the object. -/
theorem wp_lookup_protecting (controller : ResourceControllerImpl) (object : DynamicObject) :
    ((controller.lookupObjectSyncsForSource (.ofObject object)).label none).wp
      (protecting run cache)
      (fun value after => value = (start.lookedUp controller object).map (·.map .new) ∧
        after.system.server = start.system.server) start := by
  rw [wp_label]
  unfold ResourceControllerImpl.lookupObjectSyncsForSource Cluster.lookedUp
  dsimp only
  split
  · refine wp_protecting_memory fun read same => ?_
    have replied : (start.system.memory.exec (.lookup controller.sources (.ofObject object))).1 =
        (start.system.memory.sources controller.sources).lookup (.ofObject object) := rfl
    rw [replied, ← same]
    cases (start.system.memory.sources controller.sources).lookup (.ofObject object) with
    | none => exact ⟨rfl, rfl⟩
    | some refs =>
      dsimp only
      split
      · exact ⟨rfl, rfl⟩
      · rw [wp_bind]
        refine wp_imp (fun objs after fetched => ?_) (wp_fetch_protecting _ refs)
        exact ⟨congrArg some fetched.1, fetched.2⟩
  · exact ⟨rfl, rfl⟩

/-- What the deletion for an ObjectSync of a terminating source keeps and empties. -/
theorem wp_sourceDeleted_protecting {sync : ObjectSync} {o : ObjectSyncRef}
    {writes : NamespacedName → Prop} {first : Server}
    (found : first.syncs o.name = some sync) (written : writes o.name)
    (free : ∀ d ∈ sync.destinationList, ¬first.Protects run writes d.key)
    (under : Under first (first.Protects run writes) writes cluster.system.server)
    (drains : first.Drains cluster.system.server) :
    ((ResourceControllerImpl.sourceDeleted (.new sync)).label (some o)).wp (protecting run cache)
      (fun value after => Under first (first.Protects run writes) writes after.system.server ∧
        cluster.system.server.Drains after.system.server ∧
        (value.2 = .ok () → after.system.server.Emptied o.name)) cluster := by
  have known (current : ObjectSync) (there : cluster.system.server.syncs o.name = some current) :
      current.destinationList = sync.destinationList ∨ current.destinationList = [] := by
    obtain ⟨former, was, kept⟩ := drains o.name current there
    rw [found] at was
    rw [Option.some.inj was]
    exact kept
  have spares := wp_sparing (fun _ => id) (@deleteDestinations_sparing _ _ _ cache _ _ _ found
    written (worksOn_new found) free) under (some o)
  have drained := @wp_deleteDestinations_drains cluster.system.server o (some o) cache _
    (first.syncNamed found).ofSync known
  have empties := @wp_view _ _ _ _ _ ((protecting run cache).under (some o)) (·.system.server)
    (alone (some o) cache fun _ => True) _ _ cluster (fun _ _ same => same ▸ rfl)
    (fun _ _ _ _ answered => ⟨System.server_of_answered answered.1, answered.2.1, trivial⟩) drained
  rw [wp_label]
  refine wp_mono ?_ ?_ ?_ ?_ (wp_and spares empties)
  · exact fun _ _ => id
  · exact fun _ _ _ _ => id
  · exact fun _ _ _ _ _ kept => kept.1
  · exact fun _ _ kept => ⟨kept.1.2.1, kept.2⟩

/-- When the destinations of all ObjectSyncs of a terminating source were deleted, none of them has
any left. -/
theorem wp_deleteAll_protecting {syncs : List ObjectSync} {writes : NamespacedName → Prop}
    {first : Server}
    (each : ∀ sync ∈ syncs, first.syncs (ObjectSyncRef.ofSync sync).name = some sync ∧
      writes (ObjectSyncRef.ofSync sync).name ∧
      ∀ d ∈ sync.destinationList, ¬first.Protects run writes d.key)
    (under : Under first (first.Protects run writes) writes cluster.system.server)
    (drains : first.Drains cluster.system.server) :
    (ResourceControllerImpl.deleteAll (syncs.map .new)).wp (protecting run cache)
      (fun all after => Under first (first.Protects run writes) writes after.system.server ∧
        cluster.system.server.Drains after.system.server ∧ (all = true → ∀ sync ∈ syncs,
          after.system.server.Emptied (ObjectSyncRef.ofSync sync).name)) cluster := by
  induction syncs generalizing cluster with
  | nil => exact ⟨under, .of_eq rfl, fun _ _ member => absurd member List.not_mem_nil⟩
  | cons sync syncs ih =>
    obtain ⟨found, written, free⟩ := each sync List.mem_cons_self
    rw [List.map_cons, ResourceControllerImpl.deleteAll, wp_bind]
    refine wp_imp ?_ (wp_sourceDeleted_protecting found written free under drains)
    rintro ⟨_, result⟩ middle ⟨under', drains', emptied⟩
    dsimp only
    rw [wp_bind]
    refine wp_imp ?_ (ih (fun other member => each other (List.mem_cons_of_mem _ member)) under'
      (drains.trans drains'))
    rintro all after ⟨under'', drains'', rest⟩
    refine ⟨under'', drains'.trans drains'', fun succeeded other member => ?_⟩
    obtain ⟨ok, all'⟩ := Bool.and_eq_true_iff.mp succeeded
    rcases List.mem_cons.mp member with rfl | later
    · cases result with
      | error e => cases ok
      | ok => exact (emptied rfl).drains drains''
    · exact rest all' other later

section Reconcile

variable {controller : ResourceControllerImpl} {object : DynamicObject} {syncs : List ObjectSync}

/-- The finalizer of an object may be removed once nobody depends on it. -/
theorem wp_release_protecting (apart : ∀ name, ¬cluster.system.server.DependsOn name
    (controller.sourceKey (.ofObject object))) :
    ((removeFinalizer (controller.namespacedApi (SourceRef.ofObject object).name.namespace_)
      (ensureGvk object controller.gvk) finalizer).label none).wp
      (protecting (.reconcile controller object) cache) (fun _ _ => True) cluster := by
  have free : ¬cluster.system.server.Protects (.reconcile controller object) (fun _ => False)
      (controller.sourceKey (.ofObject object)) := by
    rintro ⟨name, sync, found, designates, -, tracked⟩
    exact apart name ⟨sync, found, designates, tracked.resolve_right id⟩
  rw [wp_label]
  exact wp_imp (fun _ _ _ => trivial) (wp_sparing (fun _ => id)
    (wp_learning (requests_removeFinalizer (controller.namespacedApi _)
      (ensureGvk object controller.gvk) finalizer fun _ => free)) (.refl ..) none)

/-- The ObjectSyncs that a run has looked up are those it writes. -/
theorem Cluster.writes_of_mem_lookedUp (looked : start.lookedUp controller object = some syncs)
    {sync : ObjectSync} (member : sync ∈ syncs) :
    start.system.server.syncs (ObjectSyncRef.ofSync sync).name = some sync ∧
      start.Writes (.reconcile controller object) (ObjectSyncRef.ofSync sync).name := by
  obtain ⟨name, found⟩ := Cluster.of_mem_lookedUp looked member
  rw [(start.system.server.syncNamed found).ofSync]
  exact ⟨found, syncs, looked, sync, member, found⟩

/-- Once the ObjectSyncs that were looked up have no destinations left, nobody depends on the
terminating source. -/
theorem Cluster.Independent.apart (independent : start.Independent (.reconcile controller object))
    (terminating : object.metadata.terminating = true)
    (looked : start.lookedUp controller object = some syncs)
    {protects : ObjectKey → Prop} {writes : NamespacedName → Prop} {after : Server}
    (under : Under start.system.server protects writes after)
    (drains : start.system.server.Drains after)
    (emptied : ∀ sync ∈ syncs, after.Emptied (ObjectSyncRef.ofSync sync).name)
    (name : NamespacedName) :
    ¬after.DependsOn name (controller.sourceKey (.ofObject object)) := by
  rintro ⟨sync, found, designates, tracked⟩
  obtain ⟨former, was, spec, namespace_, -⟩ := under.syncs name sync found
  obtain ⟨former', was', kept⟩ := drains name sync found
  rw [was] at was'
  obtain rfl := Option.some.inj was'
  have depended : start.system.server.DependsOn name
      (controller.sourceKey (.ofObject object)) := by
    refine ⟨former, was, ?_, (kept.resolve_right tracked) ▸ tracked⟩
    rw [← designates]
    exact (ObjectSync.sourceKey_eq spec namespace_).symm
  obtain ⟨syncs', looked', other, member, found'⟩ :=
    independent.source controller object rfl (.inl terminating) name depended
  rw [looked] at looked'
  obtain rfl := Option.some.inj looked'
  have empty := emptied other member
  rw [(start.system.server.syncNamed found').ofSync] at empty
  exact tracked (empty sync found)

/-- Synchronizing the ObjectSyncs of a live source keeps the finalizers of what others depend on. -/
theorem wp_reconcileAll_protecting (independent : start.Independent (.reconcile controller object))
    (live : object.metadata.terminating = false)
    (looked : start.lookedUp controller object = some syncs) (source : DynamicObject)
    (under : Under start.system.server (start.system.server.Protects (.reconcile controller object)
      (start.Writes (.reconcile controller object))) (start.Writes (.reconcile controller object))
      cluster.system.server) :
    (controller.reconcileAll source (syncs.map .new)).wp
      (protecting (.reconcile controller object) start.cache) (fun _ _ => True) cluster := by
  refine wp_imp (fun _ _ _ => trivial) (@ResourceControllerImpl.wp_reconcileAll _ _
    (fun now => Under start.system.server (start.system.server.Protects
      (.reconcile controller object) (start.Writes (.reconcile controller object)))
      (start.Writes (.reconcile controller object)) now.system.server) _ _ _ _ ?_ under)
  intro rs member world under'
  obtain ⟨sync, there, rfl⟩ := List.mem_map.mp member
  obtain ⟨found, written⟩ := Cluster.writes_of_mem_lookedUp looked there
  rw [wp_label]
  refine wp_imp (fun _ _ kept => kept.2.1) (wp_sparing (fun _ => id)
    (ResourceControllerImpl.reconcileSource_sparing found written ?_ ?_) under' _)
  · exact fun d stale => independent.released d.key (.stale looked there live stale)
  · exact fun target wanted renewed => independent.released _
      (.renewed looked there live wanted renewed)

/-- Reconciling an object keeps the finalizers of what others depend on. -/
theorem wp_reconcile_protecting (independent : start.Independent (.reconcile controller object)) :
    (controller.reconcile object).wp (protecting (.reconcile controller object) start.cache)
      (fun _ _ => True) start := by
  unfold ResourceControllerImpl.reconcile
  dsimp only
  rw [wp_bind]
  refine wp_imp ?_ (wp_lookup_protecting controller object)
  rintro _ now ⟨rfl, same⟩
  cases looked : start.lookedUp controller object with
  | none =>
    dsimp only [Option.map_none]
    split
    · rename_i released
      rw [wp_bind]
      refine wp_imp (fun value _ _ => ?_) (wp_release_protecting fun name depends => ?_)
      · obtain ⟨_, result⟩ := value
        cases result <;> trivial
      · rw [same] at depends
        obtain ⟨syncs, found, -⟩ := independent.source controller object rfl
          ((Bool.or_eq_true_iff.mp released).symm.imp id fun live =>
            ⟨looked, Bool.not_eq_true' _ ▸ live⟩) name depends
        rw [looked] at found
        cases found
    · trivial
  | some syncs =>
    dsimp only [Option.map_some]
    have under : Under start.system.server
      (start.system.server.Protects (.reconcile controller object)
        (start.Writes (.reconcile controller object))) (start.Writes (.reconcile controller object))
        now.system.server := by
      rw [same]
      exact .refl ..
    split
    · rename_i terminating
      rw [wp_bind]
      refine wp_imp ?_ (wp_deleteAll_protecting (fun sync member => ?_) under
        (.of_eq (congrArg _ same)))
      · rintro all after ⟨under, drains, emptied⟩
        split
        · rename_i succeeded
          rw [same] at drains
          rw [wp_bind]
          exact wp_imp (fun _ _ _ => trivial) (wp_release_protecting
            (independent.apart terminating looked under drains (emptied succeeded)))
        · trivial
      · obtain ⟨found, written⟩ := Cluster.writes_of_mem_lookedUp looked member
        exact ⟨found, written, fun d tracked => independent.released d.key
          (.cleared looked member terminating tracked)⟩
    · rename_i live
      rw [wp_bind, wp_label]
      refine wp_imp ?_ (wp_sparing (fun _ => id)
        (wp_learning (requests_addFinalizerIfMissing _ _ _ trivial)) under none)
      rintro ⟨source, _⟩ added ⟨_, under', _⟩
      dsimp only
      rw [wp_bind]
      exact wp_imp (fun _ _ _ => trivial)
        (wp_reconcileAll_protecting independent (Bool.eq_false_iff.mpr live) looked source under')

end Reconcile

/-- Runs of the controller keep the finalizers of what others depend on. -/
theorem wp_run_protecting {program : LabelledAsync Unit} (starts : run.Starts start program)
    (independent : start.Independent run) :
    program.wp (protecting run start.cache) (fun _ _ => True) start := by
  cases starts with
  | check found =>
    rw [wp_bind, wp_label]
    exact wp_imp (fun _ _ _ => trivial) (wp_check_protecting found independent)
  | delete found =>
    rw [wp_bind, wp_label]
    exact wp_imp (fun _ _ _ => trivial) (wp_delete_protecting found independent)
  | reconcile kind alive =>
    rw [wp_bind]
    exact wp_imp (fun _ _ _ => trivial) (wp_reconcile_protecting independent)

/-- **Sources keep their finalizer.** In every sequence of runs that each start while nobody else
depends on what they release, no call takes the finalizer from the source of an ObjectSync with
persisted destinations, other than the one that is deleted. -/
theorem sources_keep_finalizer {before after : Cluster}
    (happens : Happens Cluster.Independent run before after) :
    KeepsFinalizers run before.system.server after.system.server := by
  obtain ⟨-, -, starts, independent, steps, answered⟩ := happens
  have holds := wp_run_protecting starts independent
  exact (Steps.wp steps holds _ rfl _ _ answered).1

end Runs

/-- An ObjectSync of the settings besides another one, which has copied them to another namespace.
-/
def sharingSync : ObjectSync :=
  { trackedSync with
    metadata := { trackedSync.metadata with name := some "sharing" }
    spec := { trackedSync.spec with destinations := [⟨none, "other", none⟩] }
    status := some (ObjectSyncStatus.default.updateDestinations
      [configMaps.expectedStatus ("other", "settings", none)]) }

/-- The ObjectSync with the same source is stored under its name. -/
theorem sharingSync_named {new : ObjectSync} (stored : some sharingSync = some new) :
    new.metadata.Named "default" "sharing" := by
  cases stored
  exact ⟨rfl, rfl⟩

/-- A controller that has just started, with the deleted ObjectSync and perhaps other ones. -/
def Cluster.restarted (server : Server) : Cluster := ⟨⟨server, .empty⟩, settingsNamespaces, []⟩

/-- A copy that does not exist has no name. -/
theorem missingCopy_named {new : Stored} (stored : none = some new) :
    new.object.metadata.Named settingsCopy.namespace_ settingsCopy.name := by
  cases stored

/-- The cluster with the deleted ObjectSync of the settings alone. -/
def settingsAlone : Cluster := .restarted (deletedServer none @missingCopy_named)

/-- The cluster with the deleted ObjectSync of the settings, and another one with the same source.
-/
def settingsShared : Cluster :=
  .restarted (settingsAlone.system.server.putSync ⟨"sharing", "default"⟩ (some sharingSync)
    @sharingSync_named)

/-- The call by which `delete` releases the source. -/
def settingsRelease : Option ObjectSyncRef × Call :=
  (some settingsRef,
    .api (.jsonPatch (configMaps.namespacedApi "default") "settings" [.removeAt 0]))

/-- The state before that call, in a run right after the start. -/
def Cluster.beforeRelease (cluster : Cluster) : Cluster :=
  (cluster.during (.delete settingsRef) "2" 8).2

/-- The state of a cluster after the source has been released. -/
def Cluster.afterRelease (cluster : Cluster) : Cluster :=
  (Cluster.answer cluster.cache (versioned "2") cluster.beforeRelease settingsRelease).2

/-- The key of the source of another ObjectSync, which has been copied. -/
def labelsKey : ObjectKey := ⟨"", "ConfigMap", "default", "labels"⟩

/-- The source of the labels, with the finalizer. -/
def heldLabels : DynamicObject :=
  ⟨none, { name := some "labels", namespace_ := some "default", finalizers := some [finalizer] },
    []⟩

/-- The ObjectSync of the labels is stored under its name. -/
theorem labelsSync_named {new : ObjectSync} (stored : some labelsSync = some new) :
    new.metadata.Named "default" "labels" := by
  cases stored
  exact ⟨rfl, rfl⟩

/-- The source of the labels is stored under its name. -/
theorem heldLabels_named {new : Stored} (stored : some ⟨heldLabels, none⟩ = some new) :
    new.object.metadata.Named labelsKey.namespace_ labelsKey.name := by
  cases stored
  exact ⟨rfl, rfl⟩

/-- The deleted ObjectSync beside the one with the other source. -/
def settingsBeside : Cluster :=
  .restarted ((settingsAlone.system.server.putSync labelsRef.name (some labelsSync)
    @labelsSync_named).put labelsKey (some ⟨heldLabels, none⟩) @heldLabels_named)

/-- Nobody depends on what `delete` releases. -/
theorem settingsBeside_independent : settingsBeside.Independent (.delete settingsRef) := by
  refine ⟨fun key releases => ?_, fun _ _ same => by cases same⟩
  rintro ⟨name, sync, found, designates, other, -⟩
  have apart : key ≠ labelsKey := by
    cases releases with
    | deleted stored tracked =>
      obtain rfl := Option.some.inj ((show settingsBeside.system.server.syncs settingsRef.name =
        some deletedSync by decide +kernel).symm.trans stored)
      rw [List.mem_singleton.mp tracked]
      decide
    | source stored _ =>
      obtain rfl := Option.some.inj ((show settingsBeside.system.server.syncs settingsRef.name =
        some deletedSync by decide +kernel).symm.trans stored)
      intro same
      have named : deletedSync.sourceName = "labels" := congrArg ObjectKey.name same
      exact absurd named (by decide)
  by_cases beside : name = labelsRef.name
  · rw [beside] at found
    obtain rfl := Option.some.inj ((show settingsBeside.system.server.syncs labelsRef.name =
      some labelsSync by decide +kernel).symm.trans found)
    exact apart (designates.symm.trans (by decide))
  · by_cases own : name = settingsRef.name
    · exact other (by rw [own])
    · have none : settingsBeside.system.server.syncs name = none :=
        (Function.update_of_ne beside ..).trans (Function.update_of_ne own ..)
      rw [none] at found
      cases found

/-- When `delete` releases its own source, the source of the other ObjectSync keeps the
finalizer. -/
theorem settingsBeside_keeps :
    settingsBeside.beforeRelease.system.server.DependsOn labelsRef.name labelsKey ∧
      ¬settingsBeside.afterRelease.system.server.CarriesFinalizer
        ⟨"", "ConfigMap", "default", "settings"⟩ ∧
      settingsBeside.afterRelease.system.server.CarriesFinalizer labelsKey := by
  have depends : settingsBeside.beforeRelease.system.server.DependsOn labelsRef.name
      labelsKey := ⟨labelsSync, by decide +kernel, by decide +kernel, by decide +kernel⟩
  refine ⟨depends, by decide +kernel, ?_⟩
  by_contra lost
  have happens : Happens Cluster.Independent (.delete settingsRef) settingsBeside.beforeRelease
      settingsBeside.afterRelease :=
    .during rfl .start (by decide +kernel) settingsBeside_independent (by decide +kernel)
  have same := sources_keep_finalizer happens labelsKey (by decide +kernel) lost
    labelsRef.name depends
  exact absurd same (by decide)

/-- The run for the deleted ObjectSync releases the source that another one has been copied from. -/
theorem settingsShared_released :
    ¬∀ (run : Run) (before after : Cluster), Happens (fun _ _ => True) run before after →
      KeepsFinalizers run before.system.server after.system.server := by
  intro keeps
  have happens : Happens (fun _ _ => True) (.delete settingsRef) settingsShared.beforeRelease
      settingsShared.afterRelease :=
    .during rfl .start (by decide +kernel) trivial (by decide +kernel)
  have same := keeps _ _ _ happens ⟨"", "ConfigMap", "default", "settings"⟩ (by decide +kernel)
    (by decide +kernel) ⟨"sharing", "default"⟩
    ⟨sharingSync, by decide +kernel, by decide +kernel, by decide +kernel⟩
  exact absurd same (by decide)

end ObjectSyncer
