import ObjectSyncer.Server

/-!
# Copies are tracked before they exist

All runs of the controller for one ObjectSync, one after the other, with any replies and cut off
anywhere: every live copy is listed in the persisted status, and while there is one the ObjectSync
keeps its finalizer. The bound on the live copies that carries the proof is a list of keys, which
is the persisted list between two runs and shrinks with every deletion.
-/
namespace ObjectSyncer

open Interaction Interaction.Program

/-- Every live copy of an ObjectSync is listed in its persisted status, and it carries the
finalizer. -/
def Tracked (o : ObjectSyncRef) (server : Server) : Prop :=
  ∀ key, server.LiveCopy o key → ∃ sync, server.syncs o.name = some sync ∧
    finalizer ∈ sync.metadata.finalizerList ∧ key ∈ sync.destinationList.map (·.key)

/-- What others do while the controller runs for an ObjectSync: they make no copies for it, and
leave it its status and its finalizer. -/
structure Foreign (o : ObjectSyncRef) (before after : Server) : Prop where
  copies : ∀ key, after.LiveCopy o key → before.LiveCopy o key
  sync : ∀ sync, before.syncs o.name = some sync → finalizer ∈ sync.metadata.finalizerList →
    ∃ sync', after.syncs o.name = some sync' ∧ finalizer ∈ sync'.metadata.finalizerList ∧
      sync'.destinationList = sync.destinationList

/-- Others may leave the server as it is. -/
theorem Foreign.refl (o : ObjectSyncRef) (server : Server) : Foreign o server server :=
  ⟨fun _ => id, fun sync found kept => ⟨sync, found, kept, rfl⟩⟩

/-- What the runs for an ObjectSync rely on and guarantee. -/
@[reducible] def writeAhead (o : ObjectSyncRef) : Contract Call Reply Server where
  rely := Foreign o
  answers := answersBy (Faulty (some o))
  guarantee := fun _ _ _ after => Tracked o after

/-- The servers that runs for an ObjectSync lead to. Each run starts on the current ObjectSync
while that carries the finalizer, and is cut off anywhere. -/
inductive WriteAheadReachable (o : ObjectSyncRef) : Server → Prop
  /-- No copies were made yet. -/
  | start {server : Server} : (∀ key, ¬server.LiveCopy o key) → WriteAheadReachable o server
  /-- Others act. -/
  | foreign {before after : Server} : WriteAheadReachable o before → Foreign o before after →
      WriteAheadReachable o after
  /-- A run of `reconcile_source`. -/
  | reconcileSource (self : ResourceControllerImpl) (source : DynamicObject) {sync : ObjectSync}
      {before after : Server}
      {rest : Async (ObjectSyncModifications × Except ControllerError Unit)} :
      WriteAheadReachable o before → before.syncs o.name = some sync →
      finalizer ∈ sync.metadata.finalizerList →
      Steps (Foreign o) (answersBy (Faulty (some o))) (self.reconcileSource (.new sync) source)
        before rest after → WriteAheadReachable o after
  /-- A run of `delete_destinations`. -/
  | deleteDestinations {sync : ObjectSync} {before after : Server}
      {rest : Async (ObjectSyncModifications × Except ControllerError Unit)} :
      WriteAheadReachable o before → before.syncs o.name = some sync →
      finalizer ∈ sync.metadata.finalizerList →
      Steps (Foreign o) (answersBy (Faulty (some o)))
        (ObjectSyncController.deleteDestinations (.new sync)) before rest after →
      WriteAheadReachable o after
  /-- A run of `delete`. -/
  | delete {sync : ObjectSync} {before after : Server}
      {rest : Async (ObjectSyncModifications × Except ControllerError Unit)} :
      WriteAheadReachable o before → before.syncs o.name = some sync →
      finalizer ∈ sync.metadata.finalizerList →
      Steps (Foreign o) (answersBy (Faulty (some o))) (ObjectSyncController.delete (.new sync))
        before rest after → WriteAheadReachable o after

/-- The persisted status lists these destinations, and they include all live copies. -/
structure Lists (o : ObjectSyncRef) (destinations : List DestinationStatus) (server : Server) :
    Prop where
  persisted : ∃ sync, server.syncs o.name = some sync ∧
    finalizer ∈ sync.metadata.finalizerList ∧ sync.destinationList = destinations
  within : Within o (destinations.map (·.key)) server

section Bounds

variable {o : ObjectSyncRef} {keys : List ObjectKey} {destinations : List DestinationStatus}
  {server after : Server}

/-- A complete list tracks the live copies. -/
theorem Lists.tracked (lists : Lists o destinations server) : Tracked o server := by
  intro key live
  obtain ⟨sync, found, kept, rfl⟩ := lists.persisted
  exact ⟨sync, found, kept, lists.within key live⟩

/-- Without live copies there is nothing to track. -/
theorem Within.tracked (none : Within o [] server) : Tracked o server :=
  fun key live => absurd (none key live) List.not_mem_nil

/-- What others do keeps every bound on the live copies. -/
theorem Within.foreign (within : Within o keys server) (foreign : Foreign o server after) :
    Within o keys after :=
  fun key live => within key (foreign.copies key live)

/-- What others do keeps a complete list. -/
theorem Lists.foreign (lists : Lists o destinations server) (foreign : Foreign o server after) :
    Lists o destinations after := by
  obtain ⟨sync, found, kept, rfl⟩ := lists.persisted
  obtain ⟨sync', found', kept', same⟩ := foreign.sync sync found kept
  exact ⟨⟨sync', found', kept', same⟩, lists.within.foreign foreign⟩

/-- A call that creates objects only at some keys. -/
def CreatesAmong (keys : List ObjectKey) : Call → Prop
  | .api request => request.Creates → ∀ key, request.target = some key → key ∈ keys
  | _ => True

/-- A call that writes no ObjectSync. -/
def LeavesSyncs : Call → Prop
  | .api request => request.syncTarget = none
  | _ => True

/-- A bound survives calls that create among its keys. -/
theorem Within.answered {call : Call} {reply : Reply call} (within : Within o keys server)
    (among : CreatesAmong keys call)
    (answered : answersBy (Faulty (some o)) server call reply after) : Within o keys after := by
  cases call with
  | api request =>
    intro key live
    rcases Faulty.effect answered |>.liveCopy live with before | ⟨-, creates, target, -⟩
    · exact within key before
    · exact among creates key target
  | memory op => exact answered ▸ within
  | namespaces => exact answered ▸ within
  | clock => exact answered ▸ within

/-- A complete list survives calls that create among its keys and write no ObjectSync. -/
theorem Lists.answered {call : Call} {reply : Reply call} (lists : Lists o destinations server)
    (among : CreatesAmong (destinations.map (·.key)) call) (leaves : LeavesSyncs call)
    (answered : answersBy (Faulty (some o)) server call reply after) :
    Lists o destinations after := by
  refine ⟨?_, lists.within.answered among answered⟩
  obtain ⟨sync, found, kept⟩ := lists.persisted
  refine ⟨sync, ?_, kept⟩
  cases call with
  | api request =>
    have other : request.syncTarget ≠ some o.name := by rw [leaves]; nofun
    rw [← found]
    exact (Faulty.effect answered).syncs_eq other
  | memory op => exact answered ▸ found
  | namespaces => exact answered ▸ found
  | clock => exact answered ▸ found

end Bounds

/-- A call that creates no object and writes no ObjectSync. -/
def Harmless (call : Call) : Prop := (∀ keys, CreatesAmong keys call) ∧ LeavesSyncs call

/-- Removing a destination creates nothing and writes no ObjectSync. -/
theorem DestinationStatus.Removal.harmless {d : DestinationStatus} {request : ApiRequest}
    (removal : d.Removal request) : Harmless (.api request) := by
  cases removal <;> exact ⟨fun _ => False.elim, rfl⟩

/-- Creating or updating a destination creates it and writes no ObjectSync. -/
theorem Upsert.createsAmong {api : DynamicApi} {name : String} {request : ApiRequest}
    {keys : List ObjectKey} (upsert : Upsert api name request) (tracked : api.key name ∈ keys) :
    CreatesAmong keys (.api request) ∧ LeavesSyncs (.api request) := by
  cases upsert with
  | get => exact ⟨False.elim, rfl⟩
  | release patch => exact ⟨False.elim, rfl⟩
  | create named => exact ⟨fun _ key target => Option.some.inj target ▸ named ▸ tracked, rfl⟩
  | replace body => exact ⟨False.elim, rfl⟩
  | apply body => exact ⟨fun _ key target => Option.some.inj target ▸ tracked, rfl⟩

section Programs

variable {o : ObjectSyncRef} {α : Type} {server : Server}

/-- A program keeps a complete list when it creates only listed objects and writes no
ObjectSync. -/
theorem wp_lists {destinations : List DestinationStatus} {allowed : Call → Prop}
    {result : α → Prop} {program : Async α}
    (shape : program.wp (.requests Honest allowed) (fun value _ => result value) ())
    (among : ∀ call, allowed call →
      CreatesAmong (destinations.map (·.key)) call ∧ LeavesSyncs call)
    (lists : Lists o destinations server) :
    program.wp (writeAhead o) (fun value after => result value ∧ Lists o destinations after)
      server := by
  refine wp_requests shape (fun _ _ _ _ => answersBy_faulty_honest) ?_ ?_ lists
  · exact fun server moved lists foreign => lists.foreign foreign
  · intro server call reply after lists asked answered
    have kept := lists.answered (among call asked).1 (among call asked).2 answered
    exact ⟨kept.tracked, kept⟩

/-- A program that creates nothing keeps the absence of live copies. -/
theorem wp_none {allowed : Call → Prop} {result : α → Prop} {program : Async α}
    (shape : program.wp (.requests Honest allowed) (fun value _ => result value) ())
    (barren : ∀ call, allowed call → CreatesAmong [] call) (none : Within o [] server) :
    program.wp (writeAhead o) (fun value after => result value ∧ Within o [] after) server := by
  refine wp_requests shape (fun _ _ _ _ => answersBy_faulty_honest) ?_ ?_ none
  · exact fun server moved none foreign => none.foreign foreign
  · intro server call reply after none asked answered
    have kept := none.answered (barren call asked) answered
    exact ⟨kept.tracked, kept⟩

/-- A complete list and a bound, kept by a harmless call. -/
theorem bounds_harmless {destinations : List DestinationStatus} {keys : List ObjectKey}
    {moved after : Server} {call : Call} {reply : Reply call} (lists : Lists o destinations server)
    (within : Within o keys server) (foreign : Foreign o server moved) (harmless : Harmless call)
    (answered : answersBy (Faulty (some o)) moved call reply after) :
    Tracked o after ∧ Lists o destinations after ∧ Within o keys after := by
  have kept := (lists.foreign foreign).answered (harmless.1 _) harmless.2 answered
  exact ⟨kept.tracked, kept, (within.foreign foreign).answered (harmless.1 _) answered⟩

/-- A deletion that did not fail removes its key from the bound. -/
theorem Within.deleted {front back : List ObjectKey} {after : Server} {d : DestinationStatus}
    {reply : Except KubeError Unit} (within : Within o (front ++ d.key :: back) server)
    (answered : Faulty (some o) server (.delete d.api d.name) reply after) :
    Within o (front ++ (if deletionSettled reply then [] else [d.key]) ++ back) after := by
  have bounded : Within o (front ++ d.key :: back) after :=
    @Within.answered o _ server after (.api (.delete d.api d.name)) reply within
      ((DestinationStatus.Removal.delete (d := d)).harmless.1 _) answered
  cases settled : deletionSettled reply with
  | false => simpa using bounded
  | true =>
    have gone : ¬after.LiveCopy o d.key := by
      refine Faulty.deleted answered fun e failed => ?_
      rw [failed] at settled
      exact settled
    intro key live
    have member := bounded key live
    rw [List.mem_append, List.mem_cons] at member
    rcases member with before | same | later
    · exact List.mem_append_left _ (List.mem_append_left _ before)
    · rw [same] at live
      exact absurd live gone
    · exact List.mem_append_right _ later

/-- What `delete_destinations` does not return is no live copy any more. -/
theorem wp_deleteDestinations {destinations : List DestinationStatus} (front : List ObjectKey)
    (removed : List DestinationStatus) (lists : Lists o destinations server)
    (within : Within o (front ++ removed.map (·.key)) server) :
    (deleteDestinations removed).wp (writeAhead o)
      (fun result after => Lists o destinations after ∧
        ∀ remaining, result = .ok remaining → Within o (front ++ remaining.map (·.key)) after)
      server := by
  refine wp_imp (fun result after kept => ?_) (@wp_deleteDestinations_loop _ (writeAhead o)
    (fun failed todo after => Lists o destinations after ∧
      Within o ((front ++ failed.map (·.key)) ++ todo.map (·.key)) after)
    (Lists o destinations) (fun _ _ _ _ => answersBy_faulty_honest) ?_ ?_ ?_ ?_ [] removed server
    ⟨lists, by rwa [List.map_nil, List.append_nil]⟩)
  · constructor
    · cases result with
      | error e => exact kept.1 e rfl
      | ok remaining => exact (kept.2 remaining rfl).1
    · intro remaining finished
      have bounded := (kept.2 remaining finished).2
      rwa [List.map_nil, List.append_nil] at bounded
  · exact fun failed todo before moved kept foreign =>
      ⟨kept.1.foreign foreign, kept.2.foreign foreign⟩
  · intro failed d todo before request reply after removal _ kept answered
    exact bounds_harmless kept.1 kept.2 (.refl o before) removal.harmless answered
  · intro failed d todo before reply after kept answered
    obtain ⟨tracked, lists', -⟩ := bounds_harmless kept.1 kept.2 (.refl o before)
      (DestinationStatus.Removal.delete (d := d)).harmless answered
    refine ⟨tracked, lists', ?_⟩
    have bounded := Within.deleted kept.2 answered
    rw [List.map_append, ← List.append_assoc]
    cases settled : deletionSettled reply with
    | true => simpa [settled] using bounded
    | false => simpa [settled] using bounded
  · intro failed d todo before e after kept answered _
    exact (bounds_harmless kept.1 kept.2 (.refl o before)
      (DestinationStatus.Removal.get (d := d)).harmless answered).2.1

/-- The working copy has the persisted list, which includes all live copies. -/
structure Synced (o : ObjectSyncRef) (event : ObjectSyncModifications) (server : Server) :
    Prop where
  address : event.address = o.name
  agrees : event.modified.destinationList = event.original.destinationList
  lists : Lists o event.modified.destinationList server

/-- A run starts in agreement with the server. -/
theorem synced_new {sync : ObjectSync} (found : server.syncs o.name = some sync)
    (kept : finalizer ∈ sync.metadata.finalizerList) (tracked : Tracked o server) :
    Synced o (.new sync) server := by
  refine ⟨congrArg ObjectSyncRef.name (server.syncNamed found).ofSync, rfl,
    ⟨sync, found, kept, rfl⟩,
    fun key live => ?_⟩
  obtain ⟨sync', found', -, member⟩ := tracked key live
  obtain rfl := Option.some.inj (found.symm.trans found')
  exact member

/-- A status write leaves a complete list: the old one when nothing was written, else the new one,
when it includes all live copies. -/
theorem StatusWritten.lists {destinations : List DestinationStatus} {body : ObjectSync}
    {reply : Except KubeError ObjectSync} {after : Server}
    (write : StatusWritten server o.name body reply after) (lists : Lists o destinations server)
    (covers : Within o (body.destinationList.map (·.key)) server) :
    (Lists o destinations after ∧ ∀ written, reply ≠ .ok written) ∨
      Lists o body.destinationList after ∧ ∀ written, reply = .ok written →
        written.destinationList = body.destinationList := by
  rcases write with ⟨rfl, failed⟩ | ⟨choice, current, found, -, rfl, replied⟩
  · exact .inl ⟨lists, failed⟩
  · have same : (choice.withStatus current body).destinationList = body.destinationList :=
      ObjectSync.destinationList_eq_of_status rfl
    refine .inr ⟨⟨⟨choice.withStatus current body, ?_, ?_, same⟩, covers⟩,
      fun written success => ?_⟩
    · obtain ⟨sync, found', kept, -⟩ := lists.persisted
      obtain rfl := Option.some.inj (found.symm.trans found')
      rw [Server.writeSync_syncs, Function.update_self, found, Option.bind_some]
      exact if_neg fun gone => List.ne_nil_of_mem kept
        (List.isEmpty_iff.mp (Bool.and_eq_true_iff.mp gone).2)
    · obtain ⟨sync, found', kept, -⟩ := lists.persisted
      obtain rfl := Option.some.inj (found.symm.trans found')
      exact kept
    · rw [replied written success, same]

/-- A status write by which the list goes on to include all live copies. -/
theorem wp_replaceStatus {event : ObjectSyncModifications}
    (address : event.address = o.name) (lists : Lists o event.original.destinationList server)
    (covers : Within o (event.modified.destinationList.map (·.key)) server) :
    event.replaceStatus.wp (writeAhead o)
      (fun value after => value.2 = .ok () → Synced o value.1 after ∧
        value.1.modified.destinationList = event.modified.destinationList) server := by
  unfold ObjectSyncModifications.replaceStatus
  split
  · unfold ObjectSyncModifications.latest
    rw [wp_api, address]
    intro moved foreign reply middle answered
    have harmless : Harmless (.api (.getSyncStatus o.name)) := ⟨fun _ => False.elim, rfl⟩
    obtain ⟨tracked, lists, covers⟩ := bounds_harmless lists covers foreign harmless answered
    refine ⟨tracked, ?_⟩
    cases reply with
    | error e => rintro ⟨⟩
    | ok latest =>
      dsimp only
      rw [wp_bind]
      unfold ObjectSyncModifications.replaceStatusWith
      dsimp only
      rw [wp_api]
      intro moved foreign reply after answered
      rw [ObjectSyncModifications.address_withResourceVersion, address] at answered
      have honest := Faulty.honest answered
      have write : StatusWritten moved o.name
          (event.modified.withResourceVersion latest.metadata.resourceVersion) reply after :=
        Faulty.statusWritten answered
      rcases write.lists (lists.foreign foreign)
        (covers.foreign foreign) with ⟨lists, failed⟩ | ⟨lists, echoed⟩
      · refine ⟨lists.tracked, ?_⟩
        cases reply with
        | ok written => exact absurd rfl (failed written)
        | error e => rintro ⟨⟩
      · refine ⟨lists.tracked, ?_⟩
        cases reply with
        | ok written =>
          rintro -
          have same := echoed written rfl
          exact ⟨⟨congrArg ObjectSyncRef.name honest.1, rfl, same ▸ lists⟩, same⟩
        | error e => rintro ⟨⟩
  · rename_i unchanged
    intro _
    have same : event.original.status = event.modified.status := by
      simpa [ObjectSyncModifications.statusHasChanged] using unchanged
    have agrees := ObjectSync.destinationList_eq_of_status same
    exact ⟨⟨address, agrees.symm, agrees ▸ lists⟩, rfl⟩

/-- Updating a condition keeps a complete list and a bound, and the tracked destinations of the
working copy. -/
theorem wp_updateCondition {event : ObjectSyncModifications} (condition : Condition)
    {post : ObjectSyncModifications → Server → Prop} {destinations : List DestinationStatus}
    {keys : List ObjectKey} (lists : Lists o destinations server) (within : Within o keys server)
    (implies : ∀ time after, Lists o destinations after → Within o keys after →
      post (event.modify (·.updateCondition time condition)) after) :
    (event.updateCondition condition).wp (writeAhead o) post server := by
  unfold ObjectSyncModifications.updateCondition
  rw [wp_clock]
  rintro moved foreign time after ⟨⟩
  have lists := lists.foreign foreign
  exact ⟨lists.tracked, implies time moved lists (within.foreign foreign)⟩

/-- Steps 3 and 4 of `reconcile_source` create only listed destinations. -/
theorem wp_syncDestinations (self : ResourceControllerImpl) {event : ObjectSyncModifications}
    (source : DynamicObject) (staleRemnants : List DestinationStatus) (removedCount : Nat)
    (synced : Synced o event server)
    (writes : ∀ d ∈ event.modified.destinationList,
      ResourceControllerImpl.isRemnant staleRemnants d = false →
        (self.namespacedApi d.namespace_).key d.name = d.key) :
    (self.syncDestinations event source staleRemnants removedCount).wp (writeAhead o)
      (fun _ _ => True) server := by
  unfold ResourceControllerImpl.syncDestinations
  cases tracked : event.modified.statusDestinations with
  | none => trivial
  | some destinations =>
    have listed : event.modified.destinationList = destinations :=
      ObjectSync.destinationList_of_tracked tracked
    dsimp only
    rw [wp_bind]
    refine wp_imp ?_ (wp_lists (@ResourceControllerImpl.requests_upsertDestinations
      (fun call => CreatesAmong (event.modified.destinationList.map (·.key)) call ∧
        LeavesSyncs call) self source destinations staleRemnants ?_)
      (fun _ allowed => allowed) synced.lists)
    · rintro ⟨destinations', updated, expected, observed⟩ middle ⟨same, lists⟩
      have keys : destinations'.map (·.key) = event.modified.destinationList.map (·.key) :=
        listed ▸ DestinationStatus.keys_eq_of_targets same
      dsimp only
      split
      · rw [wp_bind]
        refine wp_updateCondition _ lists lists.within fun time after lists within => ?_
        refine wp_imp (fun _ _ _ => trivial) (wp_replaceStatus synced.address
          (synced.agrees ▸ lists) ?_)
        simpa [ObjectSyncModifications.modify, ObjectSyncModifications.updateDestinations, keys]
          using within
      · trivial
    · intro d member current request upsert
      refine upsert.createsAmong ?_
      rw [writes d (listed ▸ member) current]
      exact List.mem_map_of_mem (listed ▸ member)

/-- A run of `reconcile_source` keeps all live copies tracked. -/
theorem wp_reconcileSource (self : ResourceControllerImpl) {event : ObjectSyncModifications}
    (source : DynamicObject) (synced : Synced o event server) :
    (self.reconcileSource event source).wp (writeAhead o) (fun _ _ => True) server := by
  unfold ResourceControllerImpl.reconcileSource
  rw [wp_namespaces]
  rintro moved foreign cache after ⟨⟩
  have lists := synced.lists.foreign foreign
  refine ⟨lists.tracked, ?_⟩
  dsimp only
  have designates := fun d => @ResourceControllerImpl.exists_target_of_mem_expected self
    (ResourceControllerImpl.expectedDestinations event.modified cache)
    event.modified.destinationList d
  have covered := fun d => @ResourceControllerImpl.mem_stale_or_expected self
    (ResourceControllerImpl.expectedDestinations event.modified cache)
    event.modified.destinationList d
  generalize self.splitDestinations
    (ResourceControllerImpl.expectedDestinations event.modified cache)
    event.modified.destinationList = split at designates covered ⊢
  obtain ⟨expected, stale⟩ := split
  dsimp only at designates covered ⊢
  have within : Within o (expected.map (·.key) ++ stale.map (·.key)) moved := by
    intro key live
    obtain ⟨d, member, rfl⟩ := List.mem_map.mp (lists.within key live)
    rcases covered d member with stale | expected
    · exact List.mem_append_right _ (List.mem_map_of_mem stale)
    · exact List.mem_append_left _ expected
  rw [wp_bind]
  refine wp_imp ?_ (wp_deleteDestinations _ stale lists within)
  rintro result middle ⟨lists, remains⟩
  cases result with
  | error e => trivial
  | ok staleRemnants =>
    dsimp only
    have covers : Within o ((event.updateDestinations (ResourceControllerImpl.sortDestinations
        (expected ++ staleRemnants))).modified.destinationList.map (·.key)) middle := by
      intro key live
      have member := remains staleRemnants rfl key live
      rw [← List.map_append] at member
      exact ((ResourceControllerImpl.sortDestinations_perm _).map _).mem_iff.mpr member
    rw [wp_bind]
    refine wp_imp ?_ (wp_replaceStatus synced.address (synced.agrees ▸ lists) covers)
    rintro ⟨event', result⟩ after written
    cases result with
    | error e => trivial
    | ok =>
      obtain ⟨synced, same⟩ := written rfl
      refine wp_syncDestinations self source staleRemnants _ synced fun d member current => ?_
      rw [same] at member
      have fresh := ResourceControllerImpl.mem_of_not_isRemnant member current
      obtain ⟨target, -, designated⟩ := designates d fresh
      exact ResourceControllerImpl.namespacedApi_key designated

/-- A run of `delete_destinations` keeps all live copies tracked, and there are none when it
succeeds. -/
theorem wp_deleteAllDestinations {event : ObjectSyncModifications}
    (synced : Synced o event server) :
    (ObjectSyncController.deleteDestinations event).wp (writeAhead o)
      (fun value after => value.2 = .ok () → value.1.address = o.name ∧ Within o [] after)
      server := by
  unfold ObjectSyncController.deleteDestinations
  cases tracked : event.modified.statusDestinations with
  | none =>
    rintro -
    have empty : event.modified.destinationList = [] := by
      rw [ObjectSync.destinationList, tracked, Option.getD_none]
    have within := synced.lists.within
    rw [empty] at within
    exact ⟨synced.address, within⟩
  | some destinations =>
    have listed : event.modified.destinationList = destinations :=
      ObjectSync.destinationList_of_tracked tracked
    have lists := synced.lists
    rw [listed] at lists
    dsimp only
    rw [wp_bind]
    refine wp_imp ?_ (wp_deleteDestinations [] destinations lists lists.within)
    rintro result middle ⟨lists, remains⟩
    cases result with
    | error e => rintro ⟨⟩
    | ok remaining =>
      dsimp only
      rw [wp_bind]
      refine wp_updateCondition _ lists (remains remaining rfl) fun time after lists within => ?_
      rw [wp_bind]
      refine wp_imp ?_ (wp_replaceStatus synced.address
        (synced.agrees.symm.trans listed ▸ lists) within)
      rintro ⟨event', result⟩ last written
      cases result with
      | error e => rintro ⟨⟩
      | ok =>
        obtain ⟨synced, same⟩ := written rfl
        dsimp only
        split
        · rintro ⟨⟩
        · rename_i none
          rintro -
          have empty : remaining = [] := List.eq_nil_of_length_eq_zero (Nat.eq_zero_of_not_pos none)
          have within := synced.lists.within
          rw [same, empty] at within
          exact ⟨synced.address, within⟩

/-- A run of `delete` keeps all live copies tracked. -/
theorem wp_delete {event : ObjectSyncModifications} (synced : Synced o event server) :
    (ObjectSyncController.delete event).wp (writeAhead o) (fun _ _ => True) server := by
  unfold ObjectSyncController.delete ObjectSyncController.remove
  rw [wp_memory]
  rintro moved foreign removed after ⟨⟩
  have lists := synced.lists.foreign foreign
  refine ⟨lists.tracked, ?_⟩
  rw [wp_bind]
  refine wp_imp ?_ (wp_deleteAllDestinations ⟨synced.address, synced.agrees, lists⟩)
  rintro ⟨event', result⟩ middle finished
  cases result with
  | error e => trivial
  | ok =>
    obtain ⟨address, none⟩ := finished rfl
    dsimp only
    rw [wp_bind]
    refine wp_imp ?_ (wp_none (@ObjectSyncController.requests_releaseSource (CreatesAmong [])
      event' False.elim (fun _ => False.elim) fun _ _ => False.elim) (fun _ => id) none)
    rintro result after ⟨-, none⟩
    cases result with
    | error e => trivial
    | ok =>
      dsimp only
      rw [wp_bind]
      exact wp_imp (fun _ _ _ => trivial) (wp_none (@ObjectSyncController.requests_removeFinalizer
        (CreatesAmong []) event' False.elim fun _ => False.elim) (fun _ => id) none)

end Programs

/-- **Write-ahead tracking.** Wherever the runs for an ObjectSync stop, every live copy made for it
is listed in its persisted status, and it carries the finalizer while there is one. -/
theorem tracked_of_reachable {o : ObjectSyncRef} {server : Server}
    (reachable : WriteAheadReachable o server) : Tracked o server := by
  have along {α : Type} {program rest : Async α} {post : α → Server → Prop} {before after : Server}
      (steps : Steps (writeAhead o).rely (writeAhead o).answers program before rest after)
      (holds : program.wp (writeAhead o) post before) (start : Tracked o before) :
      Tracked o after :=
    steps.invariant holds (fun _ _ _ _ guaranteed => guaranteed) start
  induction reachable with
  | start none => exact fun key live => absurd live (none key)
  | foreign _ foreign ih =>
    intro key live
    obtain ⟨sync, found, carries, member⟩ := ih key (foreign.copies key live)
    obtain ⟨sync', found', carries', same⟩ := foreign.sync sync found carries
    exact ⟨sync', found', carries', same ▸ member⟩
  | reconcileSource self source _ found carries steps ih =>
    exact along steps (wp_reconcileSource self source (synced_new found carries ih)) ih
  | deleteDestinations _ found carries steps ih =>
    exact along steps (wp_deleteAllDestinations (synced_new found carries ih)) ih
  | delete _ found carries steps ih =>
    exact along steps (wp_delete (synced_new found carries ih)) ih

/-- The state after a run of `reconcile_source` for an ObjectSync without status. -/
def settingsSynced : Server :=
  (configMaps.reconcileSource (.new settingsSync)
    ⟨none, { name := some "settings", namespace_ := some "default" }, []⟩).run
      (Server.answer (some settingsRef) ⟨"u", "2", 0, []⟩ [⟨"team", none, none⟩] "now")
      settingsServer |>.2

/-- The run for the settings makes a live copy, which is tracked. -/
theorem settingsSynced_tracked :
    settingsSynced.LiveCopy settingsRef ⟨"", "ConfigMap", "team", "settings"⟩ ∧
      Tracked settingsRef settingsSynced :=
  ⟨by decide +kernel,
    tracked_of_reachable (.reconcileSource _ _ (.start (by rintro key ⟨stored, ⟨⟩, -⟩)) rfl
      (by decide) (returns_run (Foreign.refl _) (Server.answer_allowed _ _ _ _) _ _))⟩

end ObjectSyncer
