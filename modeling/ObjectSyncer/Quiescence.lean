import Mathlib.Data.List.Perm.Basic
import ObjectSyncer.Collections.KeyedList
import ObjectSyncer.Convergence

/-!
# Quiescence

A run of `reconcile_source` that nobody disturbs records, for every expected destination, the
revision of its copy and that of the source. The next run finds all of them current: it only reads,
and computes the status that is persisted, in whatever order the namespaces are listed.
-/
namespace ObjectSyncer

open Collections Interaction Interaction.Program Server

/-- The revisions that an entry records are those of its object and of the source. -/
structure Server.Current (server : Server) (srcVersion : ObjectRevision) (d : DestinationStatus) :
    Prop where
  source : d.sourceVersion = some srcVersion
  copy : ∃ stored, server.objects d.key = some stored ∧
    d.syncedVersion = some stored.object.metadata.revision

/-- The object of a key can be updated: if it terminates, the finalizer has been removed. -/
def Server.Updatable (server : Server) (key : ObjectKey) : Prop :=
  ∀ stored, server.objects key = some stored → stored.object.metadata.terminating = true →
    finalizer ∉ stored.object.metadata.finalizerList

section Current

variable {srcVersion : ObjectRevision} {d : DestinationStatus} {server after : Server}
  {key : ObjectKey} {stored : Stored}

/-- An entry stays current as long as nothing happens to its object. -/
theorem Server.Current.of_eq (current : server.Current srcVersion d)
    (same : after.objects d.key = server.objects d.key) : after.Current srcVersion d := by
  obtain ⟨stored, found, revision⟩ := current.copy
  exact ⟨current.source, stored, same.trans found, revision⟩

/-- An entry is current after its object was written. -/
theorem current_synced {written : DynamicObject} (found : after.objects d.key = some stored)
    (same : stored.object = written) :
    after.Current srcVersion (ResourceControllerImpl.synced d srcVersion written) := by
  refine ⟨rfl, stored, found, ?_⟩
  rw [same]
  rfl

/-- An object with a finalizer stays when it is written. -/
theorem Server.write_finalized {change : DynamicObject → DynamicObject}
    (keeps : ∀ object, (change object).metadata.name = object.metadata.name ∧
      (change object).metadata.namespace_ = object.metadata.namespace_)
    (found : server.objects key = some stored)
    (carries : finalizer ∈ (change stored.object).metadata.finalizerList) :
    (server.write key change keeps).objects key =
      some { stored with object := change stored.object } := by
  rw [write_objects, Function.update_self, found, Option.bind_some]
  unfold Stored.settled
  refine if_neg fun gone => ?_
  have empty := (Bool.and_eq_true_iff.mp gone).2
  rw [List.isEmpty_iff] at empty
  have carries' : finalizer ∈ (change stored.object).metadata.finalizerList := carries
  rw [empty] at carries'
  exact absurd carries' List.not_mem_nil

end Current

namespace ResourceControllerImpl

section Upsert

variable {maker : Option ObjectSyncRef} {cache : List Namespace} {possible : Server → Prop}
  {srcVersion : ObjectRevision} {api : DynamicApi} {d : DestinationStatus} {state : UpsertState}
  {server : Server} {stored : Stored}

/-- What the attempts for a destination need to know of it and of the template. -/
structure Fitted (api : DynamicApi) (d : DestinationStatus) (template : DynamicObject) : Prop where
  designates : api.key d.name = d.key
  named : template.metadata.nameAny = d.name
  finalizers : template.metadata.finalizers = some [finalizer]

/-- What the attempts for a destination lead to: its entry is current, and the same as before if
nothing was written. -/
structure Refreshes (srcVersion : ObjectRevision) (d : DestinationStatus) (changed : Bool)
    (before : Server) (d' : DestinationStatus) (state' : UpsertState) (after : Server) : Prop where
  agree : Agree (· = d.key) before after
  current : after.Current srcVersion d'
  target : d'.target = d.target
  unchanged : state'.changed = false → changed = false ∧ d' = d

/-- The finalizers of a configuration are there after it was applied. -/
theorem Choice.applied_carries_finalizer (choice : Choice) (current body : DynamicObject)
    (carries : body.metadata.finalizers = some [finalizer]) :
    finalizer ∈ (choice.applied current body).metadata.finalizerList := by
  show finalizer ∈ (choice.applied current body).metadata.finalizers.getD []
  unfold Choice.applied
  rw [carries]
  by_cases former : finalizer ∈ current.metadata.finalizerList
  · exact List.mem_append_left _ former
  · refine List.mem_append_right _ (List.mem_filter.mpr ⟨List.mem_singleton.mpr rfl, ?_⟩)
    exact decide_eq_true former

/-- An object that exists is updated, unless its entry is current. -/
theorem wp_updateExisting_current {current : DynamicObject} (fitted : Fitted api d state.template)
    (found : server.objects d.key = some stored)
    (same : current.metadata.revision = stored.object.metadata.revision) :
    (updateExisting api srcVersion current d state).wp (alone maker cache possible)
      (fun value after => value.2.2 = .break_ ∧
        Refreshes srcVersion d state.changed server value.1 value.2.1 after) server := by
  unfold updateExisting
  dsimp only
  rw [same]
  have noConflict := conflicts_withRevision state.template stored.object
  have finalizers :
    (withRevision state.template stored.object.metadata.revision).metadata.finalizers =
      some [finalizer] := fitted.finalizers
  generalize body_ : withRevision state.template stored.object.metadata.revision = body at *
  by_cases stale : some stored.object.metadata.revision ≠ d.syncedVersion ∨
      some srcVersion ≠ d.sourceVersion
  · rw [if_pos stale]
    cases d.effectiveStrategy with
    | apply =>
      dsimp only
      have served (choice : Choice) : server.serve maker choice (.apply api d.name body) =
          (.ok (choice.applied stored.object body),
            server.write d.key (choice.applied · body) fun _ => ⟨rfl, rfl⟩) := by
        simp only [serve, fitted.designates, found, noConflict, Bool.false_eq_true, if_false]
      refine wp_served served fun choice _ => ?_
      have carries := Choice.applied_carries_finalizer choice stored.object body finalizers
      exact ⟨rfl, ⟨fun key other => Function.update_of_ne other .., rfl, rfl⟩,
        current_synced (write_finalized _ found carries) rfl, rfl,
        fun unchanged => Bool.noConfusion unchanged⟩
    | replace =>
      dsimp only
      have served (choice : Choice) : server.serve maker choice (.replace api d.name body) =
          (.ok (choice.replaced stored.object body),
            server.write d.key (choice.replaced · body) fun _ => ⟨rfl, rfl⟩) := by
        simp only [serve, fitted.designates, found, noConflict, Bool.false_eq_true, if_false]
      refine wp_served served fun choice _ => ?_
      have carries : finalizer ∈ (choice.replaced stored.object body).metadata.finalizerList := by
        show finalizer ∈ body.metadata.finalizers.getD []
        rw [finalizers]
        exact List.mem_singleton.mpr rfl
      exact ⟨rfl, ⟨fun key other => Function.update_of_ne other .., rfl, rfl⟩,
        current_synced (write_finalized _ found carries) rfl, rfl,
        fun unchanged => Bool.noConfusion unchanged⟩
  · rw [if_neg stale]
    obtain ⟨synced_, source⟩ := not_or.mp stale
    refine ⟨rfl, .refl _ _,
      ⟨(not_not.mp source).symm, stored, found, (not_not.mp synced_).symm⟩, rfl,
      fun unchanged => ⟨unchanged, rfl⟩⟩

/-- An object that does not exist is created. -/
theorem wp_createMissing_current (fitted : Fitted api d state.template)
    (absent : server.objects d.key = none) :
    (createMissing api srcVersion d state).wp (alone maker cache possible)
      (fun value after => value.2.2 = .break_ ∧
        Refreshes srcVersion d state.changed server value.1 value.2.1 after) server := by
  unfold createMissing
  have designates : api.key state.template.metadata.nameAny = d.key := by
    rw [fitted.named, fitted.designates]
  have served (choice : Choice) : server.serve maker choice (.create api state.template) =
      (.ok (choice.created api.namespace_ state.template.metadata.nameAny state.template),
        (server.create maker choice api state.template.metadata.nameAny state.template).2) := by
    simp only [serve, designates, absent]
    rfl
  refine wp_served served fun choice _ => ?_
  have created : (server.create maker choice api state.template.metadata.nameAny
      state.template).2.objects d.key =
      some ⟨choice.created api.namespace_ state.template.metadata.nameAny state.template,
        maker⟩ := by
    rw [create_objects, designates, Function.update_self]
  refine ⟨rfl, ⟨fun key other => ?_, rfl, rfl⟩, current_synced created rfl, rfl,
    fun unchanged => Bool.noConfusion unchanged⟩
  rw [create_objects, designates, Function.update_of_ne other]

/-- An attempt makes the entry of its destination current, unless the object has to be released. -/
theorem wp_upsertAttempt_current (fitted : Fitted api d state.template)
    (updatable : server.Updatable d.key) :
    (upsertAttempt api srcVersion d state).wp (alone maker cache possible)
      (fun value after => value.2.2 = .break_ ∧
        Refreshes srcVersion d state.changed server value.1 value.2.1 after) server := by
  unfold upsertAttempt
  have reset : Fitted api d (withRevision state.template ⟨none, none⟩) :=
    ⟨fitted.designates, fitted.named, fitted.finalizers⟩
  have update := @wp_updateExisting_current maker cache possible srcVersion api d
    { state with template := withRevision state.template ⟨none, none⟩ } server
  dsimp only
  cases found : server.objects d.key with
  | none =>
    have served (choice : Choice) : server.serve maker choice (.get api d.name) =
        (.error (.api 404 "not found"), server) := by
      simp only [serve, fitted.designates, found]
    refine wp_served served fun choice _ => ?_
    exact wp_createMissing_current reset found
  | some stored =>
    have served (choice : Choice) : server.serve maker choice (.get api d.name) =
        (.ok stored.object, server) := by
      simp only [serve, fitted.designates, found]
    refine wp_served served fun choice _ => ?_
    dsimp only
    by_cases terminating : stored.object.metadata.terminating = true
    · rw [if_pos terminating, removeFinalizer_of_not_mem (updatable stored found terminating)]
      exact update reset found rfl
    · rw [if_neg terminating]
      exact update reset found rfl

/-- A terminating object that has the finalizer is released by an attempt. -/
theorem wp_upsertAttempt_release (fitted : Fitted api d state.template)
    (found : server.objects d.key = some stored)
    (terminating : stored.object.metadata.terminating = true)
    (carries : finalizer ∈ stored.object.metadata.finalizerList) :
    (upsertAttempt api srcVersion d state).wp (alone maker cache possible)
      (fun value after => value.1 = d ∧ value.2.2 = .continue_ ∧
        value.2.1.changed = state.changed ∧ Fitted api d value.2.1.template ∧
        Agree (· = d.key) server after ∧ after.Updatable d.key) server := by
  unfold upsertAttempt
  have reset : Fitted api d (withRevision state.template ⟨none, none⟩) :=
    ⟨fitted.designates, fitted.named, fitted.finalizers⟩
  have served (choice : Choice) : server.serve maker choice (.get api d.name) =
      (.ok stored.object, server) := by
    simp only [serve, fitted.designates, found]
  dsimp only
  refine wp_served served fun choice _ => ?_
  dsimp only
  rw [if_pos terminating, wp_bind]
  have named : stored.object.metadata.nameAny = d.name := by
    rw [ObjectMeta.nameAny, (server.named found).1]
    rfl
  have found' : server.objects (api.key d.name) = some stored := fitted.designates ▸ found
  refine wp_imp ?_ (wp_removeFinalizer_alone named found' rfl)
  rintro ⟨source, result⟩ after ⟨told, agree, released, -⟩
  obtain rfl : result = .ok true := told.trans (congrArg Except.ok (decide_eq_true carries))
  have lacks := ((released carries).lacks found').1
  rw [fitted.designates] at agree lacks
  exact ⟨rfl, rfl, rfl, reset, agree, fun stored' found'' _ => lacks stored' found''⟩

/-- The attempts make the entry of their destination current. -/
theorem wp_upsertLoop_current (fitted : Fitted api d state.template) :
    (upsertLoop api srcVersion 3 d state).wp (alone maker cache possible)
      (fun value after => Refreshes srcVersion d state.changed server value.1 value.2 after)
        server := by
  have finish {state : UpsertState} {attempts : Nat} {server : Server}
      (fitted : Fitted api d state.template) (updatable : server.Updatable d.key) :
      (upsertLoop api srcVersion (attempts + 1) d state).wp (alone maker cache possible)
        (fun value after => Refreshes srcVersion d state.changed server value.1 value.2 after)
          server := by
    rw [upsertLoop, wp_bind]
    refine wp_imp ?_ (wp_upsertAttempt_current fitted updatable)
    rintro ⟨d', state', flow⟩ after ⟨last, refreshes⟩
    have last : flow = .break_ := last
    rw [last]
    exact refreshes
  by_cases waiting : ∃ stored, server.objects d.key = some stored ∧
      stored.object.metadata.terminating = true ∧ finalizer ∈ stored.object.metadata.finalizerList
  · obtain ⟨stored, found, terminating, carries⟩ := waiting
    rw [upsertLoop, wp_bind]
    refine wp_imp ?_ (wp_upsertAttempt_release fitted found terminating carries)
    rintro ⟨d', state', flow⟩ middle ⟨rfl, rfl, same, fitted', agree, updatable⟩
    refine wp_imp ?_ (finish fitted' updatable)
    intro value after refreshes
    refine ⟨agree.trans refreshes.agree, refreshes.current, refreshes.target, fun unchanged => ?_⟩
    rw [← same]
    exact refreshes.unchanged unchanged
  · refine finish fitted fun stored found terminating carries => ?_
    exact waiting ⟨stored, found, terminating, carries⟩

end Upsert

/-- The loop over destinations with different keys, on its way to current entries for all of them.
-/
structure RefreshingEach (srcVersion : ObjectRevision) (destinations : List DestinationStatus)
    (start : Server) (handled todo : List DestinationStatus) (state : UpsertState)
    (server : Server) : Prop where
  agree : Agree (· ∈ destinations.map (·.key)) start server
  targets : (handled ++ todo).map (·.target) = destinations.map (·.target)
  current : ∀ d ∈ handled, server.Current srcVersion d
  unchanged : state.changed = false → handled ++ todo = destinations

section Each

variable {maker : Option ObjectSyncRef} {cache : List Namespace} {possible : Server → Prop}
  {srcVersion : ObjectRevision} {state : UpsertState} {server : Server}

/-- The loop over destinations with different keys makes all their entries current. -/
theorem wp_upsertEach_current (self : ResourceControllerImpl)
    (destinations : List DestinationStatus)
    (designates : ∀ d ∈ destinations, (self.namespacedApi d.namespace_).key d.name = d.key)
    (distinct : (destinations.map (·.key)).Nodup) :
    (self.upsertEach srcVersion [] destinations state).wp (alone maker cache possible)
      (fun value after =>
        RefreshingEach srcVersion destinations server value.1 [] value.2 after) server := by
  have start : RefreshingEach srcVersion destinations server [] destinations state server :=
    ⟨.refl _ _, rfl, fun d member => absurd member List.not_mem_nil, fun _ => rfl⟩
  refine wp_upsertEach_loop self [] ?_ ?_ [] destinations state server start
  · intro handled d todo state world remnant
    cases remnant
  · intro handled d todo state world _ refreshing
    have keys := DestinationStatus.keys_eq_of_targets refreshing.targets
    have listed : d.key ∈ destinations.map (·.key) := by
      rw [← keys]
      exact List.mem_map_of_mem (List.mem_append_right _ List.mem_cons_self)
    have designates' : (self.namespacedApi d.namespace_).key d.name = d.key := by
      have member : d.target ∈ destinations.map (·.target) := by
        rw [← refreshing.targets]
        exact List.mem_map_of_mem (List.mem_append_right _ List.mem_cons_self)
      obtain ⟨d', member', same⟩ := List.mem_map.mp member
      have known := designates d' member'
      have namespace_ : d'.namespace_ = d.namespace_ := congrArg (·.namespace_) same
      have name : d'.name = d.name := congrArg (·.name) same
      have key : d'.key = d.key := by
        rw [← DestinationStatus.target_key, same, DestinationStatus.target_key]
      rwa [namespace_, name, key] at known
    have fitted : Fitted (self.namespacedApi d.namespace_) d (fitTemplate state.template d) :=
      ⟨designates', rfl, rfl⟩
    refine wp_imp ?_ (wp_upsertLoop_current fitted)
    intro value after refreshes
    have others : ∀ other ∈ handled, other.key ≠ d.key := by
      rw [← keys, List.map_append, List.map_cons] at distinct
      intro other member same
      have apart := (List.nodup_append.mp distinct).2.2 other.key (List.mem_map_of_mem member) d.key
        List.mem_cons_self
      exact apart same
    refine ⟨?_, ?_, ?_, ?_⟩
    · refine refreshing.agree.trans (refreshes.agree.mono fun key same => ?_)
      rw [same]
      exact listed
    · rw [List.append_assoc, List.singleton_append, ← refreshing.targets, List.map_append,
        List.map_append, List.map_cons, List.map_cons, refreshes.target]
    · intro other member
      rcases List.mem_append.mp member with member | last
      · exact (refreshing.current other member).of_eq
          (refreshes.agree.objects _ (others other member))
      · rw [List.mem_singleton.mp last]
        exact refreshes.current
    · intro unchanged
      obtain ⟨before, same⟩ := refreshes.unchanged unchanged
      rw [List.append_assoc, List.singleton_append, same]
      exact refreshing.unchanged before

end Each

/-- The persisted entries of an ObjectSync have given targets, and all of them are current. -/
structure AllCurrent (o : ObjectSyncRef) (srcVersion : ObjectRevision)
    (expected : List DestinationStatus) (sync : ObjectSync) (server : Server) : Prop where
  persisted : ∃ sync', server.syncs o.name = some sync' ∧ StatusOnly sync sync' ∧
    ∃ destinations, sync'.statusDestinations = some destinations ∧
      destinations.map (·.target) = expected ∧ ∀ d ∈ destinations, server.Current srcVersion d

section First

variable {maker : Option ObjectSyncRef} {cache : List Namespace} {possible : Server → Prop}
  {server : Server} {o : ObjectSyncRef} {event : ObjectSyncModifications} {source : DynamicObject}

/-- Steps 3 and 4 of `reconcile_source` make all persisted entries current. -/
theorem wp_syncDestinations_current (self : ResourceControllerImpl) (removedCount : Nat)
    {destinations : List DestinationStatus} (inStep : InStep o event server)
    (persisted : event.original.status = event.modified.status)
    (tracked : event.modified.statusDestinations = some destinations)
    (designates : ∀ d ∈ destinations, (self.namespacedApi d.namespace_).key d.name = d.key)
    (distinct : (destinations.map (·.key)).Nodup) :
    (self.syncDestinations event source [] removedCount).wp (alone maker cache possible)
      (fun _ after => AllCurrent o source.metadata.revision (destinations.map (·.target))
        event.original after)
      server := by
  unfold syncDestinations upsertDestinations
  rw [tracked]
  dsimp only
  rw [wp_bind, wp_bind]
  refine wp_imp ?_ (self.wp_upsertEach_current destinations designates distinct)
  rintro ⟨destinations', state⟩ middle refreshing
  rw [pure_eq, wp_done]
  dsimp only
  have targets := refreshing.targets
  have current := refreshing.current
  rw [List.append_nil] at targets
  have inStep' : InStep o (event.updateDestinations destinations') middle := by
    have later : InStep o event middle :=
      ⟨refreshing.agree.syncs ▸ inStep.found, inStep.kept, inStep.present⟩
    exact later.modify fun sync => rfl
  by_cases decisive : (state.changed || decide (removedCount > 0)) = true
  · rw [if_pos decisive, wp_bind]
    unfold ObjectSyncModifications.updateCondition
    rw [wp_clock]
    intro _ same time read answered
    subst same
    have still : read = middle := answered.1
    subst still
    refine ⟨trivial, ?_⟩
    rw [pure_eq, wp_done]
    generalize inSyncCondition _ _ = condition
    have inStep'' : InStep o ((event.updateDestinations destinations').modify
        (·.updateCondition time condition)) read := inStep'.modify fun sync => rfl
    refine wp_imp ?_ (wp_replaceStatus_alone inStep'')
    rintro value after ⟨-, write⟩
    refine ⟨value.1.original, write.inStep.found, write.only, destinations', ?_, targets, ?_⟩
    · rw [ObjectSync.statusDestinations, write.persisted]
      rfl
    · intro d member
      exact (current d member).of_eq (congrFun write.agree.objects d.key)
  · rw [if_neg decisive]
    have unchanged := (Bool.or_eq_false_iff.mp (Bool.not_eq_true _ ▸ decisive)).1
    have same := refreshing.unchanged unchanged
    rw [List.append_nil] at same
    refine ⟨event.original, inStep'.found, ⟨rfl, rfl, rfl, rfl, rfl⟩, destinations, ?_, rfl, ?_⟩
    · rw [ObjectSync.statusDestinations, persisted]
      exact tracked
    · rw [← same]
      exact current

/-- The order of entries depends on their targets. -/
theorem sortDestinations_targets (destinations : List DestinationStatus) :
    (sortDestinations destinations).map (·.target) =
      sortDestinations (destinations.map (·.target)) :=
  List.map_insertionSort _ _ _ _ fun _ _ _ _ => Iff.rfl

/-- The expected destinations of an ObjectSync, sorted. -/
def sortedTargets (self : ResourceControllerImpl) (sync : ObjectSync) (cache : List Namespace) :
    List DestinationStatus :=
  sortDestinations ((expectedDestinations sync cache).map self.expectedStatus)

/-- An undisturbed run makes all persisted entries current, when the expected destinations are
different objects. -/
theorem wp_reconcileSource_current (self : ResourceControllerImpl) {sync : ObjectSync}
    (found : server.syncs o.name = some sync) (present : sync.metadata.gone = false)
    (distinct : ((expectedDestinations sync cache).map fun target =>
      (self.expectedStatus target).key).Nodup) :
    (self.reconcileSource (.new sync) source).wp (alone maker cache possible)
      (fun _ after =>
        AllCurrent o source.metadata.revision (self.sortedTargets sync cache) sync after)
      server := by
  unfold reconcileSource
  refine wp_namespaces_alone ?_
  have targets := self.splitDestinations_targets (expectedDestinations sync cache)
    sync.destinationList
  have keys := self.splitDestinations_expected_keys (expectedDestinations sync cache)
    sync.destinationList
  have designated (d : DestinationStatus) := @exists_target_of_mem_expected self
    (expectedDestinations sync cache) sync.destinationList d
  have modified : (ObjectSyncModifications.new sync).modified = sync := rfl
  rw [modified]
  generalize self.splitDestinations (expectedDestinations sync cache) sync.destinationList =
    split_ at *
  obtain ⟨expected, stale⟩ := split_
  dsimp only at targets keys designated ⊢
  rw [wp_bind]
  refine wp_imp ?_ (wp_deleteDestinations_alone stale)
  rintro result middle ⟨rfl, cleared⟩
  dsimp only
  rw [wp_bind, List.append_nil]
  have inStep : InStep o ((ObjectSyncModifications.new sync).updateDestinations
      (sortDestinations expected)) middle := by
    refine InStep.modify ⟨?_, rfl, present⟩ fun sync => rfl
    rw [cleared.agree.syncs]
    exact found
  refine wp_imp ?_ (wp_replaceStatus_alone inStep)
  rintro ⟨event, result⟩ written ⟨ok, write⟩
  have ok : result = .ok () := ok
  rw [ok]
  dsimp only
  have tracked : event.modified.statusDestinations = some (sortDestinations expected) := by
    rw [ObjectSync.statusDestinations, write.same]
    rfl
  have perm := sortDestinations_perm expected
  have distinct' : ((sortDestinations expected).map (·.key)).Nodup := by
    rw [(perm.map _).nodup_iff, keys]
    exact distinct
  refine wp_imp ?_ (self.wp_syncDestinations_current _ write.inStep
    (write.persisted.trans write.same.symm) tracked (fun d member => ?_) distinct')
  · rintro value after ⟨sync', found', only, destinations, tracked', targets', current⟩
    refine ⟨sync', found', write.only.trans only, destinations, tracked', ?_, current⟩
    rw [targets', sortDestinations_targets, targets]
    rfl
  · obtain ⟨target, -, designates⟩ := designated d (perm.mem_iff.mp member)
    exact namespacedApi_key designates

end First

/-- Entries that are in order and have different keys of one group and kind are determined by what
they are. -/
theorem eq_sortDestinations {group kind : String} {destinations others : List DestinationStatus}
    (ordered : destinations.Pairwise fun left right => left.le right = true)
    (perm : others.Perm destinations) (distinct : (destinations.map (·.key)).Nodup)
    (uniform : ∀ d ∈ destinations, d.group = group ∧ d.kind = kind) :
    sortDestinations others = destinations := by
  have perm' := (sortDestinations_perm others).trans perm
  refine List.Perm.eq_of_pairwise ?_ (pairwise_sortDestinations others) ordered perm'
  intro left right member member' below above
  have member := perm'.mem_iff.mp member
  rw [destinationStatus_le_iff] at below above
  have same := Prod.mk.inj (toLex.injective (le_antisymm below above))
  have keys : left.key = right.key := by
    unfold DestinationStatus.key
    rw [same.1, same.2, (uniform left member).1, (uniform left member).2, (uniform right member').1,
      (uniform right member').2]
  exact List.inj_on_of_nodup_map distinct member member' keys

/-- The names of the live namespaces that a cache lists. -/
def liveNames (cache : List Namespace) : List String :=
  (cache.filter fun ns => ns.deletionTimestamp.isNone).map (·.name)

/-- A namespace is live exactly if the one of its name that is found is. -/
theorem mem_liveNames {cache : List Namespace} (distinct : (cache.map (·.name)).Nodup)
    (name : String) :
    name ∈ liveNames cache ↔
      ∃ ns, cache.find? (fun ns => ns.name == name) = some ns ∧ ns.deletionTimestamp.isNone := by
  constructor
  · intro member
    obtain ⟨ns, live, named⟩ := List.mem_map.mp member
    obtain ⟨listed, present⟩ := List.mem_filter.mp live
    exact ⟨ns, (KeyedList.find?_eq_some_iff distinct).mpr ⟨listed, named⟩, present⟩
  · rintro ⟨ns, found, present⟩
    obtain ⟨listed, named⟩ := (KeyedList.find?_eq_some_iff distinct).mp found
    rw [← named]
    exact List.mem_map_of_mem (List.mem_filter.mpr ⟨listed, present⟩)

/-- The expected destinations of an entry depend on the live namespaces. -/
theorem expand_eq (sync : ObjectSync) {cache : List Namespace}
    (distinct : (cache.map (·.name)).Nodup) (d : Destination) :
    expand sync cache d =
      if d.appliesToAllNamespaces then
        (liveNames cache).filterMap fun name =>
          (d.appliesTo sync name).map fun target => (target.1, target.2, d.strategy)
      else
        ((d.appliesTo sync d.namespace_).map fun target =>
          (target.1, target.2, d.strategy)).toList.filter fun _ =>
            d.namespace_ ∈ liveNames cache := by
  unfold expand
  by_cases everywhere : d.appliesToAllNamespaces = true
  · rw [if_pos everywhere, if_pos everywhere]
    unfold liveNames
    rw [List.filterMap_map, List.filterMap_filter]
    rfl
  · rw [if_neg everywhere, if_neg everywhere]
    cases applies : d.appliesTo sync d.namespace_ with
    | none => rfl
    | some target =>
      obtain ⟨namespace_, name⟩ := target
      dsimp only [Option.map_some, Option.toList]
      have live := mem_liveNames distinct d.namespace_
      cases found : cache.find? fun ns => ns.name == d.namespace_ with
      | none =>
        rw [found] at live
        have absent : d.namespace_ ∉ liveNames cache := by
          intro member
          obtain ⟨ns, none, -⟩ := live.mp member
          cases none
        simp [absent]
      | some ns =>
        rw [found] at live
        dsimp only
        by_cases present : ns.deletionTimestamp.isNone = true
        · have member := live.mpr ⟨ns, rfl, present⟩
          simp [present, member]
        · have absent : d.namespace_ ∉ liveNames cache := by
            intro member
            obtain ⟨ns', same, present'⟩ := live.mp member
            rw [← Option.some.inj same] at present'
            exact present present'
          simp [present, absent]

/-- The order in which the namespaces are listed decides about that of the expected destinations,
and nothing else. -/
theorem expectedDestinations_perm {sync sync' : ObjectSync} {cache cache' : List Namespace}
    (spec : sync'.spec = sync.spec)
    (namespace_ : sync'.metadata.namespace_ = sync.metadata.namespace_)
    (distinct : (cache.map (·.name)).Nodup) (distinct' : (cache'.map (·.name)).Nodup)
    (live : ∀ name, name ∈ liveNames cache ↔ name ∈ liveNames cache') :
    (expectedDestinations sync' cache').Perm (expectedDestinations sync cache) := by
  have applies (d : Destination) (name : String) :
      d.appliesTo sync' name = d.appliesTo sync name := by
    unfold Destination.appliesTo
    rw [spec, namespace_]
  have nodup {cache : List Namespace} (distinct : (cache.map (·.name)).Nodup) :
      (liveNames cache).Nodup :=
    distinct.sublist (List.filter_sublist.map _)
  have perm : (liveNames cache').Perm (liveNames cache) :=
    (List.perm_ext_iff_of_nodup (nodup distinct') (nodup distinct)).mpr fun name => (live name).symm
  unfold expectedDestinations
  rw [spec]
  refine List.Perm.flatMap_left _ fun d _ => ?_
  rw [expand_eq sync' distinct', expand_eq sync distinct]
  simp only [applies, live]
  by_cases everywhere : d.appliesToAllNamespaces = true
  · rw [if_pos everywhere, if_pos everywhere]
    exact perm.filterMap _
  · rw [if_neg everywhere, if_neg everywhere]

/-- An entry is what it designates, with its revisions. -/
theorem eq_of_target {d entry : DestinationStatus} (target : d.target = entry.target)
    (source : d.sourceVersion = entry.sourceVersion)
    (synced : d.syncedVersion = entry.syncedVersion) : d = entry := by
  cases d
  cases entry
  simp only [DestinationStatus.target, DestinationStatus.mk.injEq] at target source synced ⊢
  tauto

/-- Where every expected destination is recorded as it is expected, the expected entries are
recorded ones. -/
theorem mem_recorded_of_mem_expected (self : ResourceControllerImpl)
    (targets : List (String × String × Option SyncStrategy)) (recorded : List DestinationStatus)
    (distinct : (recorded.map (·.key)).Nodup)
    (distinct' : (targets.map fun target => (self.expectedStatus target).key).Nodup)
    (listed : ∀ target ∈ targets, ∃ d ∈ recorded, d.target = self.expectedStatus target) :
    ∀ d ∈ (self.splitDestinations targets recorded).1, d ∈ recorded := by
  induction targets generalizing recorded with
  | nil => exact fun d member => absurd member List.not_mem_nil
  | cons target rest ih =>
    intro entry member
    obtain ⟨d, known, same⟩ := listed target List.mem_cons_self
    have key : d.key = (self.expectedStatus target).key := by
      rw [← DestinationStatus.target_key, same]
    have found : (recorded.find? fun d => isSameDestination d (self.expectedStatus target)) =
        some d :=
      (KeyedList.find?_test_eq_some_iff distinct fun _ => isSameDestination_iff).mpr ⟨known, key⟩
    have strategy : d.effectiveStrategy = (self.expectedStatus target).effectiveStrategy := by
      rw [← same]
      rfl
    rw [splitDestinations] at member
    dsimp only at member
    rw [found] at member
    dsimp only at member
    rw [if_pos strategy] at member
    rcases List.mem_cons.mp member with first | later
    · have whole : entry = d := by
        rw [first]
        refine eq_of_target ?_ rfl rfl
        rw [same]
        rfl
      rw [whole]
      exact known
    · rw [List.map_cons, List.nodup_cons] at distinct'
      refine (List.mem_filter.mp (ih _ ?_ distinct'.2 ?_ entry later)).1
      · exact distinct.sublist (List.filter_sublist.map _)
      · intro other member'
        obtain ⟨d', known', same'⟩ := listed other (List.mem_cons_of_mem _ member')
        refine ⟨d', List.mem_filter.mpr ⟨known', ?_⟩, same'⟩
        rw [Bool.not_eq_true', ← Bool.not_eq_true, isSameDestination_iff]
        intro sameKey
        have key' : d'.key = (self.expectedStatus other).key := by
          rw [← DestinationStatus.target_key, same']
        refine distinct'.1 (List.mem_map.mpr ⟨other, member', ?_⟩)
        rw [← key', sameKey]
        rfl

/-- Where exactly the expected destinations are recorded, in order, the entries expected are those
that are recorded, and none is stale. -/
theorem splitDestinations_recorded (self : ResourceControllerImpl)
    {targets : List (String × String × Option SyncStrategy)} {recorded : List DestinationStatus}
    (ordered : recorded.Pairwise fun left right => left.le right = true)
    (perm : (recorded.map (·.target)).Perm (targets.map self.expectedStatus))
    (distinct : (targets.map fun target => (self.expectedStatus target).key).Nodup) :
    sortDestinations (self.splitDestinations targets recorded).1 = recorded ∧
      (self.splitDestinations targets recorded).2 = [] := by
  have wanted {d : DestinationStatus} (member : d ∈ recorded) :
      ∃ target ∈ targets, self.expectedStatus target = d.target :=
    List.mem_map.mp (perm.mem_iff.mp (List.mem_map_of_mem (f := (·.target)) member))
  have distinct' : (recorded.map (·.key)).Nodup := by
    have keys := perm.map (·.key)
    rw [List.map_map, List.map_map] at keys
    exact keys.nodup_iff.mpr distinct
  have uniform : ∀ d ∈ recorded, d.group = self.gvk.group ∧ d.kind = self.gvk.kind := by
    intro d member
    obtain ⟨target, -, same⟩ := wanted member
    have group : self.gvk.group = d.group := congrArg (·.group) same
    have kind : self.gvk.kind = d.kind := congrArg (·.kind) same
    exact ⟨group.symm, kind.symm⟩
  constructor
  · have known := self.mem_recorded_of_mem_expected targets recorded distinct' distinct
      fun target member => by
        obtain ⟨d, member', same⟩ :=
          List.mem_map.mp (perm.mem_iff.mpr (List.mem_map_of_mem member))
        exact ⟨d, member', same⟩
    have nodup : ((self.splitDestinations targets recorded).1.map (·.key)).Nodup := by
      rw [self.splitDestinations_expected_keys targets recorded]
      exact distinct
    have lengths : recorded.length ≤ (self.splitDestinations targets recorded).1.length := by
      have first := congrArg List.length (self.splitDestinations_targets targets recorded)
      have second := perm.length_eq
      rw [List.length_map, List.length_map] at first second
      omega
    exact eq_sortDestinations ordered
      ((List.subperm_of_subset nodup.of_map known).perm_of_length_le lengths) distinct' uniform
  · rw [self.splitDestinations_stale targets recorded, List.filter_eq_nil_iff]
    intro d member
    obtain ⟨target, member', same⟩ := wanted member
    have key : d.key = (self.expectedStatus target).key := by
      rw [same, DestinationStatus.target_key]
    intro unexpected
    exact of_decide_eq_true (List.all_eq_true.mp unexpected target member') key

end ResourceControllerImpl

/-! ## The second run -/

/-- A call that changes nothing. -/
def Call.reads : Call → Bool
  | .api (.get ..) | .api (.getSync _) | .api (.getSyncStatus _) | .api (.discoverGroup _) => true
  | .namespaces | .clock => true
  | _ => false

/-- Nobody else acts, every request is served, and all calls of a run are to be reads. -/
@[reducible] def watching (maker : Option ObjectSyncRef) (cache : List Namespace) :
    Contract Call Reply Server :=
  { alone maker cache fun _ => True with guarantee := fun _ call _ _ => call.reads = true }

namespace ResourceControllerImpl

section Second

variable {maker : Option ObjectSyncRef} {cache : List Namespace} {srcVersion : ObjectRevision}
  {api : DynamicApi} {d : DestinationStatus} {state : UpsertState} {server : Server}

/-- A current destination is read and left alone. -/
theorem wp_upsertLoop_watching (attempts : Nat) (designates : api.key d.name = d.key)
    (current : server.Current srcVersion d)
    (live : ∀ stored, server.objects d.key = some stored →
      stored.object.metadata.terminating = false) :
    (upsertLoop api srcVersion (attempts + 1) d state).wp (watching maker cache)
      (fun value after => after = server ∧ value.1 = d ∧
        value.2.changed = state.changed) server := by
  obtain ⟨stored, found, synced_⟩ := current.copy
  rw [upsertLoop, wp_bind]
  unfold upsertAttempt
  dsimp only
  rw [wp_api]
  intro _ same reply after answered
  subst same
  refine ⟨rfl, ?_⟩
  obtain ⟨choice, served⟩ := answered.1
  have answer : server.serve maker choice (.get api d.name) = (.ok stored.object, server) := by
    simp only [serve, designates, found]
  rw [answer] at served
  obtain ⟨rfl, rfl⟩ := Prod.mk.inj served
  have revisions : ¬(some stored.object.metadata.revision ≠ d.syncedVersion ∨
      some srcVersion ≠ d.sourceVersion) := by
    rw [synced_, current.source]
    simp
  dsimp only
  rw [live stored found, if_neg Bool.false_ne_true]
  unfold updateExisting
  dsimp only
  rw [if_neg revisions]
  exact ⟨rfl, rfl, rfl⟩

/-- Current destinations are read and left alone. -/
theorem wp_upsertEach_watching (self : ResourceControllerImpl)
    (destinations : List DestinationStatus)
    (designates : ∀ d ∈ destinations, (self.namespacedApi d.namespace_).key d.name = d.key)
    (current : ∀ d ∈ destinations, server.Current srcVersion d)
    (live : ∀ d ∈ destinations, ∀ stored, server.objects d.key = some stored →
      stored.object.metadata.terminating = false) :
    (self.upsertEach srcVersion [] destinations state).wp (watching maker cache)
      (fun value after => after = server ∧ value.1 = destinations ∧
        value.2.changed = state.changed) server := by
  refine wp_imp ?_ (@wp_upsertEach_loop srcVersion _ (watching maker cache)
    (fun handled todo later after => after = server ∧ handled ++ todo = destinations ∧
      later.changed = state.changed) self [] ?_ ?_ [] destinations state server ⟨rfl, rfl, rfl⟩)
  · rintro value after ⟨rfl, same, unchanged⟩
    rw [List.nil_append, List.append_nil] at same
    exact ⟨rfl, same, unchanged⟩
  · intro handled d todo state' world remnant
    cases remnant
  · rintro handled d todo state' _ _ ⟨rfl, same, unchanged⟩
    have member : d ∈ destinations := by
      rw [← same]
      exact List.mem_append_right _ List.mem_cons_self
    refine wp_imp ?_ (wp_upsertLoop_watching 2 (designates d member) (current d member)
      (live d member))
    rintro value after ⟨rfl, rfl, unchanged'⟩
    refine ⟨rfl, ?_, unchanged'.trans unchanged⟩
    rw [List.append_assoc]
    exact same

/-- Recording the destinations that are recorded leaves the status. -/
theorem updateDestinations_recorded {sync : ObjectSync} {recorded : List DestinationStatus}
    (tracked : sync.statusDestinations = some recorded) :
    some ((sync.status.getD .default).updateDestinations recorded) = sync.status := by
  unfold ObjectSync.statusDestinations at tracked
  cases persisted : sync.status with
  | none =>
    rw [persisted] at tracked
    cases tracked
  | some status =>
    rw [persisted] at tracked
    have destinations : status.destinations = some recorded := tracked
    rw [Option.getD_some, ObjectSyncStatus.updateDestinations, ← destinations]

/-- A run on current entries, with the namespaces in any order, only reads and computes the status
that is persisted. -/
theorem wp_reconcileSource_watching (self : ResourceControllerImpl) {sync : ObjectSync}
    {source : DynamicObject} {recorded : List DestinationStatus}
    (tracked : sync.statusDestinations = some recorded)
    (ordered : recorded.Pairwise fun left right => left.le right = true)
    (perm : (recorded.map (·.target)).Perm
      ((expectedDestinations sync cache).map self.expectedStatus))
    (distinct : ((expectedDestinations sync cache).map fun target =>
      (self.expectedStatus target).key).Nodup)
    (current : ∀ d ∈ recorded, server.Current source.metadata.revision d)
    (live : ∀ d ∈ recorded, ∀ stored, server.objects d.key = some stored →
      stored.object.metadata.terminating = false) :
    (self.reconcileSource (.new sync) source).wp (watching maker cache)
      (fun value after => after = server ∧ value.2 = .ok () ∧
        value.1.modified.status = sync.status) server := by
  have listed : sync.destinationList = recorded := by
    rw [ObjectSync.destinationList, tracked]
    rfl
  have designates : ∀ d ∈ recorded, (self.namespacedApi d.namespace_).key d.name = d.key := by
    intro d member
    obtain ⟨target, -, same⟩ :=
      List.mem_map.mp (perm.mem_iff.mp (List.mem_map_of_mem (f := (·.target)) member))
    exact namespacedApi_key same
  obtain ⟨sorted, none⟩ := self.splitDestinations_recorded ordered perm distinct
  unfold reconcileSource
  rw [wp_namespaces]
  intro _ same cache' after answered
  have still : server = after := same.trans answered.1.symm
  have accurate : cache = cache' := answered.2.1.symm
  subst still accurate
  refine ⟨rfl, ?_⟩
  have modified : (ObjectSyncModifications.new sync).modified = sync := rfl
  rw [modified, listed]
  generalize self.splitDestinations (expectedDestinations sync cache) recorded = split_ at *
  obtain ⟨expected, stale⟩ := split_
  dsimp only at sorted none ⊢
  -- Nothing is stale, and the entries written ahead are those that are persisted.
  rw [none, deleteDestinations, pure_eq, done_bind]
  dsimp only
  rw [List.append_nil, sorted]
  have status : ((ObjectSyncModifications.new sync).updateDestinations recorded).modified.status =
      sync.status := updateDestinations_recorded tracked
  have unchanged : ((ObjectSyncModifications.new sync).updateDestinations
      recorded).statusHasChanged = false := by
    unfold ObjectSyncModifications.statusHasChanged
    rw [status, bne_eq_false_iff_eq]
    rfl
  unfold ObjectSyncModifications.replaceStatus
  rw [unchanged, if_neg Bool.false_ne_true, pure_eq, done_bind]
  dsimp only
  unfold syncDestinations upsertDestinations
  have tracked' : ((ObjectSyncModifications.new sync).updateDestinations
      recorded).modified.statusDestinations = some recorded := rfl
  rw [tracked']
  dsimp only
  rw [wp_bind, wp_bind]
  refine wp_imp ?_ (self.wp_upsertEach_watching recorded designates current live)
  rintro ⟨destinations, state⟩ after ⟨rfl, rfl, unwritten⟩
  have unwritten : state.changed = false := unwritten
  rw [pure_eq, wp_done]
  dsimp only
  rw [unwritten, List.length_nil, if_neg (by decide)]
  refine ⟨rfl, rfl, ?_⟩
  rw [← status]
  rfl

end Second

end ResourceControllerImpl

open ResourceControllerImpl

/-- Destinations of different namespaces or names have different keys. -/
theorem nodup_keys_of_targets (self : ResourceControllerImpl)
    {targets : List (String × String × Option SyncStrategy)}
    (distinct : (targets.map fun target => (target.1, target.2.1)).Nodup) :
    (targets.map fun target => (self.expectedStatus target).key).Nodup := by
  have keys : (targets.map fun target => (self.expectedStatus target).key) =
      (targets.map fun target => (target.1, target.2.1)).map fun pair =>
        (⟨self.gvk.group, self.gvk.kind, pair.1, pair.2⟩ : ObjectKey) := by
    rw [List.map_map]
    rfl
  rw [keys]
  refine List.Nodup.map ?_ distinct
  intro left right same
  exact Prod.ext (congrArg (·.namespace_) same) (congrArg (·.name) same)

/-- **Quiescence.** After a run that nobody disturbed, for destinations that are different objects
of which none terminates now, a second run on what the first one persisted only reads, changes
nothing and computes the persisted status, in whatever order the same live namespaces are listed. -/
theorem reconcileSource_quiescent {self : ResourceControllerImpl} {o : ObjectSyncRef}
    {server after : Server} {sync sync' : ObjectSync} {source : DynamicObject}
    {cache cache' : List Namespace}
    {value : ObjectSyncModifications × Except ControllerError Unit}
    (found : server.syncs o.name = some sync) (present : sync.metadata.gone = false)
    (distinct : ((expectedDestinations sync cache).map fun target => (target.1, target.2.1)).Nodup)
    (once : (cache.map (·.name)).Nodup) (once' : (cache'.map (·.name)).Nodup)
    (live : ∀ name, name ∈ liveNames cache ↔ name ∈ liveNames cache')
    (returned : Returns (alone (some o) cache fun _ => True).rely
      (alone (some o) cache fun _ => True).answers (self.reconcileSource (.new sync) source) server
      value after)
    (persisted : after.syncs o.name = some sync')
    (staying : ∀ target ∈ expectedDestinations sync cache, ∀ stored,
      after.objects (self.expectedStatus target).key = some stored →
        stored.object.metadata.terminating = false) :
    (∀ call, Issues (alone (some o) cache' fun _ => True).rely
      (alone (some o) cache' fun _ => True).answers (self.reconcileSource (.new sync') source) after
      call → call.reads = true) ∧
    ∀ value' last, Returns (alone (some o) cache' fun _ => True).rely
      (alone (some o) cache' fun _ => True).answers (self.reconcileSource (.new sync') source) after
      value' last → value'.2 = .ok () ∧ value'.1.modified.status = sync'.status ∧ last = after := by
  have keys := nodup_keys_of_targets self distinct
  obtain ⟨sync'', persisted', only, recorded, tracked, targets, current⟩ :=
    returned.meets (self.wp_reconcileSource_current found present keys)
  rw [persisted] at persisted'
  obtain rfl := Option.some.inj persisted'
  have perm : (expectedDestinations sync' cache').Perm (expectedDestinations sync cache) :=
    expectedDestinations_perm only.spec only.namespace_ once once' live
  have perm' : (recorded.map (·.target)).Perm
      ((expectedDestinations sync cache).map self.expectedStatus) := by
    rw [targets]
    exact sortDestinations_perm _
  have ordered : recorded.Pairwise fun left right => left.le right = true := by
    have sorted := pairwise_sortDestinations
      ((expectedDestinations sync cache).map self.expectedStatus)
    rw [sortedTargets] at targets
    rw [← targets, List.pairwise_map] at sorted
    exact sorted
  have staying' : ∀ d ∈ recorded, ∀ stored, after.objects d.key = some stored →
      stored.object.metadata.terminating = false := by
    intro d member
    obtain ⟨target, member', same⟩ :=
      List.mem_map.mp (perm'.mem_iff.mp (List.mem_map_of_mem (f := (·.target)) member))
    have key : (self.expectedStatus target).key = d.key := by
      rw [same, DestinationStatus.target_key]
    rw [← key]
    exact staying target member'
  have quiet := @wp_reconcileSource_watching (some o) cache' after self sync' source
    recorded tracked
    ordered (perm'.trans (perm.map _).symm) ((perm.map _).nodup_iff.mpr keys) current staying'
  constructor
  · intro call issued
    have issued' : Issues (watching (some o) cache').rely (watching (some o) cache').answers
      (self.reconcileSource (.new sync') source) after call := issued
    obtain ⟨world, reply, later, reads⟩ :=
      issued'.guaranteed (fun _ => rfl) (alone_total (some o) cache') quiet
    exact reads
  · intro value' last returned'
    have returned'' : Returns (watching (some o) cache').rely (watching (some o) cache').answers
      (self.reconcileSource (.new sync') source) after value' last := returned'
    obtain ⟨same, ok, status⟩ := returned''.meets quiet
    exact ⟨ok, status, same⟩

/-- The answers to undisturbed runs that copy the settings are possible. -/
theorem copyingAnswer_alone (resourceVersion : String) (server : Server) (call : Call) :
    (alone (some settingsRef) settingsNamespaces fun _ => True).answers server call
      (copyingAnswer resourceVersion server call).1
      (copyingAnswer resourceVersion server call).2 := by
  cases call with
  | api request => exact ⟨⟨_, rfl⟩, trivial, trivial⟩
  | namespaces => exact ⟨rfl, rfl, trivial⟩
  | _ => exact ⟨rfl, trivial, trivial⟩

/-- The server after a run that copies the settings. -/
def settingsQuiet : Server :=
  ((configMaps.reconcileSource (.new settingsSync) settingsSource).run (copyingAnswer "2")
    settingsServer).2

/-- The ObjectSync of the settings as a run that converged has left it. -/
def settingsQuietSync : ObjectSync := (settingsQuiet.syncs settingsRef.name).getD settingsSync

/-- A second run for the settings, with a namespace that terminates, only reads. -/
theorem settingsQuiet_quiescent :
    ¬∃ call, Issues
      (alone (some settingsRef) (⟨"old", none, some 1⟩ :: settingsNamespaces) fun _ => True).rely
      (alone (some settingsRef) (⟨"old", none, some 1⟩ :: settingsNamespaces) fun _ => True).answers
      (configMaps.reconcileSource (.new settingsQuietSync) settingsSource) settingsQuiet call ∧
        call.reads = false := by
  have returned := @returns_run _ _ _ _
    (alone (some settingsRef) settingsNamespaces fun _ => True).rely
    (alone (some settingsRef) settingsNamespaces fun _ => True).answers
    (copyingAnswer "2") (fun _ => rfl) (copyingAnswer_alone "2")
    (configMaps.reconcileSource (.new settingsSync) settingsSource) settingsServer
  have staying : ∀ target ∈ expectedDestinations settingsSync settingsNamespaces,
      (settingsQuiet.objects (configMaps.expectedStatus target).key).all
        fun stored => !stored.object.metadata.terminating := by decide +kernel
  have quiescent := @reconcileSource_quiescent configMaps settingsRef settingsServer settingsQuiet
    settingsSync settingsQuietSync settingsSource settingsNamespaces
    (⟨"old", none, some 1⟩ :: settingsNamespaces)
    _ rfl rfl (by decide +kernel) (by decide +kernel) (by decide +kernel)
      (fun _ => Iff.rfl) returned
    (by decide +kernel) ?_
  · rintro ⟨call, issued, writes⟩
    have reads := quiescent.1 call issued
    rw [writes] at reads
    cases reads
  · intro target member stored stored_
    have live := staying target member
    rw [stored_] at live
    exact Bool.not_eq_true' _ ▸ live

end ObjectSyncer
