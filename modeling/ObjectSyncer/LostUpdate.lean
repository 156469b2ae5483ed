import ObjectSyncer.Interaction.Pool
import ObjectSyncer.Server

/-!
# Two writers of one status

A run of `reconcile_source` and a run of the main controller work on their own snapshots of one
ObjectSync, and each writes the whole status with the resource version of the latest one. For each
writer is recorded which destinations its snapshot lists or expects and which it has asked to
delete: a status write loses no entry exactly when these cover the persisted entries.
-/
namespace ObjectSyncer

open Interaction Interaction.Program

/-- The two writers of the status of an ObjectSync. -/
inductive Writer where
  | resourceController
  | objectSyncController
  deriving DecidableEq, Repr

/-- What a writer has seen of the destinations of an ObjectSync. -/
structure Sight where
  /-- The ObjectSync it started from. -/
  snapshot : ObjectSync
  /-- The keys listed by the ObjectSync it last read or wrote, and expected by it. -/
  listed : List ObjectKey
  /-- The keys it has called `delete` for. -/
  asked : List ObjectKey
  deriving DecidableEq, Repr

/-- The sight of a writer that starts from a snapshot. -/
def Sight.of (snapshot : ObjectSync) : Sight := ⟨snapshot, snapshot.destinationList.map (·.key), []⟩

/-- What a writer sees by a call. -/
def Sight.see (self : ResourceControllerImpl) (sight : Sight) : (call : Call) → Reply call → Sight
  | .api (.delete api name), _ => { sight with asked := api.key name :: sight.asked }
  | .api (.replaceSyncStatus ..), .ok written =>
    { sight with listed := written.destinationList.map (·.key) }
  | .api (.jsonPatchSync ..), .ok written =>
    { sight with listed := written.destinationList.map (·.key) }
  | .namespaces, cache =>
    { sight with
      listed := sight.listed ++
        (ResourceControllerImpl.expectedDestinations sight.snapshot cache).map fun target =>
          (self.expectedStatus target).key }
  | _, _ => sight

/-- A list of destinations has the keys that a writer has seen, up to those it has asked to
delete. -/
def Sight.Covers (sight : Sight) (destinations : List DestinationStatus) : Prop :=
  ∀ key, (key ∈ destinations.map (·.key) ∨ key ∈ sight.asked) ↔
    (key ∈ sight.listed ∨ key ∈ sight.asked)

/-- A server with the sights of two writers. -/
structure SharedSync where
  server : Server
  sight : Writer → Sight

/-- The keys of the persisted destinations of an ObjectSync. -/
def SharedSync.persisted (shared : SharedSync) (o : ObjectSyncRef) : List ObjectKey :=
  ((shared.server.syncs o.name).map fun sync => sync.destinationList.map (·.key)).getD []

/-- A step of a writer loses no persisted destination, but for those it has asked to delete. -/
def LosesNone (o : ObjectSyncRef) (writer : Writer) (before after : SharedSync) : Prop :=
  ∀ key ∈ before.persisted o, key ∈ after.persisted o ∨ key ∈ (before.sight writer).asked

/-- A writer has listed, expected or asked to delete every persisted destination. -/
def SeesAll (o : ObjectSyncRef) (writer : Writer) (shared : SharedSync) : Prop :=
  ∀ key ∈ shared.persisted o,
    key ∈ (shared.sight writer).listed ∨ key ∈ (shared.sight writer).asked

/-- Whether a step loses none of the persisted destinations can be computed. -/
instance (o : ObjectSyncRef) (writer : Writer) (before after : SharedSync) :
    Decidable (LosesNone o writer before after) :=
  inferInstanceAs (Decidable (∀ key ∈ before.persisted o, _))

/-- Whether a writer has seen all persisted destinations can be computed. -/
instance (o : ObjectSyncRef) (writer : Writer) (shared : SharedSync) :
    Decidable (SeesAll o writer shared) :=
  inferInstanceAs (Decidable (∀ key ∈ shared.persisted o, _))

/-- What a writer runs on a snapshot. -/
def Writer.program (self : ResourceControllerImpl) (configuration : Configuration)
    (snapshot : ObjectSync) (source : DynamicObject) : Writer → Async Unit
  | .resourceController => do
    let _ ← self.reconcileSource (.new snapshot) source
  | .objectSyncController => do
    let _ ← ObjectSyncController.reconcile configuration snapshot

/-- A writer starts from a snapshot. -/
def SharedSync.startedBy (shared : SharedSync) (writer : Writer) (snapshot : ObjectSync) :
    SharedSync :=
  { shared with sight := Function.update shared.sight writer (Sight.of snapshot) }

/-- The two writers of the status of an ObjectSync, on any snapshots of it, with any replies, while
others change the server at will. -/
def writers (self : ResourceControllerImpl) (configuration : Configuration) (o : ObjectSyncRef) :
    Rules Writer Call Reply SharedSync Unit where
  starts := fun writer before program after => ∃ snapshot source,
    ObjectSyncRef.ofSync snapshot = o ∧
      program = writer.program self configuration snapshot source ∧
      after = before.startedBy writer snapshot
  answers := fun writer before call reply after =>
    answersBy (Faulty (some o)) before.server call reply after.server ∧
      after.sight = Function.update before.sight writer ((before.sight writer).see self call reply)
  ends := fun _ before _ after => after = before
  moves := fun before after => after.sight = before.sight

/-- What a writer relies on and guarantees, in terms of its sight: it writes the keys it has
seen. -/
@[reducible] def sighted (self : ResourceControllerImpl) : Contract Call Reply Sight where
  rely := fun before after => before = after
  answers := fun before call reply after => Honest call reply ∧ after = before.see self call reply
  guarantee := fun before call _ _ =>
    match call with
    | .api (.replaceSyncStatus _ body) => before.Covers body.destinationList
    | _ => True

/-- A call by which a writer sees nothing new. -/
def Unseen : Call → Prop
  | .api (.delete ..) | .api (.replaceSyncStatus ..) | .api (.jsonPatchSync ..) => False
  | .namespaces => False
  | _ => True

/-- A writer has asked to delete more, and has otherwise seen nothing new. -/
structure Sight.Grown (before after : Sight) : Prop where
  snapshot : after.snapshot = before.snapshot
  listed : after.listed = before.listed
  asked : ∀ key ∈ before.asked, key ∈ after.asked

section Sights

variable {before middle after : Sight} {destinations removed remaining : List DestinationStatus}

/-- A sight that stays as it is has grown. -/
theorem Sight.Grown.refl (sight : Sight) : sight.Grown sight := ⟨rfl, rfl, fun _ => id⟩

/-- A sight that has grown twice has grown. -/
theorem Sight.Grown.trans (first : before.Grown middle) (second : middle.Grown after) :
    before.Grown after :=
  ⟨second.snapshot.trans first.snapshot, second.listed.trans first.listed,
    fun key member => second.asked key (first.asked key member)⟩

/-- Asking to delete more keeps a list covered. -/
theorem Sight.Covers.grown (covers : before.Covers destinations) (grown : before.Grown after) :
    after.Covers destinations := by
  intro key
  have same := covers key
  have asked := grown.asked key
  rw [grown.listed]
  tauto

/-- Entries whose deletion was asked for may be left out. -/
theorem Sight.Covers.without (covers : after.Covers (destinations ++ removed))
    (deleted : ∀ d ∈ removed, d.key ∈ after.asked) (fewer : remaining.Sublist removed) :
    after.Covers (destinations ++ remaining) := by
  intro key
  have asked : key ∈ removed.map (·.key) → key ∈ after.asked := by
    intro member
    obtain ⟨d, listed, rfl⟩ := List.mem_map.mp member
    exact deleted d listed
  have kept : key ∈ remaining.map (·.key) → key ∈ removed.map (·.key) :=
    fun member => (fewer.map _).subset member
  have same := covers key
  rw [List.map_append, List.mem_append] at same ⊢
  tauto

/-- A list with the keys of one that is covered is covered. -/
theorem Sight.Covers.of_keys {other : List DestinationStatus} (covers : after.Covers destinations)
    (same : ∀ key, key ∈ other.map (·.key) ↔ key ∈ destinations.map (·.key)) :
    after.Covers other := by
  intro key
  rw [same]
  exact covers key

/-- A writer covers the list it has just read or written. -/
theorem Sight.covers_listed (sight : Sight) (destinations : List DestinationStatus) :
    Sight.Covers { sight with listed := destinations.map (·.key) } destinations :=
  fun _ => Iff.rfl

end Sights

section Programs

variable {α : Type} {self : ResourceControllerImpl} {sight : Sight}

/-- A program by which a writer sees nothing new. -/
theorem wp_unseen {result : α → Prop} {program : Async α}
    (shape : program.wp (.requests Honest Unseen) (fun value _ => result value) ()) :
    program.wp (sighted self) (fun value after => result value ∧ sight = after) sight := by
  refine wp_requests shape (fun _ _ _ _ answered => answered.1) ?_ ?_ rfl
  · rintro before moved rfl rfl
    rfl
  · rintro before call reply after rfl unseen ⟨-, rfl⟩
    cases call with
    | api request => cases request <;> first | exact ⟨trivial, rfl⟩ | exact unseen.elim
    | memory op => exact ⟨trivial, rfl⟩
    | namespaces => exact unseen.elim
    | clock => exact ⟨trivial, rfl⟩

/-- When `delete_destinations` returns a remainder, it has asked to delete every destination. -/
theorem wp_deleteDestinations_sight (removed : List DestinationStatus) :
    (deleteDestinations removed).wp (sighted self) (fun result after => sight.Grown after ∧
      ∀ remaining, result = .ok remaining →
        remaining.Sublist removed ∧ ∀ d ∈ removed, d.key ∈ after.asked) sight := by
  refine wp_imp (fun result after kept => ?_) (@wp_deleteDestinations_loop _ (sighted self)
    (fun failed todo after => sight.Grown after ∧ ∃ done, removed = done ++ todo ∧
      failed.Sublist done ∧ ∀ d ∈ done, d.key ∈ after.asked) sight.Grown
    (fun _ _ _ _ answered => answered.1) (fun _ _ _ _ kept still => still ▸ kept) ?_ ?_ ?_
    [] removed sight ⟨.refl sight, [], rfl, .slnil, fun _ member => absurd member List.not_mem_nil⟩)
  · constructor
    · cases result with
      | error e => exact kept.1 e rfl
      | ok remaining => exact (kept.2 remaining rfl).1
    · intro remaining finished
      obtain ⟨-, done, same, fewer, asked⟩ := kept.2 remaining finished
      rw [List.append_nil] at same
      rw [same]
      exact ⟨fewer, asked⟩
  · intro failed d todo before request reply after removal reads kept answered
    obtain ⟨-, seen⟩ := answered
    subst seen
    cases removal with
    | get => exact ⟨trivial, kept⟩
    | release patch => exact ⟨trivial, kept⟩
    | delete => exact absurd rfl (reads d.api d.name)
  · intro failed d todo before reply after kept answered
    obtain ⟨-, seen⟩ := answered
    subst seen
    obtain ⟨grown, done, same, fewer, asked⟩ := kept
    have further : before.Grown { before with asked := d.key :: before.asked } :=
      ⟨rfl, rfl, fun _ => List.mem_cons_of_mem _⟩
    refine ⟨trivial, grown.trans further, done ++ [d], ?_, fewer.append ?_, fun other member => ?_⟩
    · rw [same, List.append_assoc, List.singleton_append]
    · split
      · exact List.nil_sublist _
      · exact List.Sublist.refl _
    · rcases List.mem_append.mp member with earlier | last
      · exact List.mem_cons_of_mem _ (asked other earlier)
      · rw [List.mem_singleton.mp last]
        exact List.mem_cons_self
  · intro failed d todo before e after kept answered _
    obtain ⟨-, seen⟩ := answered
    subst seen
    exact kept.1

/-- Writing the status keeps the working copy covered. -/
theorem wp_replaceStatus_sight {event : ObjectSyncModifications}
    (covers : sight.Covers event.modified.destinationList) :
    event.replaceStatus.wp (sighted self)
      (fun value after => after.Covers value.1.modified.destinationList ∧
        value.1.modified.destinationList = event.modified.destinationList) sight := by
  unfold ObjectSyncModifications.replaceStatus
  split
  · unfold ObjectSyncModifications.latest
    rw [wp_api]
    rintro _ rfl reply _ ⟨-, rfl⟩
    refine ⟨trivial, ?_⟩
    cases reply with
    | error e => exact ⟨covers, rfl⟩
    | ok latest =>
      dsimp only
      rw [wp_bind]
      unfold ObjectSyncModifications.replaceStatusWith
      dsimp only
      rw [wp_api]
      rintro _ rfl reply _ ⟨honest, rfl⟩
      refine ⟨covers, ?_⟩
      cases reply with
      | error e => exact ⟨covers, rfl⟩
      | ok written =>
        exact ⟨Sight.covers_listed _ _, ObjectSync.destinationList_eq_of_status honest.2⟩
  · exact ⟨covers, rfl⟩

/-- Updating a condition keeps the working copy covered. -/
theorem wp_updateCondition_sight {event : ObjectSyncModifications} (condition : Condition)
    (covers : sight.Covers event.modified.destinationList) :
    (event.updateCondition condition).wp (sighted self)
      (fun value after => sight = after ∧
        value.modified.destinationList = event.modified.destinationList) sight := by
  unfold ObjectSyncModifications.updateCondition
  rw [wp_clock]
  rintro _ rfl time _ ⟨-, rfl⟩
  exact ⟨trivial, rfl, ObjectSync.updateCondition_destinationList ..⟩

/-- The second status write of `reconcile_source` covers what the first one did. -/
theorem wp_syncDestinations_sight {event : ObjectSyncModifications} (source : DynamicObject)
    (staleRemnants : List DestinationStatus) (removedCount : Nat)
    (covers : sight.Covers event.modified.destinationList) :
    (self.syncDestinations event source staleRemnants removedCount).wp (sighted self)
      (fun _ _ => True) sight := by
  unfold ResourceControllerImpl.syncDestinations
  cases tracked : event.modified.statusDestinations with
  | none => trivial
  | some destinations =>
    have listed : event.modified.destinationList = destinations :=
      ObjectSync.destinationList_of_tracked tracked
    dsimp only
    rw [wp_bind]
    refine wp_imp ?_ (wp_unseen (@ResourceControllerImpl.requests_upsertDestinations Unseen self
      source destinations staleRemnants fun d _ _ request upsert => by cases upsert <;> trivial))
    rintro ⟨destinations', updated, expected, observed⟩ _ ⟨same, rfl⟩
    have keys := DestinationStatus.keys_eq_of_targets same
    have covers' : sight.Covers (event.updateDestinations destinations').modified.destinationList :=
      covers.of_keys fun key => by
        rw [listed, ← keys]
        exact Iff.rfl
    dsimp only
    split
    · rw [wp_bind]
      refine wp_imp ?_ (wp_updateCondition_sight _ covers')
      rintro event' _ ⟨rfl, same'⟩
      exact wp_imp (fun _ _ _ => trivial) (wp_replaceStatus_sight (same' ▸ covers'))
    · trivial

/-- A run of `reconcile_source` only writes what it has seen. -/
theorem wp_reconcileSource_sight {event : ObjectSyncModifications} (source : DynamicObject)
    (snapshot : sight.snapshot = event.modified)
    (covers : sight.Covers event.modified.destinationList) :
    (self.reconcileSource event source).wp (sighted self) (fun _ _ => True) sight := by
  unfold ResourceControllerImpl.reconcileSource
  rw [wp_namespaces]
  rintro _ rfl cache _ ⟨-, rfl⟩
  refine ⟨trivial, ?_⟩
  dsimp only [Sight.see]
  rw [snapshot]
  have keys := self.mem_split_keys
    (ResourceControllerImpl.expectedDestinations event.modified cache)
    event.modified.destinationList
  generalize ResourceControllerImpl.expectedDestinations event.modified cache = targets at keys ⊢
  generalize self.splitDestinations targets event.modified.destinationList = split at keys ⊢
  obtain ⟨expected, stale⟩ := split
  dsimp only at keys ⊢
  have together : Sight.Covers ⟨event.modified, sight.listed ++
      (targets.map fun target => (self.expectedStatus target).key), sight.asked⟩
      (expected ++ stale) := by
    intro key
    have same := covers key
    rw [keys, List.mem_append]
    tauto
  rw [wp_bind]
  refine wp_imp ?_ (wp_deleteDestinations_sight stale)
  rintro result middle ⟨grown, complete⟩
  cases result with
  | error e => trivial
  | ok staleRemnants =>
    obtain ⟨fewer, asked⟩ := complete staleRemnants rfl
    have covers' : middle.Covers (event.updateDestinations (ResourceControllerImpl.sortDestinations
        (expected ++ staleRemnants))).modified.destinationList :=
      ((together.grown grown).without asked fewer).of_keys fun key =>
        ((ResourceControllerImpl.sortDestinations_perm _).map _).mem_iff
    dsimp only
    rw [wp_bind]
    refine wp_imp ?_ (wp_replaceStatus_sight covers')
    rintro ⟨event', result⟩ after ⟨covers, -⟩
    cases result with
    | error e => trivial
    | ok => exact wp_syncDestinations_sight source staleRemnants _ covers

/-- Patching an ObjectSync keeps the working copy covered. -/
theorem wp_patchSpec_sight {event : ObjectSyncModifications}
    (covers : sight.Covers event.modified.destinationList) :
    event.patchSpec.wp (sighted self)
      (fun value after => after.Covers value.1.modified.destinationList) sight := by
  unfold ObjectSyncModifications.patchSpec
  split
  · unfold ObjectSyncModifications.patchSpecNow
    rw [wp_api]
    rintro _ rfl reply _ ⟨-, rfl⟩
    refine ⟨trivial, ?_⟩
    cases reply with
    | error e => exact covers
    | ok latest =>
      dsimp only
      split
      · exact covers
      · rw [wp_api]
        rintro _ rfl reply _ ⟨-, rfl⟩
        refine ⟨trivial, ?_⟩
        cases reply with
        | error e => exact covers
        | ok new => exact Sight.covers_listed _ _
  · exact covers

/-- The main controller keeps its working copy covered while it deletes all destinations. -/
theorem wp_deleteAllDestinations_sight {event : ObjectSyncModifications}
    (covers : sight.Covers event.modified.destinationList) :
    (ObjectSyncController.deleteDestinations event).wp (sighted self)
      (fun value after => after.Covers value.1.modified.destinationList) sight := by
  unfold ObjectSyncController.deleteDestinations
  cases tracked : event.modified.statusDestinations with
  | none => exact covers
  | some destinations =>
    have listed : event.modified.destinationList = destinations :=
      ObjectSync.destinationList_of_tracked tracked
    dsimp only
    rw [wp_bind]
    refine wp_imp ?_ (wp_deleteDestinations_sight destinations)
    rintro result middle ⟨grown, complete⟩
    have covers := covers.grown grown
    cases result with
    | error e => exact covers
    | ok remaining =>
      obtain ⟨fewer, asked⟩ := complete remaining rfl
      rw [listed] at covers
      have left : middle.Covers ([] ++ remaining) := Sight.Covers.without covers asked fewer
      dsimp only
      rw [wp_bind]
      refine wp_imp ?_ (wp_updateCondition_sight _ (listed ▸ covers))
      rintro event' _ ⟨rfl, -⟩
      rw [wp_bind]
      refine wp_imp ?_
        (@wp_replaceStatus_sight self middle (event'.updateDestinations remaining) left)
      rintro ⟨event', result⟩ after ⟨covers, -⟩
      cases result with
      | error e => exact covers
      | ok =>
        dsimp only
        split <;> exact covers

/-- Adding the finalizer keeps the working copy covered. -/
theorem wp_addFinalizerIfMissing_sight {event : ObjectSyncModifications}
    (covers : sight.Covers event.modified.destinationList) :
    (ObjectSyncController.addFinalizerIfMissing event).wp (sighted self)
      (fun value after => after.Covers value.1.modified.destinationList) sight := by
  unfold ObjectSyncController.addFinalizerIfMissing
  dsimp only
  split
  · exact covers
  · rw [wp_bind]
    exact wp_imp (fun _ _ covers => covers) (@wp_patchSpec_sight self sight
      (ObjectSyncController.setFinalizers event _) covers)

/-- Registering with a resource controller shows a writer nothing new. -/
theorem wp_add_sight (event : ObjectSyncModifications) (gvk : GroupVersionKind) :
    (ObjectSyncController.add event gvk).wp (sighted self)
      (fun _ after => sight = after) sight := by
  unfold ObjectSyncController.add
  rw [wp_memory]
  rintro _ rfl controller _ ⟨-, rfl⟩
  refine ⟨trivial, ?_⟩
  rw [wp_memory]
  rintro _ rfl handle _ ⟨-, rfl⟩
  refine ⟨trivial, ?_⟩
  rintro _ rfl _ _ ⟨-, rfl⟩
  exact ⟨trivial, rfl⟩

/-- The branch for a changed source keeps the working copy covered. -/
theorem wp_moveSource_sight {event : ObjectSyncModifications} (currentGvk : GroupVersionKind)
    (covers : sight.Covers event.modified.destinationList) :
    (ObjectSyncController.moveSource event currentGvk).wp (sighted self)
      (fun value after => after.Covers value.1.modified.destinationList) sight := by
  unfold ObjectSyncController.moveSource ObjectSyncController.remove
  rw [wp_memory]
  rintro _ rfl removed _ ⟨-, rfl⟩
  refine ⟨trivial, ?_⟩
  rw [wp_bind]
  refine wp_imp ?_ (wp_deleteAllDestinations_sight covers)
  rintro ⟨event', result⟩ middle covers
  cases result with
  | error e => exact covers
  | ok =>
    dsimp only
    rw [wp_bind]
    refine wp_imp ?_ (wp_add_sight event' currentGvk)
    rintro _ _ rfl
    exact covers

/-- Publishing a condition keeps the working copy covered. -/
theorem wp_publish_sight {event : ObjectSyncModifications} (condition : Condition)
    (covers : sight.Covers event.modified.destinationList) :
    (ObjectSyncController.publish event condition).wp (sighted self)
      (fun value after => after.Covers value.1.modified.destinationList) sight := by
  unfold ObjectSyncController.publish
  rw [wp_bind]
  refine wp_imp ?_ (wp_updateCondition_sight condition covers)
  rintro event' _ ⟨rfl, same⟩
  exact wp_imp (fun _ _ kept => kept.1) (wp_replaceStatus_sight (same ▸ covers))

/-- A run of `check` keeps the working copy covered. -/
theorem wp_check_sight {event : ObjectSyncModifications}
    (covers : sight.Covers event.modified.destinationList) :
    (ObjectSyncController.check event).wp (sighted self)
      (fun value after => after.Covers value.1.modified.destinationList) sight := by
  unfold ObjectSyncController.check
  rw [wp_bind]
  refine wp_imp ?_ (wp_addFinalizerIfMissing_sight covers)
  rintro ⟨event, result⟩ sight covers
  cases result with
  | error e => exact covers
  | ok =>
    dsimp only
    rw [wp_bind]
    refine wp_imp ?_ (wp_unseen (@ObjectSyncController.requests_getGvk Unseen _ trivial))
    rintro result _ ⟨-, rfl⟩
    cases result with
    | error e => exact covers
    | ok currentGvk =>
      dsimp only
      rw [wp_memory]
      rintro _ rfl active _ ⟨-, rfl⟩
      refine ⟨trivial, ?_⟩
      cases active with
      | none =>
        dsimp only
        rw [wp_bind]
        refine wp_imp ?_ (wp_add_sight event currentGvk)
        rintro _ _ rfl
        exact wp_publish_sight _ covers
      | some active =>
        dsimp only
        split
        · rw [wp_bind]
          refine wp_imp ?_ (wp_moveSource_sight currentGvk covers)
          rintro ⟨event', result⟩ middle covers
          cases result with
          | error e =>
            dsimp only
            rw [wp_memory]
            rintro _ rfl _ _ ⟨-, rfl⟩
            exact ⟨trivial, covers⟩
          | ok =>
            dsimp only
            rw [wp_memory]
            rintro _ rfl _ _ ⟨-, rfl⟩
            exact ⟨trivial, wp_publish_sight _ covers⟩
        · rw [wp_memory]
          rintro _ rfl _ _ ⟨-, rfl⟩
          exact ⟨trivial, covers⟩

/-- A run of `delete` only writes what it has seen. -/
theorem wp_delete_sight {event : ObjectSyncModifications}
    (covers : sight.Covers event.modified.destinationList) :
    (ObjectSyncController.delete event).wp (sighted self) (fun _ _ => True) sight := by
  unfold ObjectSyncController.delete ObjectSyncController.remove
  rw [wp_memory]
  rintro _ rfl removed _ ⟨-, rfl⟩
  refine ⟨trivial, ?_⟩
  rw [wp_bind]
  refine wp_imp ?_ (wp_deleteAllDestinations_sight covers)
  rintro ⟨event', result⟩ middle covers
  cases result with
  | error e => trivial
  | ok =>
    dsimp only
    rw [wp_bind]
    refine wp_imp ?_ (wp_unseen (@ObjectSyncController.requests_releaseSource Unseen event' trivial
      (fun _ => trivial) fun _ _ => trivial))
    rintro result _ ⟨-, rfl⟩
    cases result with
    | error e => trivial
    | ok =>
      dsimp only
      rw [wp_bind]
      unfold ObjectSyncController.removeFinalizer
      dsimp only
      split
      · rw [wp_bind]
        exact wp_imp (fun _ _ _ => trivial) (@wp_patchSpec_sight self middle
          (ObjectSyncController.setFinalizers event' _) covers)
      · trivial

/-- A run of the main controller only writes what it has seen. -/
theorem wp_reconcile_sight {object : ObjectSync} (configuration : Configuration)
    (covers : sight.Covers object.destinationList) :
    (ObjectSyncController.reconcile configuration object).wp (sighted self) (fun _ _ => True)
      sight := by
  unfold ObjectSyncController.reconcile
  dsimp only
  split
  · split
    · rw [wp_bind]
      exact wp_imp (fun _ _ _ => trivial) (@wp_delete_sight self sight (.new object) covers)
    · unfold ObjectSyncController.checkOrReport
      rw [wp_bind, wp_bind]
      refine wp_imp ?_ (@wp_check_sight self sight (.new object) covers)
      rintro ⟨event', result⟩ middle covers
      cases result with
      | ok => trivial
      | error e =>
        dsimp only
        rw [wp_bind]
        refine wp_imp ?_ (wp_updateCondition_sight _ covers)
        rintro event'' _ ⟨rfl, same⟩
        rw [wp_bind]
        refine wp_imp ?_ (wp_replaceStatus_sight (same ▸ covers))
        rintro ⟨event', result⟩ after -
        cases result <;> trivial
  · trivial

end Programs

section Writers

variable {self : ResourceControllerImpl} {configuration : Configuration} {o : ObjectSyncRef}

/-- Each writer relies on its sight, and writes what it has seen. -/
def writerDiscipline (self : ResourceControllerImpl) (configuration : Configuration)
    (o : ObjectSyncRef) : Discipline (writers self configuration o) where
  invariant := fun _ => True
  rely := fun writer before after => before.sight writer = after.sight writer
  ensures := fun writer before call reply after =>
    (sighted self).guarantee (before.sight writer) call reply (after.sight writer)
  idle := fun _ _ => True
  post := fun _ _ _ => True
  rely_refl := fun _ _ => rfl
  rely_trans := fun first second => first.trans second
  idle_stable := fun _ _ _ _ => trivial
  post_stable := fun _ _ _ => trivial
  ends := by
    rintro writer before value after - - rfl
    exact ⟨trivial, trivial, fun _ _ => rfl⟩
  moves := fun _ moved => ⟨trivial, fun writer => (congrFun moved writer).symm⟩

/-- A program that keeps its part in terms of its sight keeps it in the pool. -/
theorem wp_writer {writer : Writer} {program : Async Unit} {world : SharedSync}
    (holds : program.wp (sighted self) (fun _ _ => True) (world.sight writer)) :
    program.wp ((writerDiscipline self configuration o).contract writer) (fun _ _ => True)
      world := by
  refine wp_mono ?_ ?_ ?_ ?_ 
    (wp_view ((writerDiscipline self configuration o).contract writer) (·.sight writer) ?_ ?_ holds)
  · exact fun _ _ => id
  · exact fun _ _ _ _ => id
  · rintro before call reply after ⟨-, -, seen⟩ ensured
    refine ⟨trivial, fun other different => ?_, ensured⟩
    show before.sight other = after.sight other
    rw [seen, Function.update_of_ne different]
  · exact fun _ _ => id
  · exact fun _ _ moves => moves.1
  · rintro before call reply after ⟨-, answered, seen⟩
    refine ⟨answersBy_faulty_honest answered, ?_⟩
    rw [seen, Function.update_self]

/-- Both writers of the status keep their parts of the discipline. -/
theorem writerDiscipline_kept : (writerDiscipline self configuration o).Kept := by
  rintro writer before program after - - ⟨snapshot, source, -, rfl, rfl⟩
  refine ⟨trivial, fun other different => (Function.update_of_ne different ..).symm, ?_⟩
  have seen : (before.startedBy writer snapshot).sight writer = Sight.of snapshot :=
    Function.update_self ..
  apply wp_writer
  rw [seen]
  cases writer with
  | resourceController =>
    rw [Writer.program, wp_bind]
    exact wp_imp (fun _ _ _ => trivial) (@wp_reconcileSource_sight self (Sight.of snapshot)
      (.new snapshot) source rfl fun _ => Iff.rfl)
  | objectSyncController =>
    rw [Writer.program, wp_bind]
    exact wp_imp (fun _ _ _ => trivial) (wp_reconcile_sight configuration fun _ => Iff.rfl)

/-- **Lost updates.** In every interleaving of the two writers, with any replies and whatever
others do: a status write that is carried out loses no persisted destination, but for those its
writer has asked to delete, if and only if the writer has listed, expected or asked to delete every
persisted destination. -/
theorem status_write_loses_none_iff {start pool : Pool Writer Call Reply SharedSync Unit}
    (idle : ∀ writer, start.running writer = none)
    (reach : (writers self configuration o).Reach start pool) {writer : Writer}
    {body : ObjectSync} {resume : Reply (.api (.replaceSyncStatus o.name body)) → Async Unit}
    (running : pool.running writer = some (.call (.api (.replaceSyncStatus o.name body)) resume))
    {reply : Reply (.api (.replaceSyncStatus o.name body))} {after : SharedSync}
    (answered : (writers self configuration o).answers writer pool.world
      (.api (.replaceSyncStatus o.name body)) reply after)
    (carriedOut : after.server ≠ pool.world.server)
    (kept : (after.server.syncs o.name).isSome) :
    LosesNone o writer pool.world after ↔ SeesAll o writer pool.world := by
  have holds : (writerDiscipline self configuration o).Holds pool :=
    Discipline.Holds.reach writerDiscipline_kept
      ⟨trivial, fun _ _ => trivial, fun writer program some => by
        rw [idle writer] at some
        contradiction⟩ reach
  have covers : (pool.world.sight writer).Covers body.destinationList :=
    holds.ensured running answered
  have persisted : after.persisted o = body.destinationList.map (·.key) := by
    obtain ⟨current, written⟩ := Option.isSome_iff_exists.mp kept
    rw [SharedSync.persisted, written, Option.map_some, Option.getD_some]
    rcases Faulty.statusWritten answered.1 with ⟨same, -⟩ | ⟨choice, former, found, -, wrote, -⟩
    · exact absurd same carriedOut
    · rw [wrote, Server.writeSync_syncs, Function.update_self, found, Option.bind_some] at written
      unfold ObjectSync.settled at written
      split at written
      · contradiction
      · obtain rfl := Option.some.inj written
        exact congrArg (List.map (·.key)) (ObjectSync.destinationList_eq_of_status rfl)
  unfold LosesNone SeesAll
  rw [persisted]
  exact forall₂_congr fun key _ => covers key

end Writers

/-- Answer all calls of a writer for given choices. -/
def SharedSync.answer (self : ResourceControllerImpl) (o : ObjectSyncRef) (choice : Choice)
    (cache : List Namespace) (writer : Writer) : Handler Call Reply SharedSync :=
  fun shared call =>
    let (reply, server) := shared.server.answer (some o) choice cache "now" call
    (reply, ⟨server,
      Function.update shared.sight writer ((shared.sight writer).see self call reply)⟩)

/-- The answers to a writer are possible. -/
theorem SharedSync.answer_allowed (self : ResourceControllerImpl) (configuration : Configuration)
    (o : ObjectSyncRef) (choice : Choice) (cache : List Namespace) (writer : Writer)
    (shared : SharedSync) (call : Call) :
    (writers self configuration o).answers writer shared call
      (SharedSync.answer self o choice cache writer shared call).1
      (SharedSync.answer self o choice cache writer shared call).2 :=
  ⟨Server.answer_allowed .., rfl⟩

/-- The choices of a server, with the next resource version. -/
def nextVersion (resourceVersion : String) : Choice := ⟨"u", resourceVersion, 0, []⟩

/-- The handler of a writer's calls, with the next resource version. -/
def settingsAnswer (writer : Writer) (resourceVersion : String) : Handler Call Reply SharedSync :=
  SharedSync.answer configMaps settingsRef (nextVersion resourceVersion) [⟨"team", none, none⟩]
    writer

/-- A writer starts from the ObjectSync. -/
def settingsRun (pool : Pool Writer Call Reply SharedSync Unit) (writer : Writer) :
    Pool Writer Call Reply SharedSync Unit :=
  pool.set writer
    (some (writer.program configMaps configMaps.configuration settingsSync settingsSource))
    (pool.world.startedBy writer settingsSync)

/-- The pool in which no writer is running yet. -/
def settingsStart : Pool Writer Call Reply SharedSync Unit :=
  ⟨⟨settingsServer, fun _ => Sight.of settingsSync⟩, fun _ => none⟩

/-- The main controller registers the ObjectSync; then the resource controller creates the copy and
writes the status; then the main controller is about to write its own. -/
def overtaken : Pool Writer Call Reply SharedSync Unit :=
  (settingsRun (settingsRun settingsStart .objectSyncController) .resourceController)
    |>.calls .objectSyncController (settingsAnswer .objectSyncController "2") 5
    |>.calls .resourceController (settingsAnswer .resourceController "2") 3
    |>.calls .resourceController (settingsAnswer .resourceController "3") 2
    |>.calls .resourceController (settingsAnswer .resourceController "4") 3
    |>.calls .objectSyncController (settingsAnswer .objectSyncController "5") 2

/-- The main controller has written its status. -/
def overwritten : Pool Writer Call Reply SharedSync Unit :=
  overtaken.calls .objectSyncController (settingsAnswer .objectSyncController "5") 1

/-- The schedule in which the main controller is overtaken is an interleaving of the two writers. -/
theorem overtaken_reached :
    (writers configMaps configMaps.configuration settingsRef).Reach settingsStart overtaken := by
  have starts (pool : Pool Writer Call Reply SharedSync Unit) (writer : Writer)
      (idle : pool.running writer = none) :
      (writers configMaps configMaps.configuration settingsRef).Step pool
        (settingsRun pool writer) :=
    .start writer idle ⟨settingsSync, settingsSource, rfl, rfl, rfl⟩
  have calls (pool : Pool Writer Call Reply SharedSync Unit) (writer : Writer)
      (resourceVersion : String) (count : Nat) :=
    Rules.reach_calls (SharedSync.answer_allowed configMaps configMaps.configuration settingsRef
      (nextVersion resourceVersion) [⟨"team", none, none⟩] writer) pool count
  have first := Relation.ReflTransGen.single (starts settingsStart .objectSyncController rfl)
  have second := first.tail (starts _ .resourceController rfl)
  exact ((((second.trans (calls ..)).trans (calls ..)).trans (calls ..)).trans (calls ..)).trans
    (calls ..)

/-- The status that the main controller writes there. -/
def overtakenBody : ObjectSync :=
  (settingsSync.updateCondition "now" (ObjectSyncController.registeredCondition (.new settingsSync)
    configMaps.gvk)).withResourceVersion (some "4")

/-- The main controller that is overtaken replaces the status next. -/
theorem overtaken_pending :
    overtaken.pending .objectSyncController =
      some (.api (.replaceSyncStatus settingsRef.name overtakenBody)) := by
  decide +kernel

/-- With the write that was overtaken, the main controller loses the destination that the resource
controller has persisted, and it has never asked to delete that. -/
theorem overwritten_loses_destination :
    (writers configMaps configMaps.configuration settingsRef).Reach settingsStart overtaken ∧
      overtaken.pending .objectSyncController =
        some (.api (.replaceSyncStatus settingsRef.name overtakenBody)) ∧
      ¬LosesNone settingsRef .objectSyncController overtaken.world overwritten.world :=
  ⟨overtaken_reached, overtaken_pending, by decide +kernel⟩

/-- The write of the main controller that was overtaken, in the terms of the equivalence. -/
theorem overwritten_loses_none_iff :
    LosesNone settingsRef .objectSyncController overtaken.world overwritten.world ↔
      SeesAll settingsRef .objectSyncController overtaken.world := by
  obtain ⟨resume, running⟩ := Pool.exists_resume overtaken_pending
  have after : overwritten.world = (settingsAnswer .objectSyncController "5" overtaken.world
      (.api (.replaceSyncStatus settingsRef.name overtakenBody))).2 := by
    rw [overwritten, Pool.calls, running]
    rfl
  rw [after]
  refine status_write_loses_none_iff (fun _ => rfl) overtaken_reached running
    (SharedSync.answer_allowed ..) (fun same => ?_) (by decide +kernel)
  have version := congrArg (fun server => (server.syncs settingsRef.name).map
    (·.metadata.resourceVersion)) same
  revert version
  decide +kernel

end ObjectSyncer
