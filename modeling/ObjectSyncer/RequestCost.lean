import ObjectSyncer.Conditions
import ObjectSyncer.Interaction.Cost
import ObjectSyncer.Server

/-!
# How many requests a run makes

All attempts are limited, so that a run makes no more requests to the API server than its
ObjectSyncs and their destinations account for, whatever it is answered.
-/
namespace ObjectSyncer

open Interaction Interaction.Program

/-- The requests to the API server that a call sends, depending on how many versions a group is
served at. `discovery::group` lists the groups, and then the resources at each version. -/
def Call.requests (served : String → Nat) : Call → Nat
  | .api (.discoverGroup group) => served group + 1
  | .api _ => 1
  | _ => 0

section Steps

variable {α : Type} {served : String → Nat} {replies : (call : Call) → Reply call → Prop}
  {result : α → Prop} {budget : Nat}

/-- A request that is sent once takes one of the budget. -/
theorem costs_api {request : ApiRequest} {next : Except KubeError (ApiValue request) → Async α}
    (once : Call.requests served (.api request) = 1)
    (further : ∀ reply, replies (.api request) reply →
      (next reply).Costs replies (Call.requests served) result budget) :
    (Async.api request >>= next).Costs replies (Call.requests served) result (budget + 1) := by
  constructor
  · omega
  · intro reply replied
    have left : budget + 1 - Call.requests served (.api request) = budget := by omega
    rw [left]
    exact further reply replied

/-- The discovery of a group takes one, and one for each version. -/
theorem costs_discoverGroup {group : String}
    {next : Except KubeError (ApiValue (.discoverGroup group)) → Async α}
    (further : ∀ reply, replies (.api (.discoverGroup group)) reply →
      (next reply).Costs replies (Call.requests served) result budget) :
    (Async.api (.discoverGroup group) >>= next).Costs replies (Call.requests served) result
      (budget + (served group + 1)) := by
  have cost : Call.requests served (.api (.discoverGroup group)) = served group + 1 := rfl
  constructor
  · omega
  · intro reply replied
    have left : budget + (served group + 1) -
        Call.requests served (.api (.discoverGroup group)) = budget := by omega
    rw [left]
    exact further reply replied

/-- An operation on the shared memory takes nothing of the budget. -/
theorem costs_memory {op : MemoryOp} {next : MemoryReply op → Async α}
    (further : ∀ reply, replies (.memory op) reply →
      (next reply).Costs replies (Call.requests served) result budget) :
    (Async.memory op >>= next).Costs replies (Call.requests served) result budget :=
  ⟨Nat.zero_le _, further⟩

/-- Listing the cached namespaces takes nothing of the budget. -/
theorem costs_namespaces {next : List Namespace → Async α}
    (further : ∀ cache, replies .namespaces cache →
      (next cache).Costs replies (Call.requests served) result budget) :
    (Async.namespaces >>= next).Costs replies (Call.requests served) result budget :=
  ⟨Nat.zero_le _, further⟩

/-- Reading the clock takes nothing of the budget. -/
theorem costs_clock {next : String → Async α}
    (further : ∀ time, replies .clock time →
      (next time).Costs replies (Call.requests served) result budget) :
    (Async.clock >>= next).Costs replies (Call.requests served) result budget :=
  ⟨Nat.zero_le _, further⟩

end Steps

/-- A program makes at most a number of requests, given honest replies. -/
abbrev AtMost {α : Type} (served : String → Nat) (budget : Nat) (result : α → Prop)
    (program : Async α) : Prop :=
  program.Costs Honest (Call.requests served) result budget

section Bounds

variable {α : Type} {served : String → Nat} {budget : Nat} {result : α → Prop}

/-- Returning a value takes no request. -/
theorem atMost_pure (value : α) : AtMost served 0 (fun _ => True) (pure value) := trivial

/-- A program that takes at most some requests takes at most more. -/
theorem atMost_mono {larger : Nat} {program : Async α} (more : budget ≤ larger)
    (holds : AtMost served budget result program) : AtMost served larger result program :=
  costs_mono (fun _ => id) more holds

end Bounds

variable {served : String → Nat}

/-- Removing a finalizer takes at most one request. -/
theorem atMost_removeFinalizer (api : DynamicApi) (source : DynamicObject) (finalizer : String) :
    AtMost served 1 (fun _ => True) (removeFinalizer api source finalizer) := by
  unfold removeFinalizer
  dsimp only
  split
  · refine costs_api rfl ?_
    intro reply _
    cases reply with
    | ok value => trivial
    | error e =>
      dsimp only
      split <;> trivial
  · trivial

/-- Adding a finalizer takes at most one request. -/
theorem atMost_addFinalizerIfMissing (api : DynamicApi) (source : DynamicObject)
    (finalizer : String) :
    AtMost served 1 (fun _ => True) (addFinalizerIfMissing api source finalizer) := by
  unfold addFinalizerIfMissing
  split
  · trivial
  · refine costs_api rfl ?_
    intro reply _
    cases reply <;> trivial

/-- Deleting a destination takes one request. -/
theorem atMost_deleteDestination (d : DestinationStatus) :
    AtMost served 1 (fun _ => True) (deleteDestination d) := by
  unfold deleteDestination
  refine costs_api rfl ?_
  intro reply _
  cases reply with
  | ok value => trivial
  | error e =>
    dsimp only
    split <;> trivial

/-- Removing a destination takes at most three requests: it is read, released and deleted. -/
theorem atMost_removeDestination (d : DestinationStatus) :
    AtMost served 3 (fun _ => True) (removeDestination d) := by
  unfold removeDestination
  refine costs_api rfl ?_
  intro reply _
  cases reply with
  | ok destination =>
    have two : (2 : Nat) = 1 + 1 := rfl
    dsimp only
    rw [two]
    apply costs_bind (atMost_removeFinalizer d.api _ finalizer)
    intro _ _
    exact costs_bind (atMost_deleteDestination d) fun _ _ => atMost_pure _
  | error e =>
    dsimp only
    split
    · have deletes := costs_bind (@atMost_deleteDestination served d) fun errors _ =>
        atMost_pure (.ok errors : Except ControllerError (List DestinationStatus))
      exact atMost_mono (by decide) deletes
    · trivial

/-- Removing destinations takes at most three requests for each. -/
theorem atMost_deleteDestinations (destinations : List DestinationStatus) :
    AtMost served (3 * destinations.length) (fun _ => True) (deleteDestinations destinations) := by
  induction destinations with
  | nil => trivial
  | cons d rest ih =>
    have total : 3 * (d :: rest).length = 3 + (3 * rest.length + 0) := by
      rw [List.length_cons]
      omega
    rw [deleteDestinations_cons, total]
    apply costs_bind (atMost_removeDestination d)
    intro result _
    cases result with
    | error e => trivial
    | ok errors => exact costs_bind ih fun _ _ => atMost_pure _

namespace ResourceControllerImpl

section Upsert

variable {api : DynamicApi} {srcVersion : ObjectRevision} {d : DestinationStatus}
  {state : UpsertState}

/-- Updating a destination takes at most one request. -/
theorem atMost_updateExisting {current : DynamicObject} :
    AtMost served 1 (fun _ => True) (updateExisting api srcVersion current d state) := by
  unfold updateExisting
  dsimp only
  split
  · cases d.effectiveStrategy <;>
    · refine costs_api rfl ?_
      intro reply _
      cases reply with
      | ok updated => trivial
      | error e =>
        dsimp only
        split <;> trivial
  · trivial

/-- Creating a destination takes one request. -/
theorem atMost_createMissing :
    AtMost served 1 (fun _ => True) (createMissing api srcVersion d state) := by
  unfold createMissing
  refine costs_api rfl ?_
  intro reply _
  cases reply with
  | ok created => trivial
  | error e =>
    dsimp only
    split <;> trivial

/-- An attempt takes at most three requests: the destination is read, perhaps released, and written.
-/
theorem atMost_upsertAttempt :
    AtMost served 3 (fun _ => True) (upsertAttempt api srcVersion d state) := by
  unfold upsertAttempt
  refine costs_api rfl ?_
  intro reply _
  cases reply with
  | ok current =>
    dsimp only
    split
    · have two : (2 : Nat) = 1 + 1 := rfl
      rw [two]
      apply costs_bind (atMost_removeFinalizer api current finalizer)
      intro value _
      split
      · trivial
      · exact atMost_updateExisting
    · exact atMost_mono (by decide) atMost_updateExisting
  | error e =>
    dsimp only
    split
    · exact atMost_mono (by decide) atMost_createMissing
    · trivial

/-- The attempts for a destination take at most three requests each. -/
theorem atMost_upsertLoop (attempts : Nat) :
    AtMost served (3 * attempts) (fun _ => True) (upsertLoop api srcVersion attempts d state) := by
  induction attempts generalizing d state with
  | zero => trivial
  | succ attempts ih =>
    have total : 3 * (attempts + 1) = 3 + 3 * attempts := by omega
    rw [upsertLoop, total]
    apply costs_bind atMost_upsertAttempt
    intro value _
    obtain ⟨d', state', flow⟩ := value
    cases flow with
    | continue_ => exact ih
    | break_ => trivial

/-- Each destination that is no remnant takes three attempts of three requests. -/
theorem atMost_upsertEach (self : ResourceControllerImpl)
    (staleRemnants destinations : List DestinationStatus) :
    AtMost served (9 * destinations.countP fun d => !isRemnant staleRemnants d) (fun _ => True)
      (self.upsertEach srcVersion staleRemnants destinations state) := by
  induction destinations generalizing state with
  | nil => trivial
  | cons d rest ih =>
    rw [upsertEach, List.countP_cons]
    by_cases remnant : isRemnant staleRemnants d = true
    · rw [if_pos remnant, remnant]
      exact costs_bind ih fun _ _ => atMost_pure _
    · have total (count : Nat) : 9 * (count + 1) = 3 * 3 + (9 * count + 0) := by omega
      rw [if_neg remnant, Bool.eq_false_iff.mpr remnant, Bool.not_false, if_pos rfl, total]
      apply costs_bind (atMost_upsertLoop 3)
      intro value _
      exact costs_bind ih fun _ _ => atMost_pure _

end Upsert

end ResourceControllerImpl

namespace ObjectSyncModifications

/-- Writing the status takes two requests: it is read and replaced. -/
theorem atMost_replaceStatus (self : ObjectSyncModifications) :
    AtMost served 2 (fun value => value.1.modified.status = self.modified.status)
      self.replaceStatus := by
  have known := @requests_replaceStatus (fun _ => True) self fun _ _ => trivial
  have cost : AtMost served 2 (fun _ => True) self.replaceStatus := by
    unfold replaceStatus
    split
    · unfold latest
      refine costs_api rfl ?_
      intro reply _
      cases reply with
      | error e => trivial
      | ok latest =>
        unfold replaceStatusWith
        refine costs_api rfl ?_
        intro reply _
        cases reply <;> trivial
    · trivial
  exact costs_mono (fun _ both => both.2.1) (Nat.le_refl 2) (costs_known known cost)

/-- Updating a condition takes no request. -/
theorem atMost_updateCondition (self : ObjectSyncModifications) (condition : Condition) :
    AtMost served 0 (fun event => event.modified.destinationList = self.modified.destinationList)
      (self.updateCondition condition) := by
  apply costs_clock
  intro time _
  exact ObjectSync.updateCondition_destinationList ..

/-- Patching an ObjectSync takes two requests: it is read and patched. -/
theorem atMost_patchSpec (self : ObjectSyncModifications) :
    AtMost served 2 (fun _ => True) self.patchSpec := by
  unfold patchSpec
  split
  · unfold patchSpecNow
    refine costs_api rfl ?_
    intro reply _
    cases reply with
    | error e => trivial
    | ok latest =>
      dsimp only
      split
      · trivial
      · refine costs_api rfl ?_
        intro reply _
        cases reply <;> trivial
  · trivial

end ObjectSyncModifications

/-! ## Runs -/

namespace ResourceControllerImpl

/-- Synchronizing takes what the destinations take that are no remnants, and the status. -/
theorem atMost_syncDestinations (self : ResourceControllerImpl) (event : ObjectSyncModifications)
    (source : DynamicObject) (staleRemnants : List DestinationStatus) (removedCount : Nat) :
    AtMost served
      (9 * (event.modified.destinationList.countP fun d => !isRemnant staleRemnants d) + 2)
      (fun _ => True) (self.syncDestinations event source staleRemnants removedCount) := by
  unfold syncDestinations
  cases tracked : event.modified.statusDestinations with
  | none => trivial
  | some destinations =>
    have listed : event.modified.destinationList = destinations :=
      ObjectSync.destinationList_of_tracked tracked
    rw [listed]
    unfold upsertDestinations
    dsimp only
    rw [bind_assoc]
    apply costs_bind (self.atMost_upsertEach staleRemnants destinations)
    intro value _
    dsimp only [pure_eq, done_bind]
    split
    · have two : (2 : Nat) = 0 + 2 := rfl
      rw [two]
      apply costs_bind (ObjectSyncModifications.atMost_updateCondition _ _)
      intro event' _
      exact costs_mono (fun _ _ => trivial) (Nat.le_refl 2) event'.atMost_replaceStatus
    · trivial

end ResourceControllerImpl

namespace ObjectSyncController

variable {versions : Nat}

/-- Deleting the destinations of an ObjectSync takes at most three requests for each, and two for
the status. -/
theorem atMost_deleteDestinations (event : ObjectSyncModifications) :
    AtMost served (3 * event.modified.destinationList.length + 2) (fun _ => True)
      (deleteDestinations event) := by
  unfold deleteDestinations
  cases tracked : event.modified.statusDestinations with
  | none => trivial
  | some destinations =>
    have listed : event.modified.destinationList = destinations :=
      ObjectSync.destinationList_of_tracked tracked
    rw [listed]
    apply costs_bind (ObjectSyncer.atMost_deleteDestinations destinations)
    intro result _
    cases result with
    | error e => trivial
    | ok remaining =>
      have two : (2 : Nat) = 0 + (2 + 0) := rfl
      rw [two]
      apply costs_bind (event.atMost_updateCondition _)
      intro event' _
      apply costs_bind (event'.updateDestinations remaining).atMost_replaceStatus
      intro value _
      obtain ⟨event'', result⟩ := value
      cases result with
      | error e => trivial
      | ok =>
        dsimp only
        split <;> trivial

/-- The discovery of a kind takes one request, and one for each version of its group. -/
theorem atMost_getGvk (source : SourceObject) :
    AtMost served (served source.group + 1) (fun _ => True) (getGvk source) := by
  unfold getGvk
  rw [← Nat.zero_add (served source.group + 1)]
  apply costs_discoverGroup
  intro reply _
  cases reply with
  | ok apigroup => trivial
  | error e => cases e <;> trivial

/-- Releasing the source takes what the discovery of its kind takes, and two: it is read and
patched. -/
theorem atMost_releaseSource (few : ∀ group, served group ≤ versions)
    (event : ObjectSyncModifications) :
    AtMost served (versions + 3) (fun _ => True) (releaseSource event) := by
  have total : versions + 3 = versions + 1 + (1 + 1) := rfl
  unfold releaseSource
  rw [total]
  apply costs_bind (atMost_mono (Nat.succ_le_succ (few _)) (atMost_getGvk _))
  intro result _
  split
  · refine costs_api rfl ?_
    intro reply _
    cases reply with
    | ok source =>
      exact costs_bind (atMost_removeFinalizer _ _ _) fun _ _ => atMost_pure _
    | error e =>
      dsimp only
      split <;> trivial
  · trivial
  · trivial

/-- Removing the finalizer of an ObjectSync takes at most two requests. -/
theorem atMost_removeFinalizer (event : ObjectSyncModifications) :
    AtMost served 2 (fun _ => True) (removeFinalizer event) := by
  unfold removeFinalizer
  dsimp only
  split
  · exact costs_bind (ObjectSyncModifications.atMost_patchSpec _) fun _ _ => atMost_pure _
  · trivial

/-- Deleting an ObjectSync takes three requests for each destination, one for each version of the
group of its source, and seven. -/
theorem atMost_delete (few : ∀ group, served group ≤ versions) (event : ObjectSyncModifications) :
    AtMost served (3 * event.modified.destinationList.length + versions + 7) (fun _ => True)
      (delete event) := by
  have total : 3 * event.modified.destinationList.length + versions + 7 =
      3 * event.modified.destinationList.length + 2 + (versions + 3 + (2 + 0)) := by omega
  unfold delete remove
  rw [total]
  apply costs_memory
  intro removed _
  apply costs_bind (atMost_deleteDestinations event)
  intro value _
  obtain ⟨event', result⟩ := value
  cases result with
  | error e => trivial
  | ok =>
    apply costs_bind (atMost_releaseSource few event')
    intro result _
    cases result with
    | error e => trivial
    | ok => exact costs_bind (atMost_removeFinalizer event') fun _ _ => atMost_pure _

/-- Publishing a condition takes at most two requests. -/
theorem atMost_publish (event : ObjectSyncModifications) (condition : Condition) :
    AtMost served 2 (fun _ => True) (publish event condition) := by
  have two : (2 : Nat) = 0 + 2 := rfl
  unfold publish
  rw [two]
  apply costs_bind (event.atMost_updateCondition condition)
  intro event' _
  exact costs_mono (fun _ _ => trivial) (Nat.le_refl 2) event'.atMost_replaceStatus

/-- Registering with a resource controller takes no request. -/
theorem atMost_add (event : ObjectSyncModifications) (gvk : GroupVersionKind) :
    AtMost served 0 (fun _ => True) (add event gvk) := by
  unfold add
  apply costs_memory
  intro controller _
  apply costs_memory
  intro handle _
  exact ⟨Nat.zero_le _, fun _ _ => trivial⟩

/-- Moving takes at most what deleting the destinations takes. -/
theorem atMost_moveSource (event : ObjectSyncModifications) (currentGvk : GroupVersionKind) :
    AtMost served (3 * event.modified.destinationList.length + 2) (fun _ => True)
      (moveSource event currentGvk) := by
  unfold moveSource remove
  apply costs_memory
  intro removed _
  show AtMost served (3 * event.modified.destinationList.length + 2 + 0) _ _
  apply costs_bind (atMost_deleteDestinations event)
  intro value _
  obtain ⟨event', result⟩ := value
  cases result with
  | error e => trivial
  | ok => exact costs_bind (atMost_add event' currentGvk) fun _ _ => atMost_pure _

end ObjectSyncController

/-- How many destinations an ObjectSync tracks and expects at most, how many ObjectSyncs a source
has, and how many versions a group is served at. -/
structure Sizes where
  tracked : Nat
  expected : Nat
  registered : Nat
  versions : Nat
  deriving DecidableEq, Repr

/-- An ObjectSync is no larger than that. -/
structure Sizes.Holds (sizes : Sizes) (cache : List Namespace) (sync : ObjectSync) : Prop where
  tracked : sync.destinationList.length ≤ sizes.tracked
  expected : (ResourceControllerImpl.expectedDestinations sync cache).length ≤ sizes.expected

/-- What is known of a value that the API server returns. -/
def Sizes.Returned (sizes : Sizes) (cache : List Namespace) :
    (request : ApiRequest) → ApiValue request → Prop
  | .getSync _, sync | .getSyncStatus _, sync | .replaceSyncStatus _ _, sync |
    .jsonPatchSync _ _, sync => sizes.Holds cache sync
  | _, _ => True

/-- What is known of a reply: it is honest, ObjectSyncs are no larger and no more than that, and the
namespaces are those of the cache. -/
def Sizes.Replies (sizes : Sizes) (cache : List Namespace) : (call : Call) → Reply call → Prop
  | .api request, reply => Honest (.api request) reply ∧
    ∀ value, reply = .ok value → sizes.Returned cache request value
  | .memory (.lookup _ _), refs => ∀ names, refs = some names → names.length ≤ sizes.registered
  | .namespaces, namespaces => namespaces = cache
  | _, _ => True

section Sized

variable {sizes : Sizes} {cache : List Namespace} {α : Type} {budget : Nat} {result : α → Prop}

/-- A budget for honest replies is one for replies within the sizes. -/
theorem costs_sized {larger : Nat} {program : Async α} (more : budget ≤ larger)
    (holds : AtMost served budget result program) :
    program.Costs (sizes.Replies cache) (Call.requests served) result larger := by
  apply costs_mono (fun _ => id) more
  apply costs_replies _ holds
  intro call reply replied
  cases call with
  | api request => exact replied.1
  | _ => trivial

/-- A run for an ObjectSync takes three requests for each destination that is recorded, nine for
each that is expected, and four for the status. -/
theorem costs_reconcileSource (self : ResourceControllerImpl) {event : ObjectSyncModifications}
    (holds : sizes.Holds cache event.modified) (source : DynamicObject) :
    (self.reconcileSource event source).Costs (sizes.Replies cache) (Call.requests served)
      (fun _ => True) (3 * sizes.tracked + 9 * sizes.expected + 4) := by
  have total : 3 * sizes.tracked + 9 * sizes.expected + 4 =
      3 * sizes.tracked + (2 + (9 * sizes.expected + 2)) := by omega
  unfold ResourceControllerImpl.reconcileSource
  apply costs_namespaces
  intro cache' same
  have known : cache' = cache := same
  subst known
  have fewStale : (self.splitDestinations
      (ResourceControllerImpl.expectedDestinations event.modified cache')
      event.modified.destinationList).2.length ≤ sizes.tracked := by
    rw [ResourceControllerImpl.splitDestinations_stale]
    exact (List.length_filter_le _ _).trans holds.tracked
  have fewExpected : (self.splitDestinations
      (ResourceControllerImpl.expectedDestinations event.modified cache')
      event.modified.destinationList).1.length ≤ sizes.expected := by
    have targets := congrArg List.length (self.splitDestinations_targets
      (ResourceControllerImpl.expectedDestinations event.modified cache')
      event.modified.destinationList)
    rw [List.length_map, List.length_map] at targets
    rw [targets]
    exact holds.expected
  generalize self.splitDestinations
    (ResourceControllerImpl.expectedDestinations event.modified cache')
    event.modified.destinationList = split_ at fewStale fewExpected ⊢
  obtain ⟨expected, stale⟩ := split_
  dsimp only at fewStale fewExpected
  rw [total]
  apply costs_bind (costs_sized (Nat.mul_le_mul_left 3 fewStale) (atMost_deleteDestinations stale))
  intro deleted _
  cases deleted with
  | error e => trivial
  | ok staleRemnants =>
    apply costs_bind (costs_sized (Nat.le_refl 2)
      (ObjectSyncModifications.atMost_replaceStatus _))
    intro value echoed
    obtain ⟨event', written⟩ := value
    cases written with
    | error e => trivial
    | ok =>
      -- What is tracked now and is no remnant was expected.
      have few : (event'.modified.destinationList.countP fun d =>
          !ResourceControllerImpl.isRemnant staleRemnants d) ≤ sizes.expected := by
        rw [ObjectSync.destinationList_eq_of_status echoed, List.countP_eq_length_filter]
        have perm := ResourceControllerImpl.filter_not_isRemnant_perm expected staleRemnants
        exact (perm.length_eq.trans_le (List.length_filter_le _ _)).trans fewExpected
      exact costs_sized (by omega) (self.atMost_syncDestinations event' source staleRemnants _)

/-- What the API server returns when an ObjectSync is patched tracks no more. -/
theorem costs_patchSpec {event : ObjectSyncModifications}
    (few : event.modified.destinationList.length ≤ sizes.tracked) :
    event.patchSpec.Costs (sizes.Replies cache) (Call.requests served)
      (fun value => value.1.modified.destinationList.length ≤ sizes.tracked) 2 := by
  unfold ObjectSyncModifications.patchSpec
  split
  · unfold ObjectSyncModifications.patchSpecNow
    refine costs_api rfl ?_
    intro reply _
    cases reply with
    | error e => exact few
    | ok latest =>
      dsimp only
      split
      · exact few
      · refine costs_api rfl ?_
        intro reply replied
        cases reply with
        | error e => exact few
        | ok patched => exact (replied.2 patched rfl).tracked
  · exact few

/-- Checking an ObjectSync takes three requests for each destination, one for each version of the
group of its source, and seven. -/
theorem costs_check (served_ : ∀ group, served group ≤ sizes.versions)
    {event : ObjectSyncModifications}
    (few : event.modified.destinationList.length ≤ sizes.tracked) :
    (ObjectSyncController.check event).Costs (sizes.Replies cache) (Call.requests served)
      (fun _ => True) (3 * sizes.tracked + sizes.versions + 7) := by
  have total : 3 * sizes.tracked + sizes.versions + 7 =
      2 + (sizes.versions + 1 + (3 * sizes.tracked + 2 + 2)) := by omega
  have adds : (ObjectSyncController.addFinalizerIfMissing event).Costs (sizes.Replies cache)
      (Call.requests served)
        (fun value => value.1.modified.destinationList.length ≤ sizes.tracked) 2 := by
    unfold ObjectSyncController.addFinalizerIfMissing
    dsimp only
    split
    · exact few
    · have few' (finalizers : List String) :
          (ObjectSyncController.setFinalizers event finalizers).modified.destinationList.length ≤
            sizes.tracked := few
      show Costs _ _ _ _ (2 + 0)
      exact costs_bind (costs_patchSpec (few' _)) fun _ kept => kept
  unfold ObjectSyncController.check
  rw [total]
  apply costs_bind adds
  intro value few'
  obtain ⟨event', result⟩ := value
  cases result with
  | error e => trivial
  | ok =>
    apply costs_bind (costs_sized (Nat.succ_le_succ (served_ _))
      (ObjectSyncController.atMost_getGvk _))
    intro result _
    cases result with
    | error e => trivial
    | ok currentGvk =>
      apply costs_memory
      intro registered _
      cases registered with
      | none =>
        apply costs_bind (costs_sized (Nat.zero_le _) (ObjectSyncController.atMost_add event' _))
        intro _ _
        exact costs_sized (Nat.le_refl 2) (ObjectSyncController.atMost_publish _ _)
      | some active =>
        dsimp only
        split
        · have moves : 3 * event'.modified.destinationList.length + 2 ≤ 3 * sizes.tracked + 2 := by
            have fewer : event'.modified.destinationList.length ≤ sizes.tracked := few'
            omega
          apply costs_bind (costs_sized moves (ObjectSyncController.atMost_moveSource event' _))
          intro value _
          obtain ⟨event'', result⟩ := value
          cases result with
          | error e => exact ⟨Nat.zero_le _, fun _ _ => trivial⟩
          | ok =>
            apply costs_memory
            intro _ _
            exact costs_sized (Nat.le_refl 2) (ObjectSyncController.atMost_publish _ _)
        · exact ⟨Nat.zero_le _, fun _ _ => trivial⟩

/-- Reconciling an ObjectSync takes three requests for each destination, one for each version of the
group of its source, and nine. -/
theorem costs_reconcileSync (served_ : ∀ group, served group ≤ sizes.versions)
    (configuration : Configuration) {object : ObjectSync}
    (few : object.destinationList.length ≤ sizes.tracked) :
    (ObjectSyncController.reconcile configuration object).Costs (sizes.Replies cache)
      (Call.requests served) (fun _ => True) (3 * sizes.tracked + sizes.versions + 9) := by
  unfold ObjectSyncController.reconcile
  dsimp only
  split
  · split
    · have enough : 3 * (ObjectSyncModifications.new object).modified.destinationList.length +
          sizes.versions + 7 ≤ 3 * sizes.tracked + sizes.versions + 9 := by
        have same : (ObjectSyncModifications.new object).modified.destinationList.length =
          object.destinationList.length := rfl
        omega
      show Costs _ _ _ _ (3 * sizes.tracked + sizes.versions + 9 + 0)
      exact costs_bind (costs_sized enough (ObjectSyncController.atMost_delete served_ _))
        fun _ _ => trivial
    · have reports : (ObjectSyncController.checkOrReport (.new object)).Costs (sizes.Replies cache)
          (Call.requests served) (fun _ => True) (3 * sizes.tracked + sizes.versions + 7 + 2) := by
        unfold ObjectSyncController.checkOrReport
        apply costs_bind (costs_check served_ few)
        intro value _
        obtain ⟨event', result⟩ := value
        cases result with
        | ok => trivial
        | error e =>
          show Costs _ _ _ _ (0 + (2 + 0))
          apply costs_bind
            (costs_sized (Nat.le_refl 0) (ObjectSyncModifications.atMost_updateCondition event' _))
          intro event'' _
          apply costs_bind
            (costs_sized (Nat.le_refl 2) (ObjectSyncModifications.atMost_replaceStatus event''))
          intro value _
          obtain ⟨written, result⟩ := value
          cases result <;> trivial
      show Costs _ _ _ _ (3 * sizes.tracked + sizes.versions + 7 + 2 + 0)
      exact costs_bind reports fun _ _ => trivial
  · trivial

/-- What a run for an ObjectSync of a source takes. -/
def Sizes.perSync (sizes : Sizes) : Nat := 3 * sizes.tracked + 9 * sizes.expected + 4

/-- Fetching the ObjectSyncs of a source takes one request for each. -/
theorem costs_fetchObjectSyncs (sourceRef : SourceRef) (refs : List ObjectSyncRef) :
    (ResourceControllerImpl.fetchObjectSyncs sourceRef refs).Costs (sizes.Replies cache)
      (Call.requests served) (fun objs => objs.length ≤ refs.length ∧
        ∀ rs ∈ objs, sizes.Holds cache rs.modified) refs.length := by
  induction refs with
  | nil => exact ⟨Nat.le_refl 0, fun rs member => absurd member List.not_mem_nil⟩
  | cons r refs ih =>
    unfold ResourceControllerImpl.fetchObjectSyncs ResourceControllerImpl.getObjectSync
    refine costs_api rfl ?_
    intro reply replied
    have skips : (ResourceControllerImpl.fetchObjectSyncs sourceRef refs).Costs
        (sizes.Replies cache) (Call.requests served) (fun objs => objs.length ≤ (r :: refs).length ∧
          ∀ rs ∈ objs, sizes.Holds cache rs.modified) refs.length := by
      refine costs_mono (fun objs kept => ?_) (Nat.le_refl _) ih
      exact ⟨kept.1.trans (Nat.le_succ _), kept.2⟩
    cases reply with
    | error e => exact skips
    | ok sync =>
      dsimp only
      by_cases current : SourceRef.ofSync (ObjectSyncModifications.new sync).modified = sourceRef
      · have holds : sizes.Holds cache (ObjectSyncModifications.new sync).modified :=
          replied.2 sync rfl
        show Costs _ _ _ (if _ then _ else _) _
        rw [if_pos current]
        show Costs _ _ _ _ (refs.length + 0)
        apply costs_bind ih
        intro objs kept
        constructor
        · have length : (ObjectSyncModifications.new sync :: objs).length = objs.length + 1 := rfl
          have length' : (r :: refs).length = refs.length + 1 := rfl
          omega
        · intro rs member
          rcases List.mem_cons.mp member with rfl | member
          · exact holds
          · exact kept.2 rs member
      · show Costs _ _ _ (if _ then _ else _) _
        rw [if_neg current]
        exact skips

/-- Looking the ObjectSyncs of a source up takes one request for each. -/
theorem costs_lookup (self : ResourceControllerImpl) (sourceRef : SourceRef) :
    (self.lookupObjectSyncsForSource sourceRef).Costs (sizes.Replies cache) (Call.requests served)
      (fun found => ∀ objs, found = some objs → objs.length ≤ sizes.registered ∧
        ∀ rs ∈ objs, sizes.Holds cache rs.modified) sizes.registered := by
  have nothing (objs : List ObjectSyncModifications) (found : none = some objs) :
      objs.length ≤ sizes.registered ∧ ∀ rs ∈ objs, sizes.Holds cache rs.modified := by
    cases found
  unfold ResourceControllerImpl.lookupObjectSyncsForSource
  split
  · apply costs_memory
    intro reply replied
    cases reply with
    | none => exact nothing
    | some refs =>
      have few : refs.length ≤ sizes.registered := replied refs rfl
      dsimp only
      split
      · exact nothing
      · apply costs_mono (fun _ => id) few
        show Costs _ _ _ _ (refs.length + 0)
        apply costs_bind (costs_fetchObjectSyncs sourceRef refs)
        intro objs kept objs' found
        cases found
        exact ⟨kept.1.trans few, kept.2⟩
  · exact nothing

/-- What is known of the replies to labelled calls. -/
abbrev Sizes.LabelledReplies (sizes : Sizes) (cache : List Namespace)
    (call : Option ObjectSyncRef × Call) (reply : Reply call.2) : Prop :=
  sizes.Replies cache call.2 reply

/-- Deleting the destinations of some ObjectSyncs. -/
theorem costs_deleteAll {objs : List ObjectSyncModifications}
    (holds : ∀ rs ∈ objs, sizes.Holds cache rs.modified) :
    (ResourceControllerImpl.deleteAll objs).Costs (sizes.LabelledReplies cache)
      (fun call => call.2.requests served) (fun _ => True) (objs.length * sizes.perSync) := by
  induction objs with
  | nil => trivial
  | cons rs rest ih =>
    have own := (holds rs List.mem_cons_self).tracked
    have enough : 3 * rs.modified.destinationList.length + 2 ≤ sizes.perSync := by
      unfold Sizes.perSync
      omega
    have total : (rs :: rest).length * sizes.perSync =
        sizes.perSync + (rest.length * sizes.perSync + 0) := by
      rw [List.length_cons, Nat.succ_mul]
      omega
    unfold ResourceControllerImpl.deleteAll
    rw [total]
    apply costs_bind
      (costs_label (costs_sized enough (ObjectSyncController.atMost_deleteDestinations rs)))
    intro value _
    apply costs_bind (ih fun other member => holds other (List.mem_cons_of_mem _ member))
    intro _ _
    trivial

/-- Synchronizing the destinations of some ObjectSyncs. -/
theorem costs_reconcileAll (self : ResourceControllerImpl) (source : DynamicObject)
    {objs : List ObjectSyncModifications}
    (holds : ∀ rs ∈ objs, sizes.Holds cache rs.modified) :
    (self.reconcileAll source objs).Costs (sizes.LabelledReplies cache)
      (fun call => call.2.requests served) (fun _ => True) (objs.length * sizes.perSync) := by
  induction objs with
  | nil => trivial
  | cons rs rest ih =>
    have total : (rs :: rest).length * sizes.perSync =
        sizes.perSync + rest.length * sizes.perSync := by
      rw [List.length_cons, Nat.succ_mul]
      omega
    unfold ResourceControllerImpl.reconcileAll
    rw [total]
    apply costs_bind
      (costs_label (costs_reconcileSource self (holds rs List.mem_cons_self) source))
    intro value _
    exact ih fun other member => holds other (List.mem_cons_of_mem _ member)

/-- Reconciling an object takes one request for its finalizer, and for each of its ObjectSyncs one
to fetch it and those of its destinations. -/
theorem costs_reconcileObject (self : ResourceControllerImpl) (object : DynamicObject) :
    (self.reconcile object).Costs (sizes.LabelledReplies cache) (fun call => call.2.requests served)
      (fun _ => True) (sizes.registered * (sizes.perSync + 1) + 1) := by
  have total : sizes.registered * (sizes.perSync + 1) + 1 =
      sizes.registered + (sizes.registered * sizes.perSync + 1) := by
    rw [Nat.mul_succ]
    omega
  have releases (source : DynamicObject) :=
    @costs_label _ _ _ (sizes.Replies cache) (Call.requests served) (fun _ => True) 1 _
      (none : Option ObjectSyncRef) _ (costs_sized (Nat.le_refl 1) (atMost_removeFinalizer
        (self.namespacedApi (SourceRef.ofObject object).name.namespace_) source finalizer))
  unfold ResourceControllerImpl.reconcile
  rw [total]
  apply costs_bind (costs_label (costs_lookup self _))
  intro found known
  cases found with
  | none =>
    apply costs_mono (fun _ => id) (Nat.le_add_left 1 _)
    dsimp only
    split
    · show Costs _ _ _ _ (1 + 0)
      apply costs_bind (releases _)
      intro value _
      obtain ⟨source, result⟩ := value
      cases result <;> trivial
    · trivial
  | some objs =>
    obtain ⟨few, holds⟩ := known objs rfl
    have enough : objs.length * sizes.perSync ≤ sizes.registered * sizes.perSync :=
      Nat.mul_le_mul_right _ few
    dsimp only
    split
    · apply costs_bind (costs_mono (fun _ => id) enough (costs_deleteAll holds))
      intro succeeded _
      split
      · show Costs _ _ _ _ (1 + 0)
        exact costs_bind (releases _) fun _ _ => trivial
      · trivial
    · have swapped : sizes.registered * sizes.perSync + 1 =
          1 + (sizes.registered * sizes.perSync + 0) := by omega
      rw [swapped]
      apply costs_bind (costs_label (costs_sized (Nat.le_refl 1)
        (atMost_addFinalizerIfMissing _ _ finalizer)))
      intro value _
      apply costs_bind (costs_mono (fun _ => id) enough (costs_reconcileAll self _ holds))
      intro _ _
      trivial

end Sized

/-- **Bounded runs.** Whatever the API server answers and wherever a run is cut off, reconciling an
object sends at most one request for its finalizer, five for each of its ObjectSyncs, three for each
destination that these record and nine for each that they expect; reconciling an ObjectSync sends at
most nine, three for each destination, and one for each version of the group of its source. -/
theorem requests_bounded {sizes : Sizes} {cache : List Namespace} {served : String → Nat} :
    (∀ (self : ResourceControllerImpl) object calls ending,
      (self.reconcile object).Calls (sizes.LabelledReplies cache) calls ending →
        (calls.map fun call => call.2.requests served).sum ≤
          sizes.registered * (3 * sizes.tracked + 9 * sizes.expected + 5) + 1) ∧
    ((∀ group, served group ≤ sizes.versions) → ∀ configuration object,
      object.destinationList.length ≤ sizes.tracked → ∀ calls ending,
        (ObjectSyncController.reconcile configuration object).Calls (sizes.Replies cache) calls
            ending →
          (calls.map (Call.requests served)).sum ≤ 3 * sizes.tracked + sizes.versions + 9) := by
  constructor
  · intro self object calls ending made
    exact made.sum_le (costs_reconcileObject self object)
  · intro served_ configuration object few calls ending made
    exact made.sum_le (costs_reconcileSync served_ configuration few)

/-- An ObjectSync without its finalizer, which tracks a copy in a namespace where it expects none.
-/
def strayingSync : ObjectSync :=
  { settingsSync.updateDestinations [configMaps.expectedStatus ("old", "settings", none)] with
    metadata := { settingsSync.metadata with finalizers := none } }

/-- Sizes of one ObjectSync that tracks one destination and expects one, with one version of each
group. -/
def settingsSizes : Sizes := ⟨1, 1, 1, 1⟩

/-- Answers that make the runs for the straying ObjectSync long: it is registered with the
controller of another kind, all objects are terminating with the finalizer and can neither be
patched nor applied, and its status can be written until it is ready. -/
def busyAnswer : (call : Call) → Reply call
  | .memory (.lookup _ _) => some [settingsRef]
  | .memory (.getInstance id) =>
    some ⟨0, ⟨0, 0, ⟨settingsRef.name⟩, id⟩, ⟨"", "v1", "Secret"⟩⟩
  | .memory op => op.idleReply
  | .api (.get _ name) =>
    .ok ⟨none, { name := some name, deletionTimestamp := some 0, finalizers := some [finalizer] },
      []⟩
  | .api (.delete _ _) => .ok ()
  | .api (.getSync sync) | .api (.getSyncStatus sync) | .api (.jsonPatchSync sync _) =>
    if sync = settingsRef.name then .ok strayingSync else .error (.other "")
  | .api (.replaceSyncStatus sync body) =>
    if ObjectSyncRef.ofSync body = ⟨sync⟩ ∧ body.destinationList.length ≤ 1 ∧
        (ResourceControllerImpl.expectedDestinations body settingsNamespaces).length ≤ 1 ∧
        conditionStatus body.status ready = none then .ok body
    else .error (.other "")
  | .api (.discoverGroup _) => .ok ⟨[(⟨"", "v1", "ConfigMap"⟩, .namespaced)]⟩
  | .api _ => .error (.api 409 "")
  | .namespaces => settingsNamespaces
  | .clock => "now"

/-- The calls of the run for the source. -/
def sourceCalls : List (Option ObjectSyncRef × Call) :=
  (configMaps.reconcile settingsSource).callsOf (fun call => busyAnswer call.2) 40

/-- The calls of the run for the ObjectSync. -/
def syncCalls : List Call :=
  (ObjectSyncController.reconcile ⟨none, none, none⟩ strayingSync).callsOf busyAnswer 40

example : (sourceCalls.map fun call => call.2.requests fun _ => 1).sum = 18 := by decide +kernel
example : (syncCalls.map (Call.requests fun _ => 1)).sum = 13 := by decide +kernel

/-- The straying ObjectSync is within the sizes of one entry of each sort. -/
theorem strayingSync_sized : settingsSizes.Holds settingsNamespaces strayingSync := by
  constructor <;> decide

/-- The answers to the runs for the straying ObjectSync stay within the sizes of one entry of each
sort. -/
theorem busyAnswer_sized (call : Call) :
    settingsSizes.Replies settingsNamespaces call (busyAnswer call) := by
  have known (sync : NamespacedName) (answered : sync = settingsRef.name) :
      ObjectSyncRef.ofSync strayingSync = ⟨sync⟩ := by
    rw [answered]
    rfl
  cases call with
  | api request =>
    cases request with
    | replaceSyncStatus sync body =>
      by_cases small : ObjectSyncRef.ofSync body = ⟨sync⟩ ∧ body.destinationList.length ≤ 1 ∧
          (ResourceControllerImpl.expectedDestinations body settingsNamespaces).length ≤ 1 ∧
          conditionStatus body.status ready = none
      · have same : busyAnswer (.api (.replaceSyncStatus sync body)) = .ok body := if_pos small
        rw [same]
        refine ⟨⟨small.1, rfl⟩, ?_⟩
        intro value returned
        cases returned
        exact ⟨small.2.1, small.2.2.1⟩
      · have same : busyAnswer (.api (.replaceSyncStatus sync body)) = .error (.other "") :=
          if_neg small
        rw [same]
        exact ⟨trivial, fun value returned => by cases returned⟩
    | getSync sync | getSyncStatus sync | jsonPatchSync sync patch =>
      by_cases answered : sync = settingsRef.name
      · constructor
        · simp only [busyAnswer, if_pos answered]
          exact known sync answered
        · intro value returned
          simp only [busyAnswer, if_pos answered] at returned
          cases returned
          exact strayingSync_sized
      · constructor
        · simp only [busyAnswer, if_neg answered]
          trivial
        · intro value returned
          simp only [busyAnswer, if_neg answered] at returned
          cases returned
    | get api name => exact ⟨rfl, fun _ _ => trivial⟩
    | _ => exact ⟨trivial, fun _ _ => trivial⟩
  | memory op =>
    cases op with
    | lookup controller src =>
      intro names same
      cases same
      exact Nat.le_refl 1
    | _ => trivial
  | namespaces => rfl
  | clock => trivial

/-- The runs for the straying ObjectSync and its source keep to their bounds. -/
theorem straying_bounded :
    (sourceCalls.map fun call => call.2.requests fun _ => 1).sum ≤ 18 ∧
      (syncCalls.map (Call.requests fun _ => 1)).sum ≤ 13 := by
  have bounded := @requests_bounded settingsSizes settingsNamespaces fun _ => 1
  constructor
  · exact bounded.1 configMaps settingsSource sourceCalls none
      (calls_callsOf (fun call : Option ObjectSyncRef × Call => busyAnswer_sized call.2) 40 _)
  · exact bounded.2 (fun _ => Nat.le_refl 1) ⟨none, none, none⟩ strayingSync
      strayingSync_sized.tracked syncCalls none (calls_callsOf busyAnswer_sized 40 _)

end ObjectSyncer
