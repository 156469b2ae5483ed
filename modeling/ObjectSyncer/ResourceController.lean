import Mathlib.Data.Prod.Lex
import Mathlib.Data.String.Basic
import ObjectSyncer.Utils

/-!
# The controller of one kind of source

A resource controller reconciles the objects of one group, version and kind. For a source that
some ObjectSync refers to, it removes stale destinations, records the expected ones in the status
of the ObjectSync, and then creates or updates them.
-/
namespace ObjectSyncer

/-- Type of the condition of destinations being in sync. -/
def inSync : String := "InSync"

/-- Reason of a good condition. -/
def success : String := "Success"

/-- Reason of a bad condition. -/
def failure : String := "Failure"

/-- `FULL_RECONCILE_INTERVAL_SECS`. -/
def fullReconcileIntervalSecs : Nat := 300

/-- The namespace restrictions of `Configuration`; none means every namespace. -/
structure Configuration where
  watchNamespaces : Option (List String)
  sourceNamespaces : Option (List String)
  targetNamespaces : Option (List String)
  deriving DecidableEq, Repr

/-- `Action`: requeue after a number of seconds, or wait for a change. -/
inductive Action where
  | requeue (seconds : Nat)
  | awaitChange
  deriving DecidableEq, Repr

/-- `ResourceControllerImpl`; `sources` is the map of the controller of that identity. -/
structure ResourceControllerImpl where
  configuration : Configuration
  gvk : GroupVersionKind
  sources : ControllerId
  deriving DecidableEq, Repr

/-- A resource controller of config maps without namespace restrictions. -/
def configMaps : ResourceControllerImpl := ⟨⟨none, none, none⟩, ⟨"", "v1", "ConfigMap"⟩, 0⟩

namespace ResourceControllerImpl

/-- `ResourceControllerImpl::namespaced_api`. -/
def namespacedApi (self : ResourceControllerImpl) (namespace_ : String) : DynamicApi :=
  ⟨self.gvk, namespace_⟩

/-- The destinations of one entry of the specification: every live namespace it applies to, or
the one it names when that is live. -/
def expand (sync : ObjectSync) (cache : List Namespace) (d : Destination) :
    List (String × String × Option SyncStrategy) :=
  if d.appliesToAllNamespaces then
    cache.filterMap fun ns =>
      if ns.deletionTimestamp.isNone then
        (d.appliesTo sync ns.name).map fun (namespace_, name) => (namespace_, name, d.strategy)
      else none
  else
    match d.appliesTo sync d.namespace_ with
    | none => []
    | some (namespace_, name) =>
      match cache.find? fun ns => ns.name == d.namespace_ with
      | some ns => if ns.deletionTimestamp.isNone then [(namespace_, name, d.strategy)] else []
      | none => []

/-- `ResourceControllerImpl::expected_destinations`, over the state of the namespace cache. -/
def expectedDestinations (sync : ObjectSync) (cache : List Namespace) :
    List (String × String × Option SyncStrategy) :=
  sync.spec.destinations.flatMap (expand sync cache)

/-- `ResourceControllerImpl::is_same_destination`. -/
def isSameDestination (me other : DestinationStatus) : Bool :=
  me.name == other.name && me.namespace_ == other.namespace_ && me.group == other.group &&
    me.kind == other.kind

/-- Destinations are the same when their keys are. -/
theorem isSameDestination_iff {me other : DestinationStatus} :
    isSameDestination me other = true ↔ me.key = other.key := by
  simp only [isSameDestination, DestinationStatus.key, Bool.and_eq_true, beq_iff_eq,
    ObjectKey.mk.injEq]
  tauto

/-- A new entry for an expected destination, without revisions. -/
def expectedStatus (self : ResourceControllerImpl)
    (target : String × String × Option SyncStrategy) : DestinationStatus where
  name := target.2.1
  namespace_ := target.1
  sourceVersion := none
  syncedVersion := none
  group := self.gvk.group
  version := self.gvk.version
  kind := self.gvk.kind
  strategy := target.2.2

/-- The controller writes an expected destination at its key. -/
theorem namespacedApi_key {self : ResourceControllerImpl}
    {target : String × String × Option SyncStrategy} {d : DestinationStatus}
    (designates : self.expectedStatus target = d.target) :
    (self.namespacedApi d.namespace_).key d.name = d.key := by
  have group : self.gvk.group = d.group := congrArg (·.group) designates
  have kind : self.gvk.kind = d.kind := congrArg (·.kind) designates
  simp only [DynamicApi.key, namespacedApi, DestinationStatus.key, group, kind]

/-- The loop of `reconcile_source` over the expected destinations: each one takes over the
revisions recorded under its key and strategy, and its key is no longer stale. -/
def splitDestinations (self : ResourceControllerImpl) :
    List (String × String × Option SyncStrategy) → List DestinationStatus →
      List DestinationStatus × List DestinationStatus
  | [], stale => ([], stale)
  | target :: rest, stale =>
    let expectedDst := self.expectedStatus target
    match stale.find? fun d => isSameDestination d expectedDst with
    | some status =>
      let expectedDst :=
        if status.effectiveStrategy = expectedDst.effectiveStrategy then
          { expectedDst with
            sourceVersion := status.sourceVersion, syncedVersion := status.syncedVersion }
        else expectedDst
      let (expected, stale) :=
        self.splitDestinations rest (stale.filter fun d => !isSameDestination d expectedDst)
      (expectedDst :: expected, stale)
    | none =>
      let (expected, stale) := self.splitDestinations rest stale
      (expectedDst :: expected, stale)

/-- An expected entry designates its expected destination. -/
theorem splitDestinations_targets (self : ResourceControllerImpl)
    (targets : List (String × String × Option SyncStrategy)) (recorded : List DestinationStatus) :
    (self.splitDestinations targets recorded).1.map (·.target) =
      targets.map self.expectedStatus := by
  induction targets generalizing recorded with
  | nil => rfl
  | cons target rest ih =>
    rw [splitDestinations]
    dsimp only
    split
    · simp only [List.map_cons, ih, List.cons.injEq, and_true]
      split <;> rfl
    · simp only [List.map_cons, ih, List.cons.injEq, and_true]
      rfl

/-- The stale entries are those recorded under no expected key. -/
theorem splitDestinations_stale (self : ResourceControllerImpl)
    (targets : List (String × String × Option SyncStrategy)) (recorded : List DestinationStatus) :
    (self.splitDestinations targets recorded).2 =
      recorded.filter fun d => targets.all fun target =>
        d.key ≠ (self.expectedStatus target).key := by
  induction targets generalizing recorded with
  | nil => simp [splitDestinations]
  | cons target rest ih =>
    rw [splitDestinations]
    dsimp only
    split
    · rename_i status found
      have keys (entry : DestinationStatus) (same : entry.key = (self.expectedStatus target).key) :
          (recorded.filter fun d => !isSameDestination d entry) =
            recorded.filter fun d => decide (d.key ≠ (self.expectedStatus target).key) := by
        refine List.filter_congr fun d _ => ?_
        rw [Bool.eq_iff_iff]
        simp [← Bool.not_eq_true, isSameDestination_iff, same]
      dsimp only
      rw [ih, keys _ (by split <;> rfl), List.filter_filter]
      refine List.filter_congr fun d _ => ?_
      simp [Bool.and_comm]
    · rename_i absent
      dsimp only
      rw [ih]
      refine List.filter_congr fun d member => ?_
      have other := List.find?_eq_none.mp absent d member
      rw [isSameDestination_iff] at other
      simp [other]

/-- Every expected entry is new, or takes over the revisions recorded under its key and strategy. -/
theorem revisions_of_splitDestinations (self : ResourceControllerImpl)
    (targets : List (String × String × Option SyncStrategy)) (recorded : List DestinationStatus) :
    ∀ d ∈ (self.splitDestinations targets recorded).1,
      d.syncedVersion = none ∧ d.sourceVersion = none ∨
        ∃ status ∈ recorded, status.key = d.key ∧
          status.effectiveStrategy = d.effectiveStrategy ∧
          status.syncedVersion = d.syncedVersion ∧ status.sourceVersion = d.sourceVersion := by
  induction targets generalizing recorded with
  | nil => exact fun d member => absurd member List.not_mem_nil
  | cons target rest ih =>
    intro d member
    rw [splitDestinations] at member
    dsimp only at member
    split at member
    · rename_i status found
      rcases List.mem_cons.mp member with rfl | later
      · have designates := List.find?_some found
        have sameKey : status.key = (self.expectedStatus target).key :=
          isSameDestination_iff.mp designates
        by_cases strategies :
          status.effectiveStrategy = (self.expectedStatus target).effectiveStrategy
        · rw [if_pos strategies]
          exact .inr ⟨status, List.mem_of_find?_eq_some found, sameKey, strategies, rfl, rfl⟩
        · rw [if_neg strategies]
          exact .inl ⟨rfl, rfl⟩
      · rcases ih _ d later with new | ⟨former, kept, taken⟩
        · exact .inl new
        · exact .inr ⟨former, (List.mem_filter.mp kept).1, taken⟩
    · rcases List.mem_cons.mp member with rfl | later
      · exact .inl ⟨rfl, rfl⟩
      · exact ih _ d later

/-- Every expected entry designates one of the expected destinations. -/
theorem exists_target_of_mem_expected {self : ResourceControllerImpl}
    {targets : List (String × String × Option SyncStrategy)} {recorded : List DestinationStatus}
    {d : DestinationStatus} (member : d ∈ (self.splitDestinations targets recorded).1) :
    ∃ target ∈ targets, self.expectedStatus target = d.target := by
  have designated := List.mem_map_of_mem (f := (·.target)) member
  rw [splitDestinations_targets] at designated
  exact List.mem_map.mp designated

/-- Every stale entry was recorded. -/
theorem mem_recorded_of_mem_stale {self : ResourceControllerImpl}
    {targets : List (String × String × Option SyncStrategy)} {recorded : List DestinationStatus}
    {d : DestinationStatus} (member : d ∈ (self.splitDestinations targets recorded).2) :
    d ∈ recorded := by
  rw [splitDestinations_stale] at member
  exact (List.mem_filter.mp member).1

/-- The keys of the expected entries are those of the expected destinations. -/
theorem splitDestinations_expected_keys (self : ResourceControllerImpl)
    (targets : List (String × String × Option SyncStrategy)) (recorded : List DestinationStatus) :
    (self.splitDestinations targets recorded).1.map (·.key) =
      targets.map fun target => (self.expectedStatus target).key := by
  have designated := congrArg (List.map (·.key)) (self.splitDestinations_targets targets recorded)
  simpa only [List.map_map, Function.comp_def, DestinationStatus.target_key] using designated

/-- Every recorded entry is stale, or its key is expected. -/
theorem mem_stale_or_expected {self : ResourceControllerImpl}
    {targets : List (String × String × Option SyncStrategy)} {recorded : List DestinationStatus}
    {d : DestinationStatus} (member : d ∈ recorded) :
    d ∈ (self.splitDestinations targets recorded).2 ∨
      d.key ∈ (self.splitDestinations targets recorded).1.map (·.key) := by
  rw [splitDestinations_expected_keys]
  by_cases wanted : ∃ target ∈ targets, d.key = (self.expectedStatus target).key
  · obtain ⟨target, listed, same⟩ := wanted
    rw [same]
    exact .inr (List.mem_map_of_mem listed)
  · rw [splitDestinations_stale, List.mem_filter]
    refine .inl ⟨member, List.all_eq_true.mpr fun target listed => ?_⟩
    exact decide_eq_true fun same => wanted ⟨target, listed, same⟩

/-- Expected and stale entries together have the recorded and the expected keys. -/
theorem mem_split_keys (self : ResourceControllerImpl)
    (targets : List (String × String × Option SyncStrategy)) (recorded : List DestinationStatus)
    (key : ObjectKey) :
    key ∈ ((self.splitDestinations targets recorded).1 ++
        (self.splitDestinations targets recorded).2).map (·.key) ↔
      key ∈ recorded.map (·.key) ∨
        key ∈ targets.map fun target => (self.expectedStatus target).key := by
  rw [List.map_append, List.mem_append, ← self.splitDestinations_expected_keys targets recorded]
  constructor
  · rintro (expected | stale)
    · exact .inr expected
    · obtain ⟨d, member, rfl⟩ := List.mem_map.mp stale
      exact .inl (List.mem_map_of_mem (mem_recorded_of_mem_stale member))
  · rintro (recorded | expected)
    · obtain ⟨d, member, rfl⟩ := List.mem_map.mp recorded
      exact (mem_stale_or_expected member).symm.imp id fun stale => List.mem_map_of_mem stale
    · exact .inl expected

/-- `Vec::sort`, which is stable. -/
def sortDestinations (destinations : List DestinationStatus) : List DestinationStatus :=
  destinations.insertionSort fun left right => left.le right

/-- Sorting destinations only moves entries. -/
theorem sortDestinations_perm (destinations : List DestinationStatus) :
    (sortDestinations destinations).Perm destinations :=
  List.perm_insertionSort _ _

/-- Entries are ordered by namespace and name. -/
theorem destinationStatus_le_iff {left right : DestinationStatus} :
    left.le right = true ↔
      toLex (left.namespace_, left.name) ≤ toLex (right.namespace_, right.name) := by
  rw [Prod.Lex.le_iff]
  unfold DestinationStatus.le
  dsimp only [ofLex_toLex]
  by_cases same : left.namespace_ = right.namespace_
  · rw [if_pos same, decide_eq_true_eq]
    simp [same]
  · rw [if_neg same, decide_eq_true_eq]
    simp [same, lt_iff_le_and_ne]

/-- All entries can be compared. -/
instance : Std.Total fun left right : DestinationStatus => left.le right = true where
  total left right := by
    rw [destinationStatus_le_iff, destinationStatus_le_iff]
    exact le_total _ _

/-- The order is transitive. -/
instance : IsTrans DestinationStatus fun left right => left.le right = true where
  trans first second third := by
    rw [destinationStatus_le_iff, destinationStatus_le_iff, destinationStatus_le_iff]
    exact le_trans

/-- Sorted entries are in order. -/
theorem pairwise_sortDestinations (destinations : List DestinationStatus) :
    (sortDestinations destinations).Pairwise fun left right => left.le right = true :=
  List.pairwise_insertionSort _ destinations

/-- The variables that `upsert_destinations` carries from one destination to the next. -/
structure UpsertState where
  template : DynamicObject
  changed : Bool
  observedSuccess : Nat
  deriving DecidableEq, Repr

/-- Whether the loop over the attempts goes on. -/
inductive Flow where
  | continue_
  | break_
  deriving DecidableEq, Repr

/-- The template of `upsert_destinations` before it is fitted to a destination. -/
def sourceTemplate (source : DynamicObject) : DynamicObject :=
  { source with
    metadata :=
      { source.metadata with
        labels := some ((source.metadata.labels.getD []).insert "app.kubernetes.io/managed-by"
          manager)
        annotations := some ((source.metadata.annotations.getD []).insert sourceObjectAnnotation
          (source.metadata.namespace_.getD "" ++ "/" ++ source.metadata.nameAny)) } }

/-- The template fitted to a destination. -/
def fitTemplate (template : DynamicObject) (d : DestinationStatus) : DynamicObject :=
  { template with
    metadata :=
      { template.metadata with
        namespace_ := some d.namespace_
        name := some d.name
        generation := none
        generateName := none
        managedFields := none
        ownerReferences := none
        selfLink := none
        creationTimestamp := none
        finalizers := some [finalizer] } }

/-- Put a revision into a template. -/
def withRevision (template : DynamicObject) (revision : ObjectRevision) : DynamicObject :=
  { template with
    metadata :=
      { template.metadata with
        uid := revision.uid, resourceVersion := revision.resourceVersion } }

/-- A destination entry after its object was written. -/
def synced (d : DestinationStatus) (srcVersion : ObjectRevision) (written : DynamicObject) :
    DestinationStatus :=
  { d with syncedVersion := some written.metadata.revision, sourceVersion := some srcVersion }

/-- An attempt that found the object: skip it when both recorded revisions are current, else
write it. -/
def updateExisting (api : DynamicApi) (srcVersion : ObjectRevision) (current : DynamicObject)
    (d : DestinationStatus) (state : UpsertState) :
    Async (DestinationStatus × UpsertState × Flow) :=
  let dstVersion := current.metadata.revision
  if some dstVersion ≠ d.syncedVersion ∨ some srcVersion ≠ d.sourceVersion then do
    let state := { state with template := withRevision state.template dstVersion }
    let result ← match d.effectiveStrategy with
      | .replace => Async.api (.replace api d.name state.template)
      | .apply => Async.api (.apply api d.name state.template)
    match result with
    | .ok updated =>
      return (synced d srcVersion updated,
        { state with changed := true, observedSuccess := state.observedSuccess + 1 }, .break_)
    | .error e =>
      if e.isNotFound || e.isConflict then return (d, state, .continue_)
      else return (d, state, .break_)
  else return (d, { state with observedSuccess := state.observedSuccess + 1 }, .break_)

/-- An attempt that found no object: create it. -/
def createMissing (api : DynamicApi) (srcVersion : ObjectRevision) (d : DestinationStatus)
    (state : UpsertState) : Async (DestinationStatus × UpsertState × Flow) := do
  match ← Async.api (.create api state.template) with
  | .ok created =>
    return (synced d srcVersion created,
      { state with changed := true, observedSuccess := state.observedSuccess + 1 }, .break_)
  | .error e =>
    if e.isConflict then return (d, state, .continue_) else return (d, state, .break_)

/-- The body of the loop over the attempts. -/
def upsertAttempt (api : DynamicApi) (srcVersion : ObjectRevision) (d : DestinationStatus)
    (state : UpsertState) : Async (DestinationStatus × UpsertState × Flow) := do
  let state := { state with template := withRevision state.template ⟨none, none⟩ }
  match ← Async.api (.get api d.name) with
  | .ok current =>
    if current.metadata.terminating then do
      -- Once released, a terminating copy disappears and is created anew.
      match ← removeFinalizer api current finalizer with
      | (_, .ok true) => return (d, state, .continue_)
      | (current, _) => updateExisting api srcVersion current d state
    else updateExisting api srcVersion current d state
  | .error e =>
    if e.isNotFound then createMissing api srcVersion d state
    else return (d, state, .break_)

/-- The loop over the remaining attempts for one destination. -/
def upsertLoop (api : DynamicApi) (srcVersion : ObjectRevision) :
    Nat → DestinationStatus → UpsertState → Async (DestinationStatus × UpsertState)
  | 0, d, state => return (d, state)
  | retryAttempts + 1, d, state => do
    match ← upsertAttempt api srcVersion d state with
    | (d, state, .continue_) => upsertLoop api srcVersion retryAttempts d state
    | (d, state, .break_) => return (d, state)

/-- Whether a destination is a remnant, a stale destination whose deletion failed. -/
def isRemnant (staleRemnants : List DestinationStatus) (d : DestinationStatus) : Bool :=
  staleRemnants.any fun v => isSameDestination v d

/-- An entry is a remnant when a remnant has its key. -/
theorem isRemnant_iff {staleRemnants : List DestinationStatus} {d : DestinationStatus} :
    isRemnant staleRemnants d = true ↔ ∃ v ∈ staleRemnants, v.key = d.key := by
  simp only [isRemnant, List.any_eq_true, isSameDestination_iff]

/-- An entry that is written ahead and is no remnant is an expected one. -/
theorem mem_of_not_isRemnant {expected staleRemnants : List DestinationStatus}
    {d : DestinationStatus} (member : d ∈ sortDestinations (expected ++ staleRemnants))
    (current : isRemnant staleRemnants d = false) : d ∈ expected := by
  rcases List.mem_append.mp ((sortDestinations_perm _).mem_iff.mp member) with fresh | remnant
  · exact fresh
  · have skipped := isRemnant_iff.mpr ⟨d, remnant, rfl⟩
    rw [current] at skipped
    cases skipped

/-- Up to their order, the entries that are written ahead and are no remnants are those of the
expected entries that no remnant names. -/
theorem filter_not_isRemnant_perm (expected staleRemnants : List DestinationStatus) :
    ((sortDestinations (expected ++ staleRemnants)).filter fun d =>
      !isRemnant staleRemnants d).Perm (expected.filter fun d => !isRemnant staleRemnants d) := by
  have skipped : (staleRemnants.filter fun d => !isRemnant staleRemnants d) = [] := by
    refine List.filter_eq_nil_iff.mpr fun d member => ?_
    rw [isRemnant_iff.mpr ⟨d, member, rfl⟩]
    exact Bool.false_ne_true
  have perm := (sortDestinations_perm (expected ++ staleRemnants)).filter
    fun d => !isRemnant staleRemnants d
  rw [List.filter_append, skipped, List.append_nil] at perm
  exact perm

/-- The loop of `upsert_destinations` over the destinations. -/
def upsertEach (self : ResourceControllerImpl) (srcVersion : ObjectRevision)
    (staleRemnants : List DestinationStatus) :
    List DestinationStatus → UpsertState → Async (List DestinationStatus × UpsertState)
  | [], state => return ([], state)
  | d :: rest, state =>
    if isRemnant staleRemnants d then do
      let (rest, state) ← self.upsertEach srcVersion staleRemnants rest state
      return (d :: rest, state)
    else do
      let state := { state with template := fitTemplate state.template d }
      let (d, state) ← upsertLoop (self.namespacedApi d.namespace_) srcVersion 3 d state
      let (rest, state) ← self.upsertEach srcVersion staleRemnants rest state
      return (d :: rest, state)

/-- `ResourceControllerImpl::upsert_destinations`: the entries afterwards, whether one was
written, and how many were expected and observed to be in sync. -/
def upsertDestinations (self : ResourceControllerImpl) (source : DynamicObject)
    (destinations staleRemnants : List DestinationStatus) :
    Async (List DestinationStatus × Bool × Nat × Nat) := do
  let expectedSuccess := (destinations.filter fun d => !isRemnant staleRemnants d).length
  let (destinations, state) ← self.upsertEach source.metadata.revision staleRemnants destinations
    ⟨sourceTemplate source, false, 0⟩
  return (destinations, state.changed, expectedSuccess, state.observedSuccess)

/-- The InSync condition after a run. -/
def inSyncCondition (expected observed : Nat) : Condition :=
  let errors := expected - observed
  Condition.new inSync (some (errors == 0)) (if errors == 0 then success else failure)
    s!"{observed} out of {expected} destinations are in sync"

/-- Steps 3 and 4 of `reconcile_source`: create and update the destinations of the status, and
write the status again when anything was changed. -/
def syncDestinations (self : ResourceControllerImpl) (event : ObjectSyncModifications)
    (source : DynamicObject) (staleRemnants : List DestinationStatus) (removedCount : Nat) :
    Async (ObjectSyncModifications × Except ControllerError Unit) :=
  match event.modified.statusDestinations with
  | none => return (event, .ok ())
  | some destinations => do
    let (destinations, updated, expected, observed) ←
      self.upsertDestinations source destinations staleRemnants
    let event := event.updateDestinations destinations
    if updated || removedCount > 0 then do
      let event ← event.updateCondition (inSyncCondition expected observed)
      event.replaceStatus
    else return (event, .ok ())

/-- `ResourceControllerImpl::reconcile_source`. -/
def reconcileSource (self : ResourceControllerImpl) (event : ObjectSyncModifications)
    (source : DynamicObject) : Async (ObjectSyncModifications × Except ControllerError Unit) := do
  let cache ← Async.namespaces
  let (expected, stale) := self.splitDestinations (expectedDestinations event.modified cache)
    event.modified.destinationList
  -- 1. Remove stale destinations.
  match ← deleteDestinations stale with
  | .error e => return (event, .error e)
  | .ok staleRemnants =>
    let removedCount := stale.length - staleRemnants.length
    -- 2. Track every destination before it is created.
    let event := event.updateDestinations (sortDestinations (expected ++ staleRemnants))
    match ← event.replaceStatus with
    | (event, .error e) => return (event, .error e)
    | (event, .ok ()) => self.syncDestinations event source staleRemnants removedCount

end ResourceControllerImpl

end ObjectSyncer
