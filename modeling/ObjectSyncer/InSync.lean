import ObjectSyncer.Conditions

/-!
# The InSync condition

Runs of `reconcile_source` for one ObjectSync, one after the other, with any answers. The condition
is only written by a run that wrote or removed a destination, so what it says afterwards depends on
what it said before; and a destination whose deletion failed is not counted.
-/
namespace ObjectSyncer

open Interaction Interaction.Program

namespace ResourceControllerImpl

/-- What a run of `reconcile_source` counts. -/
structure Tally where
  /-- The stale destinations whose deletion failed. -/
  staleRemnants : List DestinationStatus
  /-- How many destinations are expected. -/
  expected : Nat
  /-- How many destinations were found or brought in sync. -/
  observed : Nat
  deriving DecidableEq, Repr

/-- `syncDestinations`, returning the counts as well. -/
def syncDestinationsTallied (self : ResourceControllerImpl) (event : ObjectSyncModifications)
    (source : DynamicObject) (staleRemnants : List DestinationStatus) (removedCount : Nat) :
    Async ((ObjectSyncModifications × Except ControllerError Unit) × Option Tally) :=
  match event.modified.statusDestinations with
  | none => return ((event, .ok ()), none)
  | some destinations => do
    let (destinations, updated, expected, observed) ←
      self.upsertDestinations source destinations staleRemnants
    let event := event.updateDestinations destinations
    if updated || removedCount > 0 then do
      let event ← event.updateCondition (inSyncCondition expected observed)
      let result ← event.replaceStatus
      return (result, some ⟨staleRemnants, expected, observed⟩)
    else return ((event, .ok ()), some ⟨staleRemnants, expected, observed⟩)

/-- `reconcileSource`, returning the counts as well. -/
def reconcileSourceTallied (self : ResourceControllerImpl) (event : ObjectSyncModifications)
    (source : DynamicObject) :
    Async ((ObjectSyncModifications × Except ControllerError Unit) × Option Tally) := do
  let cache ← Async.namespaces
  let (expected, stale) := self.splitDestinations (expectedDestinations event.modified cache)
    event.modified.destinationList
  match ← deleteDestinations stale with
  | .error e => return ((event, .error e), none)
  | .ok staleRemnants =>
    let removedCount := stale.length - staleRemnants.length
    let event := event.updateDestinations (sortDestinations (expected ++ staleRemnants))
    match ← event.replaceStatus with
    | (event, .error e) => return ((event, .error e), none)
    | (event, .ok ()) => self.syncDestinationsTallied event source staleRemnants removedCount

/-- The counts are none of the business of steps 3 and 4. -/
theorem syncDestinationsTallied_fst (self : ResourceControllerImpl)
    (event : ObjectSyncModifications) (source : DynamicObject)
    (staleRemnants : List DestinationStatus) (removedCount : Nat) :
    Prod.fst <$> self.syncDestinationsTallied event source staleRemnants removedCount =
      self.syncDestinations event source staleRemnants removedCount := by
  unfold syncDestinationsTallied syncDestinations
  cases event.modified.statusDestinations with
  | none => rfl
  | some destinations =>
    rw [map_bind]
    congr 1
    funext value
    dsimp only
    split
    · rw [map_bind]
      congr 1
      funext event
      rw [map_bind]
      exact bind_done _
    · rfl

/-- The counts are none of the business of a run. -/
theorem reconcileSourceTallied_fst (self : ResourceControllerImpl)
    (event : ObjectSyncModifications) (source : DynamicObject) :
    Prod.fst <$> self.reconcileSourceTallied event source = self.reconcileSource event source := by
  unfold reconcileSourceTallied reconcileSource
  rw [map_bind]
  congr 1
  funext cache
  dsimp only
  rw [map_bind]
  congr 1
  funext result
  cases result with
  | error e => rfl
  | ok staleRemnants =>
    dsimp only
    rw [map_bind]
    congr 1
    funext value
    obtain ⟨event', result⟩ := value
    cases result with
    | error e => rfl
    | ok => exact self.syncDestinationsTallied_fst event' source staleRemnants _

/-! ## Creating and updating destinations -/

/-- A destination is recorded at the revision of the source, and at the revision at which its object
was last read. -/
def SeenInSync (srcVersion : ObjectRevision) (transcript : Transcript) (d : DestinationStatus) :
    Prop :=
  d.sourceVersion = some srcVersion ∧
    ∃ revision, d.syncedVersion = some revision ∧ transcript.seen d.key = some revision

/-- Calls for the objects of some keys, that write no status and delete nothing. -/
structure OnlyAt (keys : List ObjectKey) (before after : Transcript) : Prop where
  status : after.status = before.status
  removed : after.removed = before.removed
  refused : after.refused = before.refused
  seen : ∀ other, other ∉ keys → after.seen other = before.seen other
  wrote : before.wrote = true → after.wrote = true
  namespaces : ∀ cache, (⟨.namespaces, cache⟩ : Answer) ∈ after.answers ↔
    (⟨.namespaces, cache⟩ : Answer) ∈ before.answers

/-- No call is for the objects of any keys. -/
theorem OnlyAt.refl (keys : List ObjectKey) (transcript : Transcript) :
    OnlyAt keys transcript transcript :=
  ⟨rfl, rfl, rfl, fun _ _ => rfl, id, fun _ => Iff.rfl⟩

/-- Calls for the objects of some keys, and further ones. -/
theorem OnlyAt.trans {keys : List ObjectKey} {first second third : Transcript}
    (step : OnlyAt keys first second) (next : OnlyAt keys second third) :
    OnlyAt keys first third where
  status := next.status.trans step.status
  removed := next.removed.trans step.removed
  refused := next.refused.trans step.refused
  seen := fun other different => (next.seen other different).trans (step.seen other different)
  wrote := fun written => next.wrote (step.wrote written)
  namespaces := fun cache => (next.namespaces cache).trans (step.namespaces cache)

/-- Calls for the objects of some keys are calls for those of more keys. -/
theorem OnlyAt.mono {keys more : List ObjectKey} {before after : Transcript}
    (included : ∀ key ∈ keys, key ∈ more) (only : OnlyAt keys before after) :
    OnlyAt more before after :=
  { only with seen := fun other absent => only.seen other fun member => absent (included _ member) }

section Upsert

variable {o : ObjectSyncRef} {api : DynamicApi} {d : DestinationStatus} {before after : Transcript}

/-- The answer to a request for a destination concerns no other destination. -/
theorem OnlyAt.of_answered {request : ApiRequest} {reply : Reply (.api request)}
    (asks : Upsert api d.name request) (same : api.key d.name = d.key)
    (answered : (transcribing o).answers before (.api request) reply after) :
    OnlyAt [d.key] before after := by
  have recorded := answered.2.2.2
  have target : ∀ key, request.target = some key → key = d.key := by
    intro key targeted
    cases asks with
    | get => cases targeted
    | create named =>
      have found := Option.some.inj targeted
      rw [← found, named, same]
    | _ => exact (Option.some.inj targeted).symm.trans same
  refine ⟨?_, ?_, ?_, ?_, ?_, ?_⟩
  · have kept := answered.2.1
    cases asks <;> cases reply <;> exact kept
  · rw [Transcript.removed_of_answered recorded]
    cases asks <;> exact Bool.or_false _
  · rw [Transcript.refused_of_answered recorded]
    cases asks <;> exact Bool.or_false _
  · intro other different
    rw [Transcript.seen_of_answered other recorded]
    have missed : api.key d.name ≠ other := by
      intro found
      exact different (List.mem_singleton.mpr (found.symm.trans same))
    have untargeted : request.target ≠ some other := by
      intro found
      exact different (List.mem_singleton.mpr (target other found))
    cases asks with
    | get => exact if_neg missed
    | release patch =>
      cases reply with
      | ok value => exact if_neg untargeted
      | error e => exact if_neg fun found => missed found.1
    | create named => exact if_neg untargeted
    | replace body => exact if_neg untargeted
    | apply body => exact if_neg untargeted
  · intro written
    rw [Transcript.wrote_of_answered recorded, written]
    rfl
  · intro cache
    exact Transcript.namespaces_of_answered cache recorded nofun

/-- The variables of the loop and the transcript after a destination was handled. -/
structure Handled (srcVersion : ObjectRevision) (d d' : DestinationStatus)
    (state state' : UpsertState) (before after : Transcript) : Prop where
  /-- Only its object was asked for. -/
  only : OnlyAt [d.key] before after
  /-- The flag tells whether anything was written. -/
  changed : state.changed = before.wrote → state'.changed = after.wrote
  /-- It counts once at most. -/
  atMost : state.observedSuccess ≤ state'.observedSuccess ∧
    state'.observedSuccess ≤ state.observedSuccess + 1
  /-- Where nothing is written, it counts when it was seen in sync. -/
  silent : after.wrote = false →
    (state'.observedSuccess = state.observedSuccess + 1 ↔ SeenInSync srcVersion after d)

/-- What holds after an attempt: where it is to be repeated, nothing is known of the object. -/
structure Attempted (srcVersion : ObjectRevision) (d : DestinationStatus) (state : UpsertState)
    (before : Transcript) (value : DestinationStatus × UpsertState × Flow) (after : Transcript) :
    Prop where
  handled : Handled srcVersion d value.1 state value.2.1 before after
  named : value.2.1.template.metadata.nameAny = d.name
  again : value.2.2 = .continue_ → value.1 = d ∧
    value.2.1.observedSuccess = state.observedSuccess ∧ after.seen d.key = none

variable {srcVersion : ObjectRevision} {state : UpsertState} {current : DynamicObject}

/-- A destination whose object was not read is not seen in sync. -/
theorem not_seenInSync {transcript : Transcript} (unseen : transcript.seen d.key = none) :
    ¬SeenInSync srcVersion transcript d := by
  rintro ⟨-, revision, -, seen⟩
  rw [unseen] at seen
  cases seen

/-- A write that succeeds changes and counts the destination. -/
theorem attempted_written {request : ApiRequest} {reply : Reply (.api request)}
    {template : DynamicObject} (object : DynamicObject) (asks : Upsert api d.name request)
    (same : api.key d.name = d.key)
    (answered : (transcribing o).answers before (.api request) reply after)
    (writes : Answer.writes ⟨.api request, reply⟩ = true)
    (named : template.metadata.nameAny = d.name) :
    Attempted srcVersion d state before
      (synced d srcVersion object, ⟨template, true, state.observedSuccess + 1⟩, .break_) after := by
  have wrote : after.wrote = true := by
    rw [Transcript.wrote_of_answered answered.2.2.2, writes, Bool.or_true]
  refine ⟨⟨.of_answered asks same answered, fun _ => wrote.symm, ?_, ?_⟩, named, nofun⟩
  · exact ⟨Nat.le_succ _, le_rfl⟩
  · intro silent
    rw [wrote] at silent
    cases silent

/-- A write that fails leaves everything and makes the object unknown. -/
theorem attempted_failed {request : ApiRequest} {reply : Reply (.api request)}
    {template : DynamicObject} (flow : Flow) (asks : Upsert api d.name request)
    (same : api.key d.name = d.key)
    (answered : (transcribing o).answers before (.api request) reply after)
    (fails : Answer.writes ⟨.api request, reply⟩ = false)
    (unseen : Answer.sees d.key (before.seen d.key) ⟨.api request, reply⟩ = none)
    (named : template.metadata.nameAny = d.name) :
    Attempted srcVersion d state before
      (d, ⟨template, state.changed, state.observedSuccess⟩, flow) after := by
  have wrote : after.wrote = before.wrote := by
    rw [Transcript.wrote_of_answered answered.2.2.2, fails, Bool.or_false]
  have nothing : after.seen d.key = none :=
    (Transcript.seen_of_answered d.key answered.2.2.2).trans unseen
  refine ⟨⟨.of_answered asks same answered, fun flag => flag.trans wrote.symm, ?_, ?_⟩, named,
    fun _ => ⟨rfl, rfl, nothing⟩⟩
  · exact ⟨le_rfl, Nat.le_succ _⟩
  · intro _
    constructor
    · intro counted
      exact absurd counted (Nat.ne_of_lt (Nat.lt_succ_self _))
    · intro seen
      exact absurd seen (not_seenInSync nothing)

/-- A destination whose object was read is skipped when both revisions are current, and written
otherwise. -/
theorem attempted_updateExisting (same : api.key d.name = d.key)
    (read : before.seen d.key = some current.metadata.revision)
    (named : state.template.metadata.nameAny = d.name) :
    (updateExisting api srcVersion current d state).wp (transcribing o)
      (Attempted srcVersion d state before) before := by
  unfold updateExisting
  dsimp only
  have targeted : some (api.key d.name) = some d.key := congrArg some same
  have template : (withRevision state.template current.metadata.revision).metadata.nameAny =
      d.name := named
  split
  · cases d.effectiveStrategy with
    | apply =>
      dsimp only
      rw [wp_api]
      intro moved still reply after answered
      subst still
      refine ⟨trivial, ?_⟩
      cases reply with
      | ok updated => exact attempted_written updated (.apply _) same answered rfl template
      | error e =>
        dsimp only
        split
        · exact attempted_failed _ (.apply _) same answered rfl (if_pos targeted) template
        · exact attempted_failed _ (.apply _) same answered rfl (if_pos targeted) template
    | replace =>
      dsimp only
      rw [wp_api]
      intro moved still reply after answered
      subst still
      refine ⟨trivial, ?_⟩
      cases reply with
      | ok updated => exact attempted_written updated (.replace _) same answered rfl template
      | error e =>
        dsimp only
        split
        · exact attempted_failed _ (.replace _) same answered rfl (if_pos targeted) template
        · exact attempted_failed _ (.replace _) same answered rfl (if_pos targeted) template
  · rename_i current'
    have revisions : some current.metadata.revision = d.syncedVersion ∧
        some srcVersion = d.sourceVersion := by
      by_contra differs
      refine current' ?_
      by_cases synced : some current.metadata.revision = d.syncedVersion
      · exact .inr fun source => differs ⟨synced, source⟩
      · exact .inl synced
    refine ⟨⟨.refl _ _, id, ⟨Nat.le_succ _, le_rfl⟩, fun _ => ?_⟩, named, nofun⟩
    constructor
    · intro _
      exact ⟨revisions.2.symm, _, revisions.1.symm, read⟩
    · intro _
      rfl

/-- A destination whose object is missing is created. -/
theorem attempted_createMissing (same : api.key d.name = d.key)
    (named : state.template.metadata.nameAny = d.name) :
    (createMissing api srcVersion d state).wp (transcribing o)
      (Attempted srcVersion d state before) before := by
  unfold createMissing
  rw [wp_api]
  intro moved still reply after answered
  subst still
  refine ⟨trivial, ?_⟩
  have targeted : some (api.key state.template.metadata.nameAny) = some d.key := by
    rw [named, same]
  cases reply with
  | ok created => exact attempted_written created (.create named) same answered rfl named
  | error e =>
    dsimp only
    split
    · exact attempted_failed _ (.create named) same answered rfl (if_pos targeted) named
    · exact attempted_failed _ (.create named) same answered rfl (if_pos targeted) named

/-- What comes before an attempt and writes nothing belongs to it, and so does a new template. -/
theorem Attempted.of_only {value : DestinationStatus × UpsertState × Flow} {middle : Transcript}
    {template : DynamicObject} (first : OnlyAt [d.key] before middle)
    (wrote : middle.wrote = before.wrote)
    (attempted : Attempted srcVersion d { state with template := template } middle value after) :
    Attempted srcVersion d state before value after where
  handled :=
    ⟨first.trans attempted.handled.only,
      fun flag => attempted.handled.changed (flag.trans wrote.symm), attempted.handled.atMost,
      attempted.handled.silent⟩
  named := attempted.named
  again := attempted.again

/-- Removing the finalizer of an object that was just read: nothing is known of it afterwards,
unless there was none or that fails. -/
theorem removeFinalizer_seen {source : DynamicObject} (same : api.key d.name = d.key)
    (found : source.metadata.nameAny = d.name)
    (read : before.seen d.key = some source.metadata.revision) :
    (removeFinalizer api source finalizer).wp (transcribing o) (fun value after =>
      OnlyAt [d.key] before after ∧ after.wrote = before.wrote ∧
        (value.2 = .ok true ∧ after.seen d.key = none ∨
          value.2 ≠ .ok true ∧ after.seen d.key = some value.1.metadata.revision)) before := by
  unfold removeFinalizer
  dsimp only
  split
  · rw [wp_api]
    intro moved still reply after answered
    subst still
    refine ⟨trivial, ?_⟩
    rw [DynamicObject.withFinalizers_nameAny, found] at answered
    have only := OnlyAt.of_answered (.release _) same answered
    have wrote : after.wrote = moved.wrote := by
      rw [Transcript.wrote_of_answered answered.2.2.2]
      exact Bool.or_false _
    have seen := Transcript.seen_of_answered d.key answered.2.2.2
    cases reply with
    | ok value => exact ⟨only, wrote, .inl ⟨rfl, seen.trans (if_pos (congrArg some same))⟩⟩
    | error e =>
      dsimp only
      by_cases missing : e.isNotFound = true
      · rw [if_pos missing]
        exact ⟨only, wrote, .inl ⟨rfl, seen.trans (if_pos ⟨same, missing⟩)⟩⟩
      · rw [if_neg missing]
        refine ⟨only, wrote, .inr ⟨nofun, ?_⟩⟩
        exact seen.trans ((if_neg fun both => missing both.2).trans read)
  · exact ⟨.refl _ _, rfl, .inr ⟨by simp, read⟩⟩

/-- An attempt handles the destination, or is repeated. -/
theorem attempted_upsertAttempt (same : api.key d.name = d.key)
    (named : state.template.metadata.nameAny = d.name) :
    (upsertAttempt api srcVersion d state).wp (transcribing o)
      (Attempted srcVersion d state before) before := by
  unfold upsertAttempt
  dsimp only
  rw [wp_api]
  intro moved still reply read answered
  subst still
  refine ⟨trivial, ?_⟩
  have first : OnlyAt [d.key] moved read := .of_answered .get same answered
  have wrote : read.wrote = moved.wrote := by
    rw [Transcript.wrote_of_answered answered.2.2.2]
    exact Bool.or_false _
  have seen := (Transcript.seen_of_answered d.key answered.2.2.2).trans (if_pos same)
  cases reply with
  | ok current =>
    dsimp only
    split
    · rw [wp_bind]
      have found : current.metadata.nameAny = d.name := answered.1
      refine wp_imp ?_ (removeFinalizer_seen same found seen)
      intro value released kept
      obtain ⟨only, unwritten, outcome⟩ := kept
      have before : OnlyAt [d.key] moved released := first.trans only
      have flags : released.wrote = moved.wrote := unwritten.trans wrote
      rcases outcome with ⟨removed, nothing⟩ | ⟨kept, known⟩
      · obtain ⟨current', result⟩ := value
        dsimp only at removed
        subst removed
        refine ⟨⟨before, fun flag => flag.trans flags.symm, ⟨le_rfl, Nat.le_succ _⟩, fun _ => ?_⟩,
          named, fun _ => ⟨rfl, rfl, nothing⟩⟩
        constructor
        · intro counted
          exact absurd counted (Nat.ne_of_lt (Nat.lt_succ_self _))
        · intro seen
          exact absurd seen (not_seenInSync nothing)
      · split
        · exact absurd rfl kept
        · exact wp_imp (fun _ _ attempted => attempted.of_only before flags)
            (attempted_updateExisting same known named)
    · exact wp_imp (fun _ _ attempted => attempted.of_only first wrote)
        (attempted_updateExisting same seen named)
  | error e =>
    dsimp only
    split
    · exact wp_imp (fun _ _ attempted => attempted.of_only first wrote)
        (attempted_createMissing same named)
    · refine ⟨⟨first, fun flag => flag.trans wrote.symm, ⟨le_rfl, Nat.le_succ _⟩, fun _ => ?_⟩,
        named, fun _ => ⟨rfl, rfl, seen⟩⟩
      constructor
      · intro counted
        exact absurd counted (Nat.ne_of_lt (Nat.lt_succ_self _))
      · intro visible
        exact absurd visible (not_seenInSync seen)

/-- All attempts together handle the destination. -/
theorem handled_upsertLoop (attempts : Nat) (same : api.key d.name = d.key)
    (named : state.template.metadata.nameAny = d.name)
    (unseen : attempts = 0 → before.seen d.key = none) :
    (upsertLoop api srcVersion attempts d state).wp (transcribing o) (fun value after =>
      Handled srcVersion d value.1 state value.2 before after) before := by
  induction attempts generalizing state before with
  | zero =>
    refine ⟨.refl _ _, id, ⟨le_rfl, Nat.le_succ _⟩, fun _ => ?_⟩
    constructor
    · intro counted
      exact absurd counted (Nat.ne_of_lt (Nat.lt_succ_self _))
    · intro seen
      exact absurd seen (not_seenInSync (unseen rfl))
  | succ attempts ih =>
    rw [upsertLoop, wp_bind]
    refine wp_imp ?_ (attempted_upsertAttempt same named)
    intro value middle attempted
    obtain ⟨d', state', flow⟩ := value
    cases flow with
    | break_ => exact attempted.handled
    | continue_ =>
      have again := attempted.again rfl
      dsimp only at again
      obtain ⟨rfl, counted, nothing⟩ := again
      refine wp_imp ?_ (ih attempted.named fun _ => nothing)
      intro value after handled
      have atMost := handled.atMost
      rw [counted] at atMost
      have silent := handled.silent
      rw [counted] at silent
      exact ⟨attempted.handled.only.trans handled.only,
        fun flag => handled.changed (attempted.handled.changed flag), atMost, silent⟩

end Upsert

section Loop

variable {o : ObjectSyncRef} {srcVersion : ObjectRevision} {before after : Transcript}

/-- At most one entry of each key has a revision recorded. -/
def RecordedOnce (destinations : List DestinationStatus) : Prop :=
  destinations.Pairwise fun left right =>
    left.key = right.key → left.syncedVersion = none ∨ right.syncedVersion = none

/-- The variables of the loop and the transcript after some destinations were handled. -/
structure AllHandled (srcVersion : ObjectRevision) (destinations : List DestinationStatus)
    (state state' : UpsertState) (before after : Transcript) : Prop where
  only : OnlyAt (destinations.map (·.key)) before after
  changed : state.changed = before.wrote → state'.changed = after.wrote
  atMost : state.observedSuccess ≤ state'.observedSuccess ∧
    state'.observedSuccess ≤ state.observedSuccess + destinations.length
  silent : after.wrote = false →
    (state'.observedSuccess = state.observedSuccess + destinations.length ↔
      ∀ d ∈ destinations, SeenInSync srcVersion after d)

/-- Handling a destination and then the remaining ones handles all of them. -/
theorem Handled.cons {d d' : DestinationStatus} {rest : List DestinationStatus}
    {state state' state'' : UpsertState} {middle : Transcript}
    (once : RecordedOnce (d :: rest)) (handled : Handled srcVersion d d' state state' before middle)
    (further : AllHandled srcVersion rest state' state'' middle after) :
    AllHandled srcVersion (d :: rest) state state'' before after := by
  have first : OnlyAt ((d :: rest).map (·.key)) before middle := by
    refine handled.only.mono fun key member => ?_
    rw [List.mem_singleton.mp member]
    exact List.mem_cons_self
  have second : OnlyAt ((d :: rest).map (·.key)) middle after :=
    further.only.mono fun key member => List.mem_cons_of_mem _ member
  have bounds := handled.atMost
  have bounds' := further.atMost
  refine ⟨first.trans second, fun flag => further.changed (handled.changed flag), ?_, ?_⟩
  · rw [List.length_cons]
    omega
  · intro silent
    have unwritten : middle.wrote = false := by
      by_contra written
      have wrote := further.only.wrote (Bool.not_eq_false _ ▸ written)
      rw [silent] at wrote
      cases wrote
    have single := handled.silent unwritten
    have others := further.silent silent
    -- When all others are recorded, they lie elsewhere.
    have kept (seen : ∀ e ∈ rest, SeenInSync srcVersion after e) :
        SeenInSync srcVersion after d ↔ SeenInSync srcVersion middle d := by
      by_cases recorded : d.syncedVersion = none
      · constructor <;> rintro ⟨-, revision, synced, -⟩ <;> rw [recorded] at synced <;> cases synced
      · have elsewhere : d.key ∉ rest.map (·.key) := by
          intro member
          obtain ⟨e, listed, sameKey⟩ := List.mem_map.mp member
          have missing := (List.pairwise_cons.mp once).1 e listed sameKey.symm
          rcases missing with none | none
          · exact recorded none
          · obtain ⟨-, revision, synced, -⟩ := seen e listed
            rw [none] at synced
            cases synced
        unfold SeenInSync
        rw [further.only.seen d.key elsewhere]
    rw [List.length_cons, List.forall_mem_cons]
    constructor
    · intro counted
      have seen := others.mp (by omega)
      exact ⟨(kept seen).mpr (single.mp (by omega)), seen⟩
    · intro seen
      have counted := others.mpr seen.2
      have counted' := single.mpr ((kept seen.2).mp seen.1)
      omega

/-- The loop over the destinations handles those that are no remnants. -/
theorem allHandled_upsertEach (self : ResourceControllerImpl)
    (staleRemnants destinations : List DestinationStatus) (state : UpsertState)
    (same : ∀ d ∈ destinations, isRemnant staleRemnants d = false →
      (self.namespacedApi d.namespace_).key d.name = d.key)
    (once : RecordedOnce (destinations.filter fun d => !isRemnant staleRemnants d)) :
    (self.upsertEach srcVersion staleRemnants destinations state).wp (transcribing o)
      (fun value after => AllHandled srcVersion
        (destinations.filter fun d => !isRemnant staleRemnants d) state value.2 before after)
      before := by
  induction destinations generalizing state before with
  | nil =>
    refine ⟨.refl _ _, id, ⟨le_rfl, le_rfl⟩, fun _ => ?_⟩
    constructor
    · intro _ d member
      exact absurd member List.not_mem_nil
    · intro _
      rfl
  | cons d rest ih =>
    have further := fun other member => same other (List.mem_cons_of_mem d member)
    rw [upsertEach]
    by_cases remnant : isRemnant staleRemnants d = true
    · have skipped : ((d :: rest).filter fun d => !isRemnant staleRemnants d) =
          rest.filter fun d => !isRemnant staleRemnants d := by
        rw [List.filter_cons, remnant]
        rfl
      rw [skipped] at once ⊢
      rw [if_pos remnant, wp_bind]
      exact wp_imp (fun _ _ handled => handled) (ih state further once)
    · have wanted : isRemnant staleRemnants d = false := Bool.not_eq_true _ ▸ remnant
      have taken : ((d :: rest).filter fun d => !isRemnant staleRemnants d) =
          d :: rest.filter fun d => !isRemnant staleRemnants d := by
        rw [List.filter_cons, wanted]
        rfl
      rw [taken] at once ⊢
      rw [if_neg remnant, wp_bind]
      have tried (exhausted : 3 = 0) : before.seen d.key = none := absurd exhausted (by decide)
      refine wp_imp ?_ (handled_upsertLoop 3 (same d List.mem_cons_self wanted) rfl tried)
      intro value middle handled
      have handled' : Handled srcVersion d value.1 state value.2 before middle :=
        ⟨handled.only, handled.changed, handled.atMost, handled.silent⟩
      rw [wp_bind]
      refine wp_imp ?_ (ih value.2 further (List.pairwise_cons.mp once).2)
      intro value' after others
      exact handled'.cons once others

end Loop

/-! ## Whole runs -/

/-- At most one expected entry of each key takes over a recorded revision. -/
theorem recordedOnce_splitDestinations (self : ResourceControllerImpl)
    (targets : List (String × String × Option SyncStrategy)) (recorded : List DestinationStatus) :
    RecordedOnce (self.splitDestinations targets recorded).1 := by
  unfold RecordedOnce
  induction targets generalizing recorded with
  | nil => exact List.Pairwise.nil
  | cons target rest ih =>
    rw [splitDestinations]
    dsimp only
    split
    · rename_i status found
      refine List.pairwise_cons.mpr ⟨?_, ih _⟩
      intro later member sameKey
      by_cases none : later.syncedVersion = none
      · exact .inr none
      · -- No entry of that key is left for the later one.
        rcases self.revisions_of_splitDestinations _ _ later member with new | taken
        · exact absurd new.1 none
        · obtain ⟨former, kept, same, -⟩ := taken
          have other := (List.mem_filter.mp kept).2
          rw [isSameDestination_iff.mpr (same.trans sameKey.symm)] at other
          cases other
    · exact List.pairwise_cons.mpr ⟨fun later member sameKey => .inl rfl, ih _⟩

/-- Reordering entries records them once still. -/
theorem RecordedOnce.perm {left right : List DestinationStatus} (once : RecordedOnce left)
    (perm : left.Perm right) : RecordedOnce right :=
  (perm.pairwise_iff fun distinct same => (distinct same.symm).symm).mp once

/-- Calls that concern no object: nothing is written, deleted or seen. -/
structure Inert (before after : Transcript) : Prop where
  wrote : after.wrote = before.wrote
  removed : after.removed = before.removed
  refused : after.refused = before.refused
  namespaces : ∀ cache, (⟨.namespaces, cache⟩ : Answer) ∈ after.answers ↔
    (⟨.namespaces, cache⟩ : Answer) ∈ before.answers

/-- Calls that persist nothing, followed by further ones, persist nothing. -/
theorem Inert.trans {first second third : Transcript} (step : Inert first second)
    (next : Inert second third) : Inert first third :=
  ⟨next.wrote.trans step.wrote, next.removed.trans step.removed,
    next.refused.trans step.refused,
    fun cache => (next.namespaces cache).trans (step.namespaces cache)⟩

/-- A call that writes and deletes nothing and does not read the namespaces is one of them. -/
theorem Inert.of_answered {o : ObjectSyncRef} {before after : Transcript} {call : Call}
    {reply : Reply call} (answered : (transcribing o).answers before call reply after)
    (writes : Answer.writes ⟨call, reply⟩ = false) (removes : Answer.removes ⟨call, reply⟩ = false)
    (refuses : Answer.refuses ⟨call, reply⟩ = false) (other : call ≠ .namespaces) :
    Inert before after := by
  have recorded := answered.2.2.2
  refine ⟨?_, ?_, ?_, ?_⟩
  · rw [Transcript.wrote_of_answered recorded, writes, Bool.or_false]
  · rw [Transcript.removed_of_answered recorded, removes, Bool.or_false]
  · rw [Transcript.refused_of_answered recorded, refuses, Bool.or_false]
  · intro cache
    exact Transcript.namespaces_of_answered cache recorded other

section Runs

variable {o : ObjectSyncRef} {before : Transcript}

/-- What is known once the deletion of some destinations has come to its end: all others are as
before, and what failed and what did not is on record. -/
structure Deleted (destinations failed todo : List DestinationStatus) (before after : Transcript) :
    Prop where
  status : after.status = before.status
  wrote : after.wrote = before.wrote
  refused : after.refused = !failed.isEmpty
  removed : after.removed = decide (failed.length + todo.length < destinations.length)
  atMost : failed.length + todo.length ≤ destinations.length
  namespaces : ∀ cache, (⟨.namespaces, cache⟩ : Answer) ∈ after.answers ↔
    (⟨.namespaces, cache⟩ : Answer) ∈ before.answers

/-- Deleting destinations puts on record which deletions failed. -/
theorem deleted_deleteDestinations (destinations : List DestinationStatus)
    (unremoved : before.removed = false) (unrefused : before.refused = false) :
    (deleteDestinations destinations).wp (transcribing o) (fun result after =>
      ∀ remaining, result = .ok remaining → Deleted destinations remaining [] before after)
      before := by
  have start : Deleted destinations [] destinations before before := by
    refine ⟨rfl, rfl, unrefused, ?_, (Nat.zero_add _).le, fun _ => Iff.rfl⟩
    rw [unremoved, List.length_nil, Nat.zero_add]
    exact (decide_eq_false (lt_irrefl _)).symm
  refine wp_imp ?_ (@wp_deleteDestinations_loop _ (transcribing o)
    (fun failed todo after => Deleted destinations failed todo before after) (fun _ => True)
    (fun _ _ _ _ answered => answered.1) ?_ ?_ ?_ (fun _ _ _ _ _ _ _ _ _ => trivial) []
    destinations before start)
  · intro result after kept remaining finished
    exact kept.2 remaining finished
  · intro failed todo world moved kept still
    rw [still]
    exact kept
  · intro failed d todo world request reply after removal undeleted kept answered
    have inert : Inert world after := by
      cases removal with
      | delete => exact absurd rfl (undeleted _ _)
      | _ => exact .of_answered answered rfl rfl rfl nofun
    refine ⟨trivial, ?_, inert.wrote.trans kept.wrote, inert.refused.trans kept.refused,
      inert.removed.trans kept.removed, kept.atMost,
      fun cache => (inert.namespaces cache).trans (kept.namespaces cache)⟩
    have persisted := answered.2.1
    cases removal with
    | delete => exact absurd rfl (undeleted _ _)
    | get => exact Eq.trans persisted kept.status
    | release patch => cases reply <;> exact Eq.trans persisted kept.status
  · intro failed d todo world reply after kept answered
    have recorded := answered.2.2.2
    have atMost := kept.atMost
    rw [List.length_cons] at atMost
    have removed : after.removed = (world.removed || deletionSettled reply) :=
      Transcript.removed_of_answered recorded
    have refused : after.refused = (world.refused || !deletionSettled reply) :=
      Transcript.refused_of_answered recorded
    have wrote : after.wrote = world.wrote := by
      rw [Transcript.wrote_of_answered recorded]
      exact Bool.or_false _
    have status : after.status = before.status := Eq.trans answered.2.1 kept.status
    have namespaces (cache : List Namespace) :=
      (Transcript.namespaces_of_answered cache recorded nofun).trans (kept.namespaces cache)
    by_cases settled : deletionSettled reply = true
    · rw [if_pos settled, List.append_nil]
      refine ⟨trivial, status, wrote.trans kept.wrote, ?_, ?_, by omega, namespaces⟩
      · rw [refused, settled, kept.refused]
        exact Bool.or_false _
      · rw [removed, settled, Bool.or_true]
        exact (decide_eq_true (by omega)).symm
    · rw [if_neg settled]
      have unsettled : deletionSettled reply = false := Bool.not_eq_true _ ▸ settled
      refine ⟨trivial, status, wrote.trans kept.wrote, ?_, ?_, ?_, namespaces⟩
      · rw [refused, unsettled]
        cases failed <;> simp
      · rw [removed, unsettled, kept.removed, Bool.or_false, List.length_append, List.length_cons,
          List.length_singleton]
        congr 1
        rw [Nat.add_assoc, Nat.add_comm 1]
      · rw [List.length_append, List.length_singleton]
        omega

/-- A status that was written is persisted, and the working copy is in touch with it. -/
structure Written (o : ObjectSyncRef) (event event' : ObjectSyncModifications)
    (before after : Transcript) : Prop where
  inTouch : InTouch o event' after
  persisted : after.status = event.modified.status
  same : event'.modified.status = event.modified.status
  inert : Inert before after

/-- A status write that succeeds persists the status. -/
theorem written_replaceStatus {event : ObjectSyncModifications} (inTouch : InTouch o event before) :
    event.replaceStatus.wp (transcribing o) (fun value after =>
      value.2 = .ok () → Written o event value.1 before after) before := by
  have inert : Inert before before := ⟨rfl, rfl, rfl, fun _ => Iff.rfl⟩
  refine wp_imp ?_ (@wp_replaceStatus_outcome o before event (Inert before) inTouch.of ?_ ?_ inert)
  · intro value after outcome finished
    obtain ⟨outcome, inert⟩ := outcome
    rcases outcome.ok finished with ⟨persisted, original⟩ | ⟨same, unchanged, original⟩
    · exact ⟨⟨outcome.of, original.trans persisted.symm⟩, persisted, outcome.same, inert⟩
    · have persisted : after.status = event.modified.status :=
        unchanged.trans (inTouch.original.symm.trans same)
      refine ⟨⟨outcome.of, ?_⟩, persisted, outcome.same, inert⟩
      rw [original, inTouch.original, unchanged]
  · intro moved reply after kept answered
    exact kept.trans (.of_answered answered rfl rfl rfl nofun)
  · intro moved body reply after kept answered
    exact kept.trans (.of_answered answered rfl rfl rfl nofun)

/-- What the InSync condition says is whether everything that was expected was observed. -/
theorem inSyncCondition_status {expected observed : Nat} (atMost : observed ≤ expected) :
    (inSyncCondition expected observed).status =
      if observed = expected then "True" else "False" := by
  unfold inSyncCondition Condition.new
  by_cases all : observed = expected
  · subst all
    simp
  · have errors : expected - observed ≠ 0 := by omega
    simp [all, errors]

/-- How a run ends that returns no error: with the condition it has counted when it wrote or removed
a destination, and otherwise with the one it has found. -/
structure Concluded (srcVersion : ObjectRevision) (destinations : List DestinationStatus)
    (tally : Tally) (before after : Transcript) : Prop where
  refused : after.refused = before.refused
  namespaces : ∀ cache, (⟨.namespaces, cache⟩ : Answer) ∈ after.answers ↔
    (⟨.namespaces, cache⟩ : Answer) ∈ before.answers
  decisive : after.wrote = true ∨ after.removed = true →
    conditionStatus after.status inSync =
      some (if tally.observed = tally.expected then "True" else "False")
  silent : after.wrote = false → after.removed = false →
    conditionStatus after.status inSync = conditionStatus before.status inSync ∧
      (tally.observed = tally.expected ↔
        ∀ d ∈ destinations, SeenInSync srcVersion after d)

/-- Steps 3 and 4 conclude a run. -/
theorem concluded_syncDestinationsTallied (self : ResourceControllerImpl)
    {event : ObjectSyncModifications} (source : DynamicObject)
    {staleRemnants destinations : List DestinationStatus} {removedCount : Nat}
    (inTouch : InTouch o event before)
    (tracked : event.modified.statusDestinations = some destinations)
    (same : ∀ d ∈ destinations, isRemnant staleRemnants d = false →
      (self.namespacedApi d.namespace_).key d.name = d.key)
    (once : RecordedOnce (destinations.filter fun d => !isRemnant staleRemnants d))
    (unwritten : before.wrote = false) (removed : before.removed = decide (0 < removedCount)) :
    (self.syncDestinationsTallied event source staleRemnants removedCount).wp (transcribing o)
      (fun value after => value.1.2 = .ok () → ∃ tally, value.2 = some tally ∧
        tally.staleRemnants = staleRemnants ∧
        Concluded source.metadata.revision
          (destinations.filter fun d => !isRemnant staleRemnants d) tally before after) before := by
  unfold syncDestinationsTallied upsertDestinations
  rw [tracked]
  dsimp only
  rw [wp_bind, wp_bind]
  refine wp_imp ?_ (self.allHandled_upsertEach staleRemnants destinations _ same once)
  intro value middle handled
  obtain ⟨destinations', state⟩ := value
  rw [pure_eq, wp_done]
  dsimp only at handled ⊢
  have changed : state.changed = middle.wrote := handled.changed unwritten.symm
  have bounds := handled.atMost.2
  rw [Nat.zero_add] at bounds
  have silent := handled.silent
  rw [Nat.zero_add] at silent
  have removed' : middle.removed = decide (0 < removedCount) := handled.only.removed.trans removed
  have inTouch' : InTouch o (event.updateDestinations destinations') middle :=
    ⟨inTouch.of.modify rfl rfl, inTouch.original.trans handled.only.status.symm⟩
  by_cases decisive : (state.changed || decide (removedCount > 0)) = true
  · rw [if_pos decisive, wp_bind]
    unfold ObjectSyncModifications.updateCondition
    rw [wp_clock]
    intro moved still time read answered
    subst still
    refine ⟨trivial, ?_⟩
    have first : Inert moved read := .of_answered answered rfl rfl rfl nofun
    have status : read.status = moved.status := answered.2.1
    rw [pure_eq, wp_done, wp_bind]
    have inTouch'' : InTouch o ((event.updateDestinations destinations').modify
        (·.updateCondition time (inSyncCondition
          (destinations.filter fun d => !isRemnant staleRemnants d).length state.observedSuccess)))
        read :=
      ⟨inTouch'.of.modify rfl rfl, inTouch'.original.trans status.symm⟩
    refine wp_imp ?_ (written_replaceStatus inTouch'')
    intro value after written finished
    have written := written finished
    have inert := first.trans written.inert
    refine ⟨_, rfl, rfl, inert.refused.trans handled.only.refused,
      fun cache => (inert.namespaces cache).trans (handled.only.namespaces cache), ?_, ?_⟩
    · intro _
      rw [written.persisted, ← inSyncCondition_status bounds]
      exact ObjectSync.conditionStatus_updateCondition _ time _
    · intro unwritten' unremoved
      rw [inert.wrote, ← changed] at unwritten'
      rw [inert.removed, removed'] at unremoved
      change (state.changed || decide (0 < removedCount)) = true at decisive
      rw [unwritten', unremoved] at decisive
      cases decisive
  · rw [if_neg decisive]
    intro _
    have neither := Bool.or_eq_false_iff.mp (Bool.not_eq_true _ ▸ decisive)
    have unwritten' : middle.wrote = false := changed.symm.trans neither.1
    have unremoved : middle.removed = false := removed'.trans neither.2
    refine ⟨_, rfl, rfl, handled.only.refused, handled.only.namespaces, ?_, ?_⟩
    · intro either
      rw [unwritten', unremoved] at either
      rcases either with written | removed <;> contradiction
    · intro _ _
      refine ⟨?_, silent unwritten'⟩
      rw [handled.only.status]

/-- Once the entries are written ahead, steps 3 and 4 conclude the run. -/
theorem concluded_replaceStatus (self : ResourceControllerImpl) {event : ObjectSyncModifications}
    (source : DynamicObject) {expected staleRemnants : List DestinationStatus} {removedCount : Nat}
    (inTouch : InTouch o (event.updateDestinations (sortDestinations (expected ++ staleRemnants)))
      before)
    (designated : ∀ d ∈ expected, (self.namespacedApi d.namespace_).key d.name = d.key)
    (once : RecordedOnce expected) (unwritten : before.wrote = false)
    (removed : before.removed = decide (0 < removedCount)) :
    (event.updateDestinations (sortDestinations (expected ++ staleRemnants))).replaceStatus.wp
      (transcribing o) (fun written middle => written.2 = .ok () → Inert before middle ∧
        conditionStatus middle.status inSync = conditionStatus event.modified.status inSync ∧
        (self.syncDestinationsTallied written.1 source staleRemnants removedCount).wp
          (transcribing o) (fun value after => value.1.2 = .ok () → ∃ tally,
            value.2 = some tally ∧ tally.staleRemnants = staleRemnants ∧
            Concluded source.metadata.revision
              ((sortDestinations (expected ++ staleRemnants)).filter
                fun d => !isRemnant staleRemnants d) tally middle after) middle) before := by
  refine wp_imp ?_ (written_replaceStatus inTouch)
  intro value middle written finished
  have written := written finished
  obtain ⟨event', result⟩ := value
  have statuses : event'.modified.status =
      some ((event.modified.status.getD .default).updateDestinations
        (sortDestinations (expected ++ staleRemnants))) := written.same
  have tracked : event'.modified.statusDestinations =
      some (sortDestinations (expected ++ staleRemnants)) := by
    rw [ObjectSync.statusDestinations, statuses]
    rfl
  have same : ∀ d ∈ sortDestinations (expected ++ staleRemnants),
      isRemnant staleRemnants d = false → (self.namespacedApi d.namespace_).key d.name = d.key :=
    fun d member current => designated d (mem_of_not_isRemnant member current)
  have once' : RecordedOnce ((sortDestinations (expected ++ staleRemnants)).filter
      fun d => !isRemnant staleRemnants d) := by
    have filtered : RecordedOnce (expected.filter fun d => !isRemnant staleRemnants d) :=
      once.sublist List.filter_sublist
    exact filtered.perm (filter_not_isRemnant_perm expected staleRemnants).symm
  have unwritten' : middle.wrote = false := written.inert.wrote.trans unwritten
  have removed' : middle.removed = decide (0 < removedCount) := written.inert.removed.trans removed
  refine ⟨written.inert, ?_, self.concluded_syncDestinationsTallied source written.inTouch tracked
    same once' unwritten' removed'⟩
  rw [written.persisted]
  exact ObjectSync.conditionStatus_updateDestinations event.modified _ _

/-- The entries that are no remnants are the expected ones, when there are no remnants. -/
theorem filter_not_isRemnant_nil (destinations : List DestinationStatus) :
    (destinations.filter fun d => !isRemnant [] d) = destinations :=
  List.filter_eq_self.mpr fun _ _ => rfl

/-- A run concludes for the entries that are expected in the namespaces it has read. -/
theorem concluded_reconcileSourceTallied (self : ResourceControllerImpl) {sync : ObjectSync}
    (source : DynamicObject) (identity : ObjectSyncRef.ofSync sync = o)
    (registered : Option ObjectSyncInstance) :
    (self.reconcileSourceTallied (.new sync) source).wp (transcribing o)
      (fun value after => value.1.2 = .ok () → ∃ tally middle cache, value.2 = some tally ∧
        after.refused = !tally.staleRemnants.isEmpty ∧
        conditionStatus middle.status inSync = conditionStatus sync.status inSync ∧
        (∀ cache', (⟨.namespaces, cache'⟩ : Answer) ∈ after.answers ↔ cache' = cache) ∧
        Concluded source.metadata.revision
          ((sortDestinations ((self.splitDestinations (expectedDestinations sync cache)
            sync.destinationList).1 ++ tally.staleRemnants)).filter
              fun d => !isRemnant tally.staleRemnants d) tally middle after)
      ⟨sync.status, registered, []⟩ := by
  unfold reconcileSourceTallied
  rw [wp_namespaces]
  intro moved still cache start answered
  subst still
  refine ⟨trivial, ?_⟩
  have answers : start.answers = [⟨.namespaces, cache⟩] := answered.2.2.2
  have status : start.status = sync.status := answered.2.1
  have cached (cache' : List Namespace) :
      (⟨.namespaces, cache'⟩ : Answer) ∈ start.answers ↔ cache' = cache := by
    rw [answers, List.mem_singleton]
    constructor
    · intro same
      cases same
      rfl
    · intro same
      rw [same]
  have wrote : start.wrote = false := by rw [Transcript.wrote, answers]; rfl
  have removed : start.removed = false := by rw [Transcript.removed, answers]; rfl
  have refused : start.refused = false := by rw [Transcript.refused, answers]; rfl
  have unmodified : (ObjectSyncModifications.new sync).modified = sync := rfl
  rw [unmodified]
  generalize split : self.splitDestinations (expectedDestinations sync cache)
    sync.destinationList = parts
  obtain ⟨expected, stale⟩ := parts
  dsimp only
  rw [wp_bind]
  refine wp_imp ?_ (deleted_deleteDestinations stale removed refused)
  intro result deletion deleted
  cases result with
  | error e =>
    intro finished
    cases finished
  | ok staleRemnants =>
    have deleted := deleted staleRemnants rfl
    have inTouch : InTouch o ((ObjectSyncModifications.new sync).updateDestinations
        (sortDestinations (expected ++ staleRemnants))) deletion := by
      have of : (ObjectSyncModifications.new sync).Of o := ObjectSyncModifications.of_new identity
      exact ⟨of.modify rfl rfl, status.symm.trans deleted.status.symm⟩
    have designated : ∀ d ∈ expected, (self.namespacedApi d.namespace_).key d.name = d.key := by
      intro d member
      have wanted : d ∈ (self.splitDestinations (expectedDestinations sync cache)
          sync.destinationList).1 := by
        rw [split]
        exact member
      obtain ⟨target, -, designates⟩ := exists_target_of_mem_expected wanted
      exact namespacedApi_key designates
    have once : RecordedOnce expected := by
      have distinct := self.recordedOnce_splitDestinations (expectedDestinations sync cache)
        sync.destinationList
      rw [split] at distinct
      exact distinct
    have flag : deletion.removed = decide (0 < stale.length - staleRemnants.length) := by
      rw [deleted.removed, List.length_nil, Nat.add_zero]
      exact decide_eq_decide.mpr (by omega)
    dsimp only
    rw [wp_bind]
    refine wp_imp ?_ (self.concluded_replaceStatus source inTouch designated once
      (deleted.wrote.trans wrote) flag)
    intro value middle written
    obtain ⟨event, result⟩ := value
    cases result with
    | error e =>
      intro finished
      cases finished
    | ok =>
      obtain ⟨inert, said, synchronized⟩ := written rfl
      refine wp_imp ?_ synchronized
      intro value after concluded finished
      obtain ⟨tally, found, remnants, concluded⟩ := concluded finished
      refine ⟨tally, middle, cache, found, ?_, said, ?_, ?_⟩
      · rw [concluded.refused, inert.refused, deleted.refused, remnants]
      · intro cache'
        rw [concluded.namespaces, inert.namespaces, deleted.namespaces]
        exact cached cache'
      · rw [remnants, split]
        exact concluded

end Runs

end ResourceControllerImpl

/-- A finished run of `reconcile_source`. -/
structure SourceRun where
  /-- The controller of the source. -/
  controller : ResourceControllerImpl
  /-- The ObjectSync, with the status persisted before the run. -/
  sync : ObjectSync
  /-- The source object. -/
  source : DynamicObject
  /-- The persisted status after the run, with all answers of the run. -/
  later : Transcript
  /-- What the run has returned. -/
  result : Except ControllerError Unit
  /-- What the run has counted. -/
  tally : Option ResourceControllerImpl.Tally

namespace SourceRun

open ResourceControllerImpl

/-- Every expected destination was found or brought in sync, and no stale one was left. -/
def AllInSync (run : SourceRun) : Prop :=
  ∃ tally, run.tally = some tally ∧ tally.observed = tally.expected ∧ tally.staleRemnants = []

/-- After a run without error, an InSync condition is true when everything is in sync. -/
def Truthful (run : SourceRun) : Prop :=
  run.result = .ok () → ∀ stated, conditionStatus run.later.status inSync = some stated →
    (stated = "True" ↔ run.AllInSync)

/-- Every expected destination was read at its recorded revision, which was made from the current
revision of the source. -/
def FoundInSync (run : SourceRun) : Prop :=
  ∀ cache, (⟨.namespaces, cache⟩ : Answer) ∈ run.later.answers →
    ∀ d ∈ (run.controller.splitDestinations (expectedDestinations run.sync cache)
      run.sync.destinationList).1, SeenInSync run.source.metadata.revision run.later d

/-- A run that writes and removes no destination starts with an InSync condition that is true when
the run finds everything in sync, or with none. -/
def StartsTruthful (run : SourceRun) : Prop :=
  run.later.wrote = false → run.later.removed = false →
    ∀ stated, conditionStatus run.sync.status inSync = some stated →
      (stated = "True" ↔ run.FoundInSync)

end SourceRun

/-- The runs for one ObjectSync that are finished, the last one first, and the status that is
persisted now. Each of them starts with the status that is persisted before. -/
inductive SourceRuns (o : ObjectSyncRef) : Option ObjectSyncStatus → List SourceRun → Prop
  /-- There was no run yet. -/
  | start (status : Option ObjectSyncStatus) : SourceRuns o status []
  /-- A run is finished. -/
  | run {status : Option ObjectSyncStatus} {runs : List SourceRun} {sync : ObjectSync}
      {registered : Option ObjectSyncInstance} {later : Transcript}
      {event : ObjectSyncModifications} {result : Except ControllerError Unit}
      {tally : Option ResourceControllerImpl.Tally} (controller : ResourceControllerImpl)
      (source : DynamicObject) : SourceRuns o status runs → ObjectSyncRef.ofSync sync = o →
      sync.status = status →
      Program.Returns (transcribing o).rely (transcribing o).answers
        (controller.reconcileSourceTallied (.new sync) source) ⟨status, registered, []⟩
        ((event, result), tally) later →
      SourceRuns o later.status (⟨controller, sync, source, later, result, tally⟩ :: runs)
  /-- A run is cut off. -/
  | cut {status : Option ObjectSyncStatus} {runs : List SourceRun} {sync : ObjectSync}
      {registered : Option ObjectSyncInstance} {later : Transcript}
      {rest : Async ((ObjectSyncModifications × Except ControllerError Unit) ×
        Option ResourceControllerImpl.Tally)} (controller : ResourceControllerImpl)
      (source : DynamicObject) : SourceRuns o status runs → ObjectSyncRef.ofSync sync = o →
      sync.status = status →
      Program.Steps (transcribing o).rely (transcribing o).answers
        (controller.reconcileSourceTallied (.new sync) source) ⟨status, registered, []⟩ rest
        later →
      SourceRuns o later.status runs

open ResourceControllerImpl in
/-- After a run without error in which no deletion failed, the InSync condition is truthful exactly
if the run has written or removed a destination, or was started with a truthful condition. -/
theorem SourceRun.truthful_iff {o : ObjectSyncRef} {run : SourceRun}
    {event : ObjectSyncModifications} {registered : Option ObjectSyncInstance}
    (identity : ObjectSyncRef.ofSync run.sync = o)
    (returned : Program.Returns (transcribing o).rely (transcribing o).answers
      (run.controller.reconcileSourceTallied (.new run.sync) run.source)
      ⟨run.sync.status, registered, []⟩ ((event, run.result), run.tally) run.later)
    (finished : run.result = .ok ()) (settled : run.later.refused = false) :
    run.Truthful ↔ run.StartsTruthful := by
  obtain ⟨tally, middle, cache, counted, refused, former, cached, concluded⟩ :=
    returned.meets (run.controller.concluded_reconcileSourceTallied run.source identity registered)
      finished
  have noRemnants : tally.staleRemnants = [] := by
    rw [settled] at refused
    cases remnants : tally.staleRemnants with
    | nil => rfl
    | cons d rest =>
      rw [remnants] at refused
      cases refused
  rw [noRemnants, List.append_nil, filter_not_isRemnant_nil] at concluded
  dsimp only at counted
  have all : run.AllInSync ↔ tally.observed = tally.expected := by
    constructor
    · rintro ⟨tally', counted', observed, -⟩
      rw [counted] at counted'
      rw [Option.some.inj counted']
      exact observed
    · intro observed
      exact ⟨tally, counted, observed, noRemnants⟩
  by_cases decisive : run.later.wrote = true ∨ run.later.removed = true
  · have counts := concluded.decisive decisive
    constructor
    · intro _ unwritten unremoved
      rw [unwritten, unremoved] at decisive
      rcases decisive with written | removed <;> contradiction
    · intro _ _ stated found
      rw [counts] at found
      rw [← Option.some.inj found, all]
      by_cases observed : tally.observed = tally.expected
      · simp [observed]
      · simp [observed]
  · have unwritten : run.later.wrote = false := by
      cases written : run.later.wrote with
      | false => rfl
      | true => exact absurd (.inl written) decisive
    have unremoved : run.later.removed = false := by
      cases removed : run.later.removed with
      | false => rfl
      | true => exact absurd (.inr removed) decisive
    have silent := concluded.silent unwritten unremoved
    have found : run.FoundInSync ↔ tally.observed = tally.expected := by
      rw [silent.2]
      constructor
      · intro found d member
        exact found cache ((cached cache).mpr rfl) d ((sortDestinations_perm _).mem_iff.mp member)
      · intro seen cache' read d member
        rw [(cached cache').mp read] at member
        exact seen d ((sortDestinations_perm _).mem_iff.mpr member)
    have same : conditionStatus run.later.status inSync =
        conditionStatus run.sync.status inSync := silent.1.trans former
    unfold Truthful StartsTruthful
    rw [same, all, found]
    constructor
    · intro truthful _ _
      exact truthful finished
    · intro starts _
      exact starts unwritten unremoved

/-- **The InSync condition tells the truth from run to run.** As long as no deletion of a stale
destination fails, it does so after every run without error exactly if every such run that neither
writes nor removes a destination already starts with a truthful condition. -/
theorem inSync_truthful_iff {o : ObjectSyncRef} {status : Option ObjectSyncStatus}
    {runs : List SourceRun} (history : SourceRuns o status runs)
    (settled : ∀ run ∈ runs, run.result = .ok () → run.later.refused = false) :
    (∀ run ∈ runs, run.Truthful) ↔ ∀ run ∈ runs, run.result = .ok () → run.StartsTruthful := by
  induction history with
  | start status =>
    constructor
    · intro _ run member
      exact absurd member List.not_mem_nil
    · intro _ run member
      exact absurd member List.not_mem_nil
  | @run status runs sync registered later event result tally controller source _ identity fresh
      returned ih =>
    have earlier := ih fun run member => settled run (List.mem_cons_of_mem _ member)
    subst fresh
    have last (finished : result = .ok ()) :
        SourceRun.Truthful ⟨controller, sync, source, later, result, tally⟩ ↔
          SourceRun.StartsTruthful ⟨controller, sync, source, later, result, tally⟩ :=
      SourceRun.truthful_iff identity returned finished
        (settled _ List.mem_cons_self finished)
    rw [List.forall_mem_cons, List.forall_mem_cons, earlier]
    refine and_congr ?_ Iff.rfl
    constructor
    · intro truthful finished
      exact (last finished).mp truthful
    · intro starts finished
      exact (last finished).mpr (starts finished) finished
  | cut _ _ _ _ _ _ ih => exact ih settled

/-- No API group is discovered. -/
def noApis : Except KubeError ApiGroup := .error (.api 503 "unavailable")

/-- A run that copies a revision of the settings, from a persisted status. -/
def settingsSourceRun (resourceVersion : Option String) (status : Option ObjectSyncStatus)
    (found written : Except KubeError ObjectRevision) : SourceRun :=
  let sync := { settingsSync with status := status }
  let source := ResourceControllerImpl.withRevision settingsSource ⟨none, resourceVersion⟩
  let returned := (configMaps.reconcileSourceTallied (.new sync) source).run
    (fun transcript => transcript.answer settingsRef (settingsReplies found written noApis)
      settingsNamespaces "now")
    ⟨status, none, []⟩
  ⟨configMaps, sync, source, returned.2, returned.1.1.2, returned.1.2⟩

/-- A run for the settings continues a history. -/
theorem sourceRuns_settingsSourceRun {status : Option ObjectSyncStatus} {runs : List SourceRun}
    (resourceVersion : Option String) (found written : Except KubeError ObjectRevision)
    (history : SourceRuns settingsRef status runs) :
    SourceRuns settingsRef (settingsSourceRun resourceVersion status found written).later.status
      (settingsSourceRun resourceVersion status found written :: runs) := by
  have returned := @Program.returns_run _ _ _ _ (transcribing settingsRef).rely
    (transcribing settingsRef).answers _ (fun _ => rfl)
      (settingsReplies_allowed found written noApis)
    (configMaps.reconcileSourceTallied (.new { settingsSync with status := status })
      (ResourceControllerImpl.withRevision settingsSource ⟨none, resourceVersion⟩))
    ⟨status, none, []⟩
  exact history.run configMaps
    (ResourceControllerImpl.withRevision settingsSource ⟨none, resourceVersion⟩) rfl rfl returned

/-- The run for the settings that creates the copy. -/
def settingsCreated : SourceRun :=
  settingsSourceRun (some "1") none (.error (.api 404 "not found")) (.ok ⟨some "u", some "1"⟩)

/-- A run after the settings were edited, whose write fails. -/
def settingsRefused : SourceRun :=
  settingsSourceRun (some "2") settingsCreated.later.status (.ok ⟨some "u", some "1"⟩)
    (.error (.api 403 "forbidden"))

/-- A run after the one that creates the copy, which finds it as it was written. -/
def settingsUnchanged : SourceRun :=
  settingsSourceRun (some "1") settingsCreated.later.status (.ok ⟨some "u", some "1"⟩)
    (.error (.api 403 "forbidden"))

/-- The run after the one that creates the copy finds everything in sync. -/
theorem settingsUnchanged_found : settingsUnchanged.FoundInSync := by
  intro cache member d expected
  have answers : ∃ reply, settingsUnchanged.later.answers =
      [⟨.namespaces, settingsNamespaces⟩,
        ⟨.api (.get ⟨configMaps.gvk, "team"⟩ "settings"), reply⟩] :=
    ⟨_, rfl⟩
  obtain ⟨reply, answers⟩ := answers
  rw [answers] at member
  rcases List.mem_pair.mp member with same | same
  · cases same
    have all : ∀ d ∈ (settingsUnchanged.controller.splitDestinations
        (ResourceControllerImpl.expectedDestinations settingsUnchanged.sync settingsNamespaces)
        settingsUnchanged.sync.destinationList).1,
        d.sourceVersion = some settingsUnchanged.source.metadata.revision ∧
          d.syncedVersion = some ⟨some "u", some "1"⟩ ∧
            settingsUnchanged.later.seen d.key = some ⟨some "u", some "1"⟩ := by decide +kernel
    obtain ⟨source, synced, seen⟩ := all d expected
    exact ⟨source, _, synced, seen⟩
  · cases same

/-- After the copy was created the condition is truthful, and after the run that leaves it alone. -/
theorem settingsUnchanged_truthful :
    settingsCreated.Truthful ∧ settingsUnchanged.Truthful ∧
      settingsUnchanged.later.wrote = false := by
  have history : SourceRuns settingsRef settingsUnchanged.later.status
      [settingsUnchanged, settingsCreated] :=
    sourceRuns_settingsSourceRun _ _ _ (sourceRuns_settingsSourceRun _ _ _ (.start none))
  have silent : settingsUnchanged.later.wrote = false := by decide +kernel
  have truthful := (inSync_truthful_iff history ?_).mpr ?_
  · exact ⟨truthful _ (List.mem_cons_of_mem _ (List.mem_singleton_self _)),
      truthful _ List.mem_cons_self, silent⟩
  · intro run member finished
    rcases List.mem_pair.mp member with rfl | rfl
    · decide +kernel
    · decide +kernel
  · intro run member finished unwritten _ stated former
    rcases List.mem_pair.mp member with rfl | rfl
    · have true_ : conditionStatus settingsUnchanged.sync.status inSync = some "True" := by
        decide +kernel
      exact iff_of_true (Option.some.inj (former.symm.trans true_)) settingsUnchanged_found
    · exact absurd unwritten (by decide +kernel)

/-- After the write failed, the condition still is true. -/
theorem settingsRefused_untruthful :
    ¬∀ (o : ObjectSyncRef) (status : Option ObjectSyncStatus) (runs : List SourceRun),
      SourceRuns o status runs → ∀ run ∈ runs, run.Truthful := by
  intro truthful
  have history : SourceRuns settingsRef settingsRefused.later.status
      [settingsRefused, settingsCreated] :=
    sourceRuns_settingsSourceRun _ _ _ (sourceRuns_settingsSourceRun _ _ _ (.start none))
  have finished : settingsRefused.result = .ok () := by decide +kernel
  have stated : conditionStatus settingsRefused.later.status inSync = some "True" := by
    decide +kernel
  obtain ⟨tally, counted, observed, -⟩ :=
    (truthful _ _ _ history settingsRefused List.mem_cons_self finished _ stated).mp rfl
  have tallied : settingsRefused.tally = some ⟨[], 1, 0⟩ := by decide +kernel
  rw [tallied] at counted
  rw [← Option.some.inj counted] at observed
  cases observed

end ObjectSyncer
