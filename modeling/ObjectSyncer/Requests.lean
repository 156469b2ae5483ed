import ObjectSyncer.SourceReconcile

/-!
# What the controller asks for

For each function of the controller, the requests that it may make and what is known of its value,
in any state and for all replies. Of a reply is only assumed that the API server returns the object
that was asked for and the status that was written.
-/
namespace ObjectSyncer

open Interaction Interaction.Program

/-- A reply is about the object of the request, and a status write returns the status written. -/
def Honest : (call : Call) → Reply call → Prop
  | .api (.get _ name), .ok object => object.metadata.nameAny = name
  | .api (.getSync sync), .ok object => ObjectSyncRef.ofSync object = ⟨sync⟩
  | .api (.getSyncStatus sync), .ok object => ObjectSyncRef.ofSync object = ⟨sync⟩
  | .api (.replaceSyncStatus sync body), .ok object =>
    ObjectSyncRef.ofSync object = ⟨sync⟩ ∧ object.status = body.status
  | .api (.jsonPatchSync sync _), .ok object => ObjectSyncRef.ofSync object = ⟨sync⟩
  | _, _ => True

section Calls

variable {World α : Type} {contract : Contract Call Reply World} {post : α → World → Prop}
  {world : World}

/-- The rule for a request to the API server. -/
theorem wp_api {request : ApiRequest}
    {next : Except KubeError (ApiValue request) → Async α} :
    (Async.api request >>= next).wp contract post world ↔
      ∀ moved, contract.rely world moved →
        ∀ reply after, contract.answers moved (.api request) reply after →
          contract.guarantee moved (.api request) reply after ∧
            (next reply).wp contract post after :=
  Iff.rfl

/-- The rule for reading the clock. -/
theorem wp_clock {next : String → Async α} :
    (Async.clock >>= next).wp contract post world ↔
      ∀ moved, contract.rely world moved →
        ∀ reply after, contract.answers moved .clock reply after →
          contract.guarantee moved .clock reply after ∧ (next reply).wp contract post after :=
  Iff.rfl

/-- The rule for reading the namespaces of the cache. -/
theorem wp_namespaces {next : List Namespace → Async α} :
    (Async.namespaces >>= next).wp contract post world ↔
      ∀ moved, contract.rely world moved →
        ∀ reply after, contract.answers moved .namespaces reply after →
          contract.guarantee moved .namespaces reply after ∧ (next reply).wp contract post after :=
  Iff.rfl

/-- The rule for an operation on the shared memory. -/
theorem wp_memory {op : MemoryOp} {next : MemoryReply op → Async α} :
    (Async.memory op >>= next).wp contract post world ↔
      ∀ moved, contract.rely world moved →
        ∀ reply after, contract.answers moved (.memory op) reply after →
          contract.guarantee moved (.memory op) reply after ∧ (next reply).wp contract post after :=
  Iff.rfl

end Calls

/-- The requests by which a destination is released and deleted. -/
inductive DestinationStatus.Removal (d : DestinationStatus) : ApiRequest → Prop
  | get : d.Removal (.get d.api d.name)
  | release (patch : List FinalizerOp) : d.Removal (.jsonPatch d.api d.name patch)
  | delete : d.Removal (.delete d.api d.name)

section Removal

variable {allowed : Call → Prop}

/-- Removing the finalizer patches the object that was read, and may fail. -/
theorem requests_removeFinalizer (api : DynamicApi) (source : DynamicObject) (finalizer : String)
    (ask : ∀ patch, allowed (.api (.jsonPatch api source.metadata.nameAny patch))) :
    (removeFinalizer api source finalizer).wp (.requests Honest allowed)
      (fun value _ => value.1.metadata.nameAny = source.metadata.nameAny) () := by
  unfold removeFinalizer
  dsimp only
  split
  · rw [wp_api]
    intro _ _ reply after _
    refine ⟨ask _, ?_⟩
    cases reply with
    | ok value => rfl
    | error e =>
      dsimp only
      split <;> rfl
  · rfl

/-- Adding the finalizer applies a minimal configuration of the object, and may fail. -/
theorem requests_addFinalizerIfMissing (api : DynamicApi) (source : DynamicObject)
    (finalizer : String)
    (ask : allowed (.api (.apply api (finalizerPatch source finalizer).metadata.nameAny
      (finalizerPatch source finalizer)))) :
    (addFinalizerIfMissing api source finalizer).wp (.requests Honest allowed) (fun _ _ => True)
      () := by
  unfold addFinalizerIfMissing
  split
  · trivial
  · dsimp only
    rw [wp_api]
    intro _ _ reply _ _
    refine ⟨ask, ?_⟩
    cases reply <;> trivial

/-- A deletion has come to its end: the object was asked to terminate, or does not exist. -/
def deletionSettled : Except KubeError Unit → Bool
  | .ok _ => true
  | .error e => e.isNotFound

section Loop

variable {World : Type} {contract : Contract Call Reply World}
  {invariant : List DestinationStatus → List DestinationStatus → World → Prop}
  {stopped : World → Prop}

/-- The loop rule of `delete_destinations` by its body. An invariant over what is returned so far
and the destinations that are yet to be handled survives each round, or the loop is stopped. -/
theorem wp_deleteDestinations_each {stopped : ControllerError → World → Prop}
    (round : ∀ failed d todo world, invariant failed (d :: todo) world →
      (removeDestination d).wp contract (fun result after =>
        (∀ errors, result = .ok errors → invariant (failed ++ errors) todo after) ∧
          ∀ e, result = .error e → stopped e after) world)
    (failed todo : List DestinationStatus) {world : World} (start : invariant failed todo world) :
    (deleteDestinations todo).wp contract (fun result after =>
      (∀ remaining, result = .ok remaining → invariant (failed ++ remaining) [] after) ∧
        ∀ e, result = .error e → stopped e after) world := by
  induction todo generalizing failed world with
  | nil =>
    refine ⟨?_, ?_⟩
    · rintro remaining ⟨⟩
      rwa [List.append_nil]
    · intro e same
      cases same
  | cons d rest ih =>
    rw [deleteDestinations_cons, wp_bind]
    refine wp_imp (fun result middle kept => ?_) (round failed d rest world start)
    cases result with
    | error e =>
      refine ⟨?_, fun e' same => kept.2 e' same⟩
      intro remaining same
      cases same
    | ok errors =>
      dsimp only
      rw [wp_bind]
      refine wp_imp (fun result after kept' => ?_) (ih (failed ++ errors) (kept.1 errors rfl))
      cases result with
      | error e =>
        refine ⟨?_, fun e' same => kept'.2 e' same⟩
        intro remaining same
        cases same
      | ok others =>
        refine ⟨?_, ?_⟩
        · rintro remaining ⟨⟩
          rw [← List.append_assoc]
          exact kept'.1 others rfl
        · intro e same
          cases same

/-- Both ways in which a destination is handled end by deleting it, which moves it out of those that
are yet to be deleted. -/
theorem wp_deleteDestination_loop
    (stable : ∀ failed todo world moved, invariant failed todo world →
      contract.rely world moved → invariant failed todo moved)
    (deleted : ∀ failed d todo world reply after, invariant failed (d :: todo) world →
      contract.answers world (.api (.delete d.api d.name)) reply after →
        contract.guarantee world (.api (.delete d.api d.name)) reply after ∧
          invariant (failed ++ if deletionSettled reply then [] else [d]) todo after)
    {failed todo : List DestinationStatus} {d : DestinationStatus} {world : World}
    (start : invariant failed (d :: todo) world) :
    (deleteDestination d >>= fun errors =>
      (pure (.ok errors) : Async (Except ControllerError _))).wp contract
      (fun result after =>
        (∀ errors, result = .ok errors → invariant (failed ++ errors) todo after) ∧
        ∀ e, result = .error e → stopped after) world := by
  have returned (errors : List DestinationStatus) (after : World)
      (left : invariant (failed ++ errors) todo after) :
      (∀ errors', (.ok errors : Except ControllerError _) = .ok errors' →
        invariant (failed ++ errors') todo after) ∧
          ∀ e : ControllerError, .ok errors = Except.error e → stopped after := by
    refine ⟨fun errors' same => Except.ok.inj same ▸ left, fun e same => ?_⟩
    cases same
  unfold deleteDestination
  rw [wp_bind, wp_api]
  intro moved moves reply after answered
  have stepped := deleted failed d todo moved reply after (stable _ _ _ _ start moves) answered
  refine ⟨stepped.1, ?_⟩
  cases reply with
  | ok value => exact returned [] after stepped.2
  | error e =>
    have left := stepped.2
    dsimp only
    by_cases missing : e.isNotFound = true
    · have settled : deletionSettled (.error e) = true := missing
      rw [if_pos settled] at left
      rw [if_pos missing]
      exact returned [] after left
    · have unsettled : ¬deletionSettled (.error e) = true := missing
      rw [if_neg unsettled] at left
      rw [if_neg missing]
      exact returned [d] after left

/-- The loop rule of `delete_destinations`. An invariant over the destinations whose deletion has
failed and those that are yet to be deleted survives what others do and the two requests that
release a destination; a deletion moves its destination out of the latter, and into the former
unless it is settled. A failed read stops the loop. -/
theorem wp_deleteDestinations_loop
    (honest : ∀ world call reply after, contract.answers world call reply after →
      Honest call reply)
    (stable : ∀ failed todo world moved, invariant failed todo world →
      contract.rely world moved → invariant failed todo moved)
    (released : ∀ failed d todo world request reply after, d.Removal request →
      (∀ api name, request ≠ .delete api name) → invariant failed (d :: todo) world →
        contract.answers world (.api request) reply after →
          contract.guarantee world (.api request) reply after ∧ invariant failed (d :: todo) after)
    (deleted : ∀ failed d todo world reply after, invariant failed (d :: todo) world →
      contract.answers world (.api (.delete d.api d.name)) reply after →
        contract.guarantee world (.api (.delete d.api d.name)) reply after ∧
          invariant (failed ++ if deletionSettled reply then [] else [d]) todo after)
    (stops : ∀ failed d todo world e after, invariant failed (d :: todo) world →
      contract.answers world (.api (.get d.api d.name)) (.error e) after → ¬e.isNotFound →
        stopped after)
    (failed todo : List DestinationStatus) {world : World} (start : invariant failed todo world) :
    (deleteDestinations todo).wp contract (fun result after =>
      (∀ e, result = .error e → stopped after) ∧
        ∀ remaining, result = .ok remaining → invariant (failed ++ remaining) [] after) world := by
  refine wp_imp (fun result after kept => ⟨kept.2, kept.1⟩)
    (@wp_deleteDestinations_each _ contract invariant (fun _ => stopped) ?_ failed todo world start)
  intro failed d todo world start
  unfold removeDestination
  rw [wp_api]
  intro moved moves reply middle answered
  have before := stable _ _ _ _ start moves
  have apart (request : ApiRequest) (reads : request = .get d.api d.name ∨
      ∃ patch, request = .jsonPatch d.api d.name patch) (api : DynamicApi) (name : String) :
      request ≠ .delete api name := by
    rcases reads with rfl | ⟨patch, rfl⟩ <;>
    · intro same
      cases same
  have stepped :=
    released failed d todo moved _ reply middle .get (apart _ (.inl rfl)) before answered
  refine ⟨stepped.1, ?_⟩
  cases reply with
  | ok destination =>
    have named : (ensureGvk destination d.api.resource).metadata.nameAny = d.name :=
      honest _ _ _ _ answered
    have shape := @requests_removeFinalizer
      (fun call => ∃ patch, call = .api (.jsonPatch d.api d.name patch)) d.api
      (ensureGvk destination d.api.resource) finalizer fun patch => ⟨patch, by rw [named]⟩
    dsimp only
    rw [wp_bind]
    refine wp_imp (fun _ after kept => wp_deleteDestination_loop stable deleted kept.2)
      (wp_requests shape honest (stable failed (d :: todo)) ?_ stepped.2)
    intro world call reply after kept patches answered
    obtain ⟨patch, rfl⟩ := patches
    exact released failed d todo world _ reply after (.release patch) (apart _ (.inr ⟨patch, rfl⟩))
      kept answered
  | error e =>
    dsimp only
    split
    · exact wp_deleteDestination_loop stable deleted stepped.2
    · rename_i present
      refine ⟨fun errors same => ?_, fun _ _ => stops failed d todo moved e middle before answered
        present⟩
      cases same

end Loop

/-- The remainder of a deletion is a sublist of the destinations. -/
theorem requests_deleteDestinations (destinations : List DestinationStatus)
    (ask : ∀ d ∈ destinations, ∀ request, d.Removal request → allowed (.api request)) :
    (deleteDestinations destinations).wp (.requests Honest allowed)
      (fun result _ => ∀ remaining, result = .ok remaining → remaining.Sublist destinations)
      () := by
  refine wp_imp ?_ (@wp_deleteDestinations_loop _ _
    (fun failed todo _ => (∃ done, destinations = done ++ todo ∧ failed.Sublist done) ∧
      ∀ d ∈ todo, d ∈ destinations) (fun _ => True) (fun _ _ _ _ => id)
      (fun _ _ _ _ kept _ => kept) ?_ ?_ (fun _ _ _ _ _ _ _ _ _ => trivial) [] destinations ()
      ⟨⟨[], rfl, .slnil⟩, fun _ => id⟩)
  · intro result _ kept remaining finished
    obtain ⟨⟨done, same, fewer⟩, -⟩ := kept.2 remaining finished
    rw [same, List.append_nil]
    exact fewer
  · intro failed d todo _ request reply _ removal _ kept _
    exact ⟨ask d (kept.2 d List.mem_cons_self) request removal, kept⟩
  · rintro failed d todo _ reply _ ⟨⟨done, same, fewer⟩, listed⟩ _
    refine ⟨ask d (listed d List.mem_cons_self) _ .delete, ⟨done ++ [d], ?_, ?_⟩,
      fun other member => listed other (List.mem_cons_of_mem _ member)⟩
    · rw [same, List.append_assoc, List.singleton_append]
    · refine fewer.append ?_
      split
      · exact List.nil_sublist _
      · exact List.Sublist.refl _

end Removal

/-- The requests by which a destination is created or updated. -/
inductive Upsert (api : DynamicApi) (name : String) : ApiRequest → Prop
  | get : Upsert api name (.get api name)
  | release (patch : List FinalizerOp) : Upsert api name (.jsonPatch api name patch)
  | create {body : DynamicObject} (named : body.metadata.nameAny = name) :
      Upsert api name (.create api body)
  | replace (body : DynamicObject) : Upsert api name (.replace api name body)
  | apply (body : DynamicObject) : Upsert api name (.apply api name body)

namespace ResourceControllerImpl

section Upsert

variable {allowed : Call → Prop} {api : DynamicApi} {srcVersion : ObjectRevision}
  {d : DestinationStatus} {state : UpsertState}

/-- What is known after the requests for a destination: its entry still designates it, and the
template still carries its name. -/
def Kept (d : DestinationStatus) (d' : DestinationStatus) (state : UpsertState) : Prop :=
  d'.target = d.target ∧ state.template.metadata.nameAny = d.name

/-- Updating writes the object of the destination. -/
theorem requests_updateExisting {current : DynamicObject}
    (ask : ∀ request, Upsert api d.name request → allowed (.api request))
    (named : state.template.metadata.nameAny = d.name) :
    (updateExisting api srcVersion current d state).wp (.requests Honest allowed)
      (fun value _ => Kept d value.1 value.2.1) () := by
  unfold updateExisting
  dsimp only
  split
  · cases d.effectiveStrategy <;> dsimp only <;> rw [wp_api] <;> intro _ _ reply after _
    · refine ⟨ask _ (.apply _), ?_⟩
      cases reply with
      | ok updated => exact ⟨rfl, named⟩
      | error e =>
        dsimp only
        split <;> exact ⟨rfl, named⟩
    · refine ⟨ask _ (.replace _), ?_⟩
      cases reply with
      | ok updated => exact ⟨rfl, named⟩
      | error e =>
        dsimp only
        split <;> exact ⟨rfl, named⟩
  · exact ⟨rfl, named⟩

/-- Creating makes an object of the name of the destination. -/
theorem requests_createMissing
    (ask : ∀ request, Upsert api d.name request → allowed (.api request))
    (named : state.template.metadata.nameAny = d.name) :
    (createMissing api srcVersion d state).wp (.requests Honest allowed)
      (fun value _ => Kept d value.1 value.2.1) () := by
  unfold createMissing
  rw [wp_api]
  intro _ _ reply after _
  refine ⟨ask _ (.create named), ?_⟩
  cases reply with
  | ok created => exact ⟨rfl, named⟩
  | error e =>
    dsimp only
    split <;> exact ⟨rfl, named⟩

/-- An attempt asks for nothing but its destination. -/
theorem requests_upsertAttempt
    (ask : ∀ request, Upsert api d.name request → allowed (.api request))
    (named : state.template.metadata.nameAny = d.name) :
    (upsertAttempt api srcVersion d state).wp (.requests Honest allowed)
      (fun value _ => Kept d value.1 value.2.1) () := by
  unfold upsertAttempt
  dsimp only
  rw [wp_api]
  intro _ _ reply after answered
  refine ⟨ask _ .get, ?_⟩
  cases reply with
  | ok current =>
    dsimp only
    split
    · rw [wp_bind]
      have found : current.metadata.nameAny = d.name := answered
      refine wp_imp (fun value _ _ => ?_)
        (requests_removeFinalizer api current finalizer fun patch => found ▸ ask _ (.release patch))
      split
      · exact ⟨rfl, named⟩
      · exact requests_updateExisting ask named
    · exact requests_updateExisting ask named
  | error e =>
    dsimp only
    split
    · exact requests_createMissing ask named
    · exact ⟨rfl, named⟩

/-- All attempts together ask for nothing but their destination. -/
theorem requests_upsertLoop (attempts : Nat)
    (ask : ∀ request, Upsert api d.name request → allowed (.api request))
    (named : state.template.metadata.nameAny = d.name) :
    (upsertLoop api srcVersion attempts d state).wp (.requests Honest allowed)
      (fun value _ => value.1.target = d.target) () := by
  induction attempts generalizing d state with
  | zero => rfl
  | succ attempts ih =>
    rw [upsertLoop, wp_bind]
    refine wp_imp ?_ (requests_upsertAttempt ask named)
    rintro ⟨d', state', flow⟩ _ ⟨same, named'⟩
    have name : d'.name = d.name := congrArg (·.name) same
    cases flow with
    | continue_ =>
      refine wp_imp (fun value _ kept => kept.trans same) (ih ?_ (named'.trans name.symm))
      rw [name]
      exact ask
    | break_ => exact same

/-- The loop rule of `upsert_destinations`. An invariant over the entries that were handled, those
that are yet to be handled and the variables of the loop survives that a remnant is skipped, and
that the attempts for any other destination are made. -/
theorem wp_upsertEach_loop {World : Type} {contract : Contract Call Reply World}
    {invariant : List DestinationStatus → List DestinationStatus → UpsertState → World → Prop}
    (self : ResourceControllerImpl) (staleRemnants : List DestinationStatus)
    (skips : ∀ handled d todo state world, isRemnant staleRemnants d = true →
      invariant handled (d :: todo) state world → invariant (handled ++ [d]) todo state world)
    (attempts : ∀ handled d todo state world, isRemnant staleRemnants d = false →
      invariant handled (d :: todo) state world →
        (upsertLoop (self.namespacedApi d.namespace_) srcVersion 3 d
          { state with template := fitTemplate state.template d }).wp contract
          (fun value after => invariant (handled ++ [value.1]) todo value.2 after) world)
    (handled destinations : List DestinationStatus) (state : UpsertState) (world : World)
    (start : invariant handled destinations state world) :
    (self.upsertEach srcVersion staleRemnants destinations state).wp contract
      (fun value after => invariant (handled ++ value.1) [] value.2 after) world := by
  induction destinations generalizing handled state world with
  | nil =>
    rw [← List.append_nil handled] at start
    exact start
  | cons d rest ih =>
    rw [upsertEach]
    by_cases remnant : isRemnant staleRemnants d = true
    · rw [if_pos remnant, wp_bind]
      refine wp_imp ?_ (ih (handled ++ [d]) state world (skips _ _ _ _ _ remnant start))
      intro value after kept
      rw [List.append_assoc] at kept
      exact kept
    · rw [if_neg remnant, wp_bind]
      refine wp_imp ?_ (attempts _ _ _ _ _ (Bool.not_eq_true _ ▸ remnant) start)
      intro value middle kept
      rw [wp_bind]
      refine wp_imp ?_ (ih (handled ++ [value.1]) value.2 middle kept)
      intro value' after kept'
      rw [List.append_assoc] at kept'
      exact kept'

/-- The loop over the destinations asks for those that are no remnants, and their entries keep
their targets. -/
theorem requests_upsertEach (self : ResourceControllerImpl)
    (staleRemnants destinations : List DestinationStatus)
    (ask : ∀ d ∈ destinations, isRemnant staleRemnants d = false → ∀ request,
      Upsert (self.namespacedApi d.namespace_) d.name request → allowed (.api request)) :
    (self.upsertEach srcVersion staleRemnants destinations state).wp (.requests Honest allowed)
      (fun value _ => value.1.map (·.target) = destinations.map (·.target)) () := by
  induction destinations generalizing state with
  | nil => rfl
  | cons d rest ih =>
    have further := fun state' => @ih state' fun other member =>
      ask other (List.mem_cons_of_mem _ member)
    rw [upsertEach]
    split
    · rw [wp_bind]
      refine wp_imp (fun value _ same => ?_) (further _)
      exact congrArg (d.target :: ·) same
    · rename_i other
      rw [wp_bind]
      refine wp_imp (fun value _ kept => ?_)
        (requests_upsertLoop 3 (ask d List.mem_cons_self (Bool.not_eq_true _ ▸ other)) rfl)
      rw [wp_bind]
      refine wp_imp (fun value' _ same => ?_) (further _)
      simp only [pure_eq, wp_done, List.map_cons, kept, same]

/-- `upsert_destinations` asks for the destinations that are no remnants, and their entries keep
their targets. -/
theorem requests_upsertDestinations (self : ResourceControllerImpl) (source : DynamicObject)
    (destinations staleRemnants : List DestinationStatus)
    (ask : ∀ d ∈ destinations, isRemnant staleRemnants d = false → ∀ request,
      Upsert (self.namespacedApi d.namespace_) d.name request → allowed (.api request)) :
    (self.upsertDestinations source destinations staleRemnants).wp (.requests Honest allowed)
      (fun value _ => value.1.map (·.target) = destinations.map (·.target)) () := by
  unfold upsertDestinations
  dsimp only
  rw [wp_bind]
  exact wp_imp (fun _ _ same => same) (self.requests_upsertEach staleRemnants destinations ask)

end Upsert

end ResourceControllerImpl

namespace ObjectSyncModifications

/-- The requests by which the status is read and written. -/
inductive StatusWrite (self : ObjectSyncModifications) : ApiRequest → Prop
  | read : self.StatusWrite (.getSyncStatus self.address)
  | write {body : ObjectSync} (status : body.status = self.modified.status) :
      self.StatusWrite (.replaceSyncStatus self.address body)

/-- Writing the status leaves the modified object with the status to be written, at its address. -/
theorem requests_replaceStatus {allowed : Call → Prop} (self : ObjectSyncModifications)
    (ask : ∀ request, self.StatusWrite request → allowed (.api request)) :
    self.replaceStatus.wp (.requests Honest allowed)
      (fun value _ => value.1.modified.status = self.modified.status ∧
        value.1.address = self.address) () := by
  unfold replaceStatus
  split
  · unfold latest
    rw [wp_api]
    intro _ _ reply _ _
    refine ⟨ask _ .read, ?_⟩
    cases reply with
    | error e => exact ⟨rfl, rfl⟩
    | ok latest =>
      dsimp only
      rw [wp_bind]
      unfold replaceStatusWith
      dsimp only
      rw [wp_api]
      intro _ _ reply after answered
      refine ⟨ask _ (.write rfl), ?_⟩
      cases reply with
      | error e => exact ⟨rfl, rfl⟩
      | ok written => exact ⟨answered.2, congrArg ObjectSyncRef.name answered.1⟩
  · exact ⟨rfl, rfl⟩

/-- Updating a condition reads the clock. -/
theorem requests_updateCondition {allowed : Call → Prop} (self : ObjectSyncModifications)
    (condition : Condition) (ask : allowed .clock) :
    (self.updateCondition condition).wp (.requests Honest allowed)
      (fun value _ => value.modified.destinationList = self.modified.destinationList ∧
        value.address = self.address) () := by
  unfold updateCondition
  rw [wp_clock]
  intro _ _ time _ _
  exact ⟨ask, ObjectSync.updateCondition_destinationList .., rfl⟩

end ObjectSyncModifications

/-- Steps 3 and 4 of `reconcile_source` ask for the tracked destinations that are no remnants, and
write the status. -/
theorem ResourceControllerImpl.requests_syncDestinations {allowed : Call → Prop}
    (self : ResourceControllerImpl) (event : ObjectSyncModifications) (source : DynamicObject)
    (staleRemnants : List DestinationStatus) (removedCount : Nat)
    (upserts : ∀ d ∈ event.modified.destinationList, isRemnant staleRemnants d = false →
      ∀ request, Upsert (self.namespacedApi d.namespace_) d.name request →
        allowed (.api request))
    (clock : allowed .clock)
    (writes : ∀ event' : ObjectSyncModifications, event'.address = event.address → ∀ request,
      event'.StatusWrite request → allowed (.api request)) :
    (self.syncDestinations event source staleRemnants removedCount).wp (.requests Honest allowed)
      (fun _ _ => True) () := by
  unfold syncDestinations
  cases tracked : event.modified.statusDestinations with
  | none => trivial
  | some destinations =>
    have listed : event.modified.destinationList = destinations :=
      ObjectSync.destinationList_of_tracked tracked
    rw [listed] at upserts
    dsimp only
    rw [wp_bind]
    refine wp_imp (fun value _ _ => ?_)
      (self.requests_upsertDestinations source destinations staleRemnants upserts)
    split
    · rw [wp_bind]
      refine wp_imp (fun event' _ kept => ?_)
        (ObjectSyncModifications.requests_updateCondition _ _ clock)
      exact wp_imp (fun _ _ _ => trivial) (event'.requests_replaceStatus (writes event' kept.2))
    · trivial

/-- `delete_destinations` of an ObjectSync asks for the removal of its tracked destinations, and
writes the status at its address. -/
theorem ObjectSyncController.requests_deleteDestinations {allowed : Call → Prop}
    (event : ObjectSyncModifications)
    (removals : ∀ d ∈ event.modified.destinationList, ∀ request, d.Removal request →
      allowed (.api request))
    (clock : allowed .clock)
    (writes : ∀ event' : ObjectSyncModifications, event'.address = event.address → ∀ request,
      event'.StatusWrite request → allowed (.api request)) :
    (deleteDestinations event).wp (.requests Honest allowed)
      (fun value _ => value.1.address = event.address) () := by
  unfold deleteDestinations
  cases tracked : event.modified.statusDestinations with
  | none => rfl
  | some destinations =>
    have listed : event.modified.destinationList = destinations :=
      ObjectSync.destinationList_of_tracked tracked
    rw [listed] at removals
    dsimp only
    rw [wp_bind]
    refine wp_imp (fun result _ _ => ?_)
      (ObjectSyncer.requests_deleteDestinations destinations removals)
    cases result with
    | error e => rfl
    | ok remaining =>
      dsimp only
      rw [wp_bind]
      refine wp_imp (fun event' _ kept => ?_)
        (ObjectSyncModifications.requests_updateCondition _ _ clock)
      rw [wp_bind]
      refine wp_imp (fun value _ written => ?_)
        ((event'.updateDestinations remaining).requests_replaceStatus (writes _ kept.2))
      obtain ⟨event'', result⟩ := value
      have address : event''.address = event.address := written.2.trans kept.2
      cases result with
      | error e => exact address
      | ok =>
        dsimp only
        split <;> exact address

/-- Moving to the controller of the current kind asks for what deleting the destinations asks for.
-/
theorem ObjectSyncController.requests_moveSource {allowed : Call → Prop}
    (event : ObjectSyncModifications) (currentGvk : GroupVersionKind)
    (memory : ∀ op, allowed (.memory op))
    (removals : ∀ d ∈ event.modified.destinationList, ∀ request, d.Removal request →
      allowed (.api request))
    (clock : allowed .clock)
    (writes : ∀ event' : ObjectSyncModifications, event'.address = event.address → ∀ request,
      event'.StatusWrite request → allowed (.api request)) :
    (moveSource event currentGvk).wp (.requests Honest allowed) (fun _ _ => True) () := by
  unfold moveSource remove
  rw [wp_memory]
  intro _ _ removed _ _
  refine ⟨memory _, ?_⟩
  rw [wp_bind]
  refine wp_imp (fun value _ _ => ?_) (requests_deleteDestinations event removals clock writes)
  obtain ⟨event', result⟩ := value
  cases result with
  | error e => trivial
  | ok =>
    exact fun _ _ _ _ _ => ⟨memory _, fun _ _ _ _ _ => ⟨memory _, fun _ _ _ _ _ =>
      ⟨memory _, trivial⟩⟩⟩

/-- `reconcile_source` asks for the removal of destinations, creates and updates others, and writes
the status. -/
theorem ResourceControllerImpl.requests_reconcileSource {allowed : Call → Prop}
    (self : ResourceControllerImpl) (event : ObjectSyncModifications) (source : DynamicObject)
    (namespaces : allowed .namespaces) (clock : allowed .clock)
    (removals : ∀ (d : DestinationStatus) request, d.Removal request → allowed (.api request))
    (upserts : ∀ api name request, Upsert api name request → allowed (.api request))
    (writes : ∀ event' : ObjectSyncModifications, event'.address = event.address → ∀ request,
      event'.StatusWrite request → allowed (.api request)) :
    (self.reconcileSource event source).wp (.requests Honest allowed) (fun _ _ => True) () := by
  unfold reconcileSource
  rw [wp_namespaces]
  intro _ _ cache _ _
  refine ⟨namespaces, ?_⟩
  dsimp only
  rw [wp_bind]
  refine wp_imp (fun result _ _ => ?_)
    (ObjectSyncer.requests_deleteDestinations _ fun d _ request => removals d request)
  cases result with
  | error e => trivial
  | ok staleRemnants =>
    dsimp only
    rw [wp_bind]
    refine wp_imp (fun value _ written => ?_)
      (ObjectSyncModifications.requests_replaceStatus _ (writes _ rfl))
    obtain ⟨event', result⟩ := value
    cases result with
    | error e => trivial
    | ok =>
      exact self.requests_syncDestinations event' source staleRemnants _
        (fun d _ _ => upserts _ _) clock fun other same => writes other (same.trans written.2)

/-- Patching an ObjectSync reads it first. -/
theorem ObjectSyncModifications.requests_patchSpec {allowed : Call → Prop}
    (self : ObjectSyncModifications) (read : allowed (.api (.getSync self.address)))
    (write : ∀ patch, allowed (.api (.jsonPatchSync self.address patch))) :
    self.patchSpec.wp (.requests Honest allowed) (fun _ _ => True) () := by
  unfold patchSpec
  split
  · unfold patchSpecNow
    rw [wp_api]
    intro _ _ reply _ _
    refine ⟨read, ?_⟩
    cases reply with
    | error e => trivial
    | ok latest =>
      dsimp only
      split
      · trivial
      · rw [wp_api]
        intro _ _ reply _ _
        refine ⟨write _, ?_⟩
        cases reply <;> trivial
  · trivial

namespace ObjectSyncController

/-- Removing the finalizer of an ObjectSync reads and patches it. -/
theorem requests_removeFinalizer {allowed : Call → Prop} (event : ObjectSyncModifications)
    (read : allowed (.api (.getSync event.address)))
    (write : ∀ patch, allowed (.api (.jsonPatchSync event.address patch))) :
    (removeFinalizer event).wp (.requests Honest allowed) (fun _ _ => True) () := by
  unfold removeFinalizer
  dsimp only
  split
  · rw [wp_bind]
    exact wp_imp (fun _ _ _ => trivial)
      (ObjectSyncModifications.requests_patchSpec _ read write)
  · trivial

/-- The kind of a source is discovered. -/
theorem requests_getGvk {allowed : Call → Prop} (source : SourceObject)
    (discover : allowed (.api (.discoverGroup source.group))) :
    (getGvk source).wp (.requests Honest allowed) (fun _ _ => True) () := by
  unfold getGvk
  rw [wp_api]
  intro _ _ reply _ _
  refine ⟨discover, ?_⟩
  cases reply with
  | ok apigroup => trivial
  | error e => cases e <;> trivial

/-- Releasing the source discovers its kind, reads it and patches it. -/
theorem requests_releaseSource {allowed : Call → Prop} (event : ObjectSyncModifications)
    (discover : allowed (.api (.discoverGroup event.modified.spec.source.group)))
    (read : ∀ gvk, allowed (.api (.get ⟨gvk, event.modified.sourceNamespace.getD ""⟩
      event.modified.sourceName)))
    (write : ∀ gvk patch, allowed (.api (.jsonPatch ⟨gvk, event.modified.sourceNamespace.getD ""⟩
      event.modified.sourceName patch))) :
    (releaseSource event).wp (.requests Honest allowed) (fun _ _ => True) () := by
  unfold releaseSource
  rw [wp_bind]
  refine wp_imp (fun result _ _ => ?_) (requests_getGvk _ discover)
  split
  · rename_i gvk
    dsimp only
    rw [wp_api]
    intro _ _ reply _ answered
    refine ⟨read gvk, ?_⟩
    cases reply with
    | ok source =>
      have named : (ensureGvk source gvk).metadata.nameAny = event.modified.sourceName := answered
      dsimp only
      rw [wp_bind]
      exact wp_imp (fun _ _ _ => trivial)
        (ObjectSyncer.requests_removeFinalizer _ _ _ fun patch => named ▸ write gvk patch)
    | error e =>
      dsimp only
      split <;> trivial
  · trivial
  · trivial

end ObjectSyncController

namespace ResourceControllerImpl

/-- An ObjectSync that is fetched was asked for and refers to the source, and all that the replies
say of it is known. -/
theorem wp_fetchObjectSyncs {replies : (call : Call) → Reply call → Prop} {allowed : Call → Prop}
    {known : ObjectSyncRef → ObjectSync → Prop}
    (learns : ∀ r (sync : ObjectSync), replies (.api (.getSync r.name)) (.ok sync) → known r sync)
    (sourceRef : SourceRef) (refs : List ObjectSyncRef)
    (ask : ∀ r ∈ refs, allowed (.api (.getSync r.name))) :
    (fetchObjectSyncs sourceRef refs).wp (.requests replies allowed)
      (fun objs _ => ∀ rs ∈ objs, ∃ r ∈ refs, ∃ sync, rs = .new sync ∧
        SourceRef.ofSync sync = sourceRef ∧ known r sync) () := by
  induction refs with
  | nil => exact fun rs member => absurd member List.not_mem_nil
  | cons r refs ih =>
    have further := ih fun other member => ask other (List.mem_cons_of_mem _ member)
    have later {objs : List ObjectSyncModifications}
        (listed : ∀ rs ∈ objs, ∃ r' ∈ refs, ∃ sync, rs = .new sync ∧
          SourceRef.ofSync sync = sourceRef ∧ known r' sync) :
        ∀ rs ∈ objs, ∃ r' ∈ r :: refs, ∃ sync, rs = .new sync ∧
          SourceRef.ofSync sync = sourceRef ∧ known r' sync := by
      intro rs member
      obtain ⟨r', asked, rest⟩ := listed rs member
      exact ⟨r', List.mem_cons_of_mem _ asked, rest⟩
    have skipped : (fetchObjectSyncs sourceRef refs).wp (.requests replies allowed)
        (fun objs _ => ∀ rs ∈ objs, ∃ r' ∈ r :: refs, ∃ sync, rs = .new sync ∧
          SourceRef.ofSync sync = sourceRef ∧ known r' sync) () :=
      wp_imp (fun _ _ => later) further
    unfold fetchObjectSyncs getObjectSync
    rw [wp_bind, wp_api]
    intro _ _ reply _ answered
    refine ⟨ask r List.mem_cons_self, ?_⟩
    cases reply with
    | error e => exact skipped
    | ok object =>
      have learnt : known r object := learns r object answered
      dsimp only
      rw [pure_eq, wp_done]
      dsimp only
      by_cases current : SourceRef.ofSync (ObjectSyncModifications.new object).modified = sourceRef
      · rw [if_pos current, wp_bind]
        refine wp_imp (fun objs _ listed rs member => ?_) further
        rcases List.mem_cons.mp member with rfl | member
        · exact ⟨r, List.mem_cons_self, object, rfl, current, learnt⟩
        · exact later listed rs member
      · rw [if_neg current]
        exact skipped

/-- Only registered ObjectSyncs are fetched. -/
theorem requests_fetchObjectSyncs {allowed : Call → Prop}
    (sourceRef : SourceRef) (refs : List ObjectSyncRef)
    (ask : ∀ r ∈ refs, allowed (.api (.getSync r.name))) :
    (fetchObjectSyncs sourceRef refs).wp (.requests Honest allowed)
      (fun objs _ => ∀ rs ∈ objs, rs.id ∈ refs) () := by
  refine wp_imp (fun objs _ listed rs member => ?_)
    (@wp_fetchObjectSyncs Honest allowed (fun r sync => ObjectSyncRef.ofSync sync = r)
      (fun _ _ honest => honest) sourceRef refs ask)
  obtain ⟨r, asked, sync, rfl, -, same⟩ := listed rs member
  have identity : (ObjectSyncModifications.new sync).id = r := same
  rw [identity]
  exact asked

section Loops

variable {World : Type}
  {contract : Contract (Option ObjectSyncRef × Call) (fun call => Reply call.2) World}
  {invariant : World → Prop} {world : World}

/-- What the deletion for each ObjectSync keeps, all of them keep. -/
theorem wp_deleteAll {objs : List ObjectSyncModifications}
    (each : ∀ rs ∈ objs, ∀ world, invariant world →
      ((sourceDeleted rs).label (some rs.id)).wp contract (fun _ => invariant) world)
    (start : invariant world) :
    (deleteAll objs).wp contract (fun _ => invariant) world := by
  induction objs generalizing world with
  | nil => exact start
  | cons rs rest ih =>
    have further := fun world => @ih world fun other member =>
      each other (List.mem_cons_of_mem _ member)
    unfold deleteAll
    rw [wp_bind]
    refine wp_imp (fun _ after kept => ?_) (each rs List.mem_cons_self world start)
    rw [wp_bind]
    exact wp_imp (fun _ _ => id) (further after kept)

/-- What the synchronization for each ObjectSync keeps, all of them keep. -/
theorem wp_reconcileAll {self : ResourceControllerImpl} {source : DynamicObject}
    {objs : List ObjectSyncModifications}
    (each : ∀ rs ∈ objs, ∀ world, invariant world →
      ((self.reconcileSource rs source).label (some rs.id)).wp contract (fun _ => invariant) world)
    (start : invariant world) :
    (self.reconcileAll source objs).wp contract (fun _ => invariant) world := by
  induction objs generalizing world with
  | nil => exact start
  | cons rs rest ih =>
    have further := fun world => @ih world fun other member =>
      each other (List.mem_cons_of_mem _ member)
    unfold reconcileAll
    rw [wp_bind]
    exact wp_imp (fun _ after kept => further after kept) (each rs List.mem_cons_self world start)

end Loops

end ResourceControllerImpl

/-- A call that leaves the shared memory alone. -/
def Outside : Call → Prop
  | .memory _ => False
  | _ => True

namespace ObjectSyncModifications

/-- The modified object is an ObjectSync of some identity, and requests address it. -/
structure Of (event : ObjectSyncModifications) (id : ObjectSyncRef) : Prop where
  identity : event.id = id
  addressed : event.address = id.name

variable {self : ObjectSyncModifications} {id : ObjectSyncRef}

/-- A run starts with an ObjectSync of its own identity. -/
theorem of_new {sync : ObjectSync} (same : ObjectSyncRef.ofSync sync = id) : (new sync).Of id :=
  ⟨same, congrArg ObjectSyncRef.name same⟩

/-- What leaves the name and the namespace leaves the identity. -/
theorem Of.modify (of : self.Of id) {change : ObjectSync → ObjectSync}
    (name : (change self.modified).metadata.nameAny = self.modified.metadata.nameAny)
    (namespace_ : (change self.modified).metadata.namespace_ = self.modified.metadata.namespace_) :
    (self.modify change).Of id := by
  constructor
  · rw [← of.identity]
    simp only [ObjectSyncModifications.id, ObjectSyncRef.ofSync,
      ObjectSyncModifications.modify, name,
      namespace_]
  · rw [← of.addressed]
    simp only [ObjectSyncModifications.address, ObjectSyncModifications.modify, name]

/-- Writing the status keeps the identity. -/
theorem Of.replaceStatus (of : self.Of id) :
    self.replaceStatus.wp (.requests Honest Outside) (fun value _ => value.1.Of id) () := by
  unfold ObjectSyncModifications.replaceStatus
  split
  · unfold latest
    rw [wp_api]
    intro _ _ reply _ _
    refine ⟨trivial, ?_⟩
    cases reply with
    | error e => exact of
    | ok latest =>
      dsimp only
      rw [wp_bind]
      unfold replaceStatusWith
      dsimp only
      rw [wp_api]
      intro _ _ reply after answered
      refine ⟨trivial, ?_⟩
      cases reply with
      | error e => exact @Of.modify self id of (·.withResourceVersion _) rfl rfl
      | ok written =>
        have same : ObjectSyncRef.ofSync written = ⟨self.address⟩ := answered.1
        exact of_new (same.trans (congrArg ObjectSyncRef.mk of.addressed))
  · exact of

/-- Patching an ObjectSync keeps the identity of the working copy. -/
theorem Of.patchSpec (of : self.Of id) :
    self.patchSpec.wp (.requests Honest Outside) (fun value _ => value.1.Of id) () := by
  unfold ObjectSyncModifications.patchSpec
  split
  · unfold patchSpecNow
    rw [wp_api]
    intro _ _ reply _ _
    refine ⟨trivial, ?_⟩
    cases reply with
    | error e => exact of
    | ok latest =>
      dsimp only
      split
      · exact of
      · rw [wp_api]
        intro _ _ reply _ answered
        refine ⟨trivial, ?_⟩
        cases reply with
        | error e => exact of
        | ok written =>
          have same : ObjectSyncRef.ofSync written = ⟨self.address⟩ := answered
          exact of_new (same.trans (congrArg ObjectSyncRef.mk of.addressed))
  · exact of

/-- Updating a condition keeps the identity. -/
theorem Of.updateCondition (of : self.Of id) (condition : Condition) :
    (self.updateCondition condition).wp (.requests Honest Outside) (fun value _ => value.Of id)
      () := by
  unfold ObjectSyncModifications.updateCondition
  rw [wp_clock]
  intro _ _ time _ _
  exact ⟨trivial, of.modify rfl rfl⟩

end ObjectSyncModifications

namespace ObjectSyncController

variable {event : ObjectSyncModifications} {id : ObjectSyncRef}

/-- Removing the destinations keeps the identity. -/
theorem of_deleteDestinations (of : event.Of id) :
    (deleteDestinations event).wp (.requests Honest Outside) (fun value _ => value.1.Of id) () := by
  unfold deleteDestinations
  cases event.modified.statusDestinations with
  | none => exact of
  | some destinations =>
    dsimp only
    rw [wp_bind]
    refine wp_imp (fun result _ _ => ?_)
      (@ObjectSyncer.requests_deleteDestinations Outside destinations fun _ _ _ _ => trivial)
    cases result with
    | error e => exact of
    | ok remaining =>
      dsimp only
      rw [wp_bind]
      refine wp_imp (fun event _ of => ?_) (of.updateCondition _)
      rw [wp_bind]
      have of' : (event.updateDestinations remaining).Of id := of.modify rfl rfl
      refine wp_imp (fun value _ of => ?_) of'.replaceStatus
      obtain ⟨event', result⟩ := value
      cases result with
      | error e => exact of
      | ok =>
        dsimp only
        split <;> exact of

/-- Adding the finalizer keeps the identity. -/
theorem of_addFinalizerIfMissing (of : event.Of id) :
    (addFinalizerIfMissing event).wp (.requests Honest Outside) (fun value _ => value.1.Of id)
      () := by
  unfold addFinalizerIfMissing
  dsimp only
  have set (finalizers : List String) : (setFinalizers event finalizers).Of id :=
    of.modify rfl rfl
  split
  · exact set _
  · rw [wp_bind]
    exact wp_imp (fun _ _ of => of) (set _).patchSpec

/-- Removing the finalizer keeps the identity. -/
theorem of_removeFinalizer (of : event.Of id) :
    (removeFinalizer event).wp (.requests Honest Outside) (fun value _ => value.1.Of id) () := by
  unfold removeFinalizer
  dsimp only
  have of' : (setFinalizers event (event.modified.metadata.finalizerList.filter
    (· != finalizer))).Of id := of.modify rfl rfl
  split
  · rw [wp_bind]
    exact wp_imp (fun _ _ of => of) of'.patchSpec
  · exact of'

/-- Publishing a condition keeps the identity. -/
theorem of_publish (of : event.Of id) (condition : Condition) :
    (publish event condition).wp (.requests Honest Outside) (fun value _ => value.1.Of id) () := by
  unfold publish
  rw [wp_bind]
  exact wp_imp (fun _ _ of => of.replaceStatus) (of.updateCondition condition)

end ObjectSyncController

end ObjectSyncer
