import ObjectSyncer.Sparing
import ObjectSyncer.Teardown

/-!
# Removing destinations

A destination is read, released and deleted by three requests, of which each may fail on its own.
The callers of `delete_destinations` go on tracking what it returns, and forget the others.
-/
namespace ObjectSyncer

open Interaction Interaction.Program

section Requests

variable {maker : Option ObjectSyncRef} {server after : Server} {api : DynamicApi} {name : String}

/-- Reading changes nothing, and tells what is there. -/
theorem Faulty.got {reply : Except KubeError (ApiValue (.get api name))}
    (faulty : Faulty maker server (.get api name) reply after) : after = server ∧
      (∀ object, reply = .ok object → ∃ stored, server.objects (api.key name) = some stored ∧
        stored.object = object) ∧
      (∀ e, reply = .error e → e.isNotFound → server.objects (api.key name) = none) := by
  have once (reply' : Except KubeError DynamicObject)
      (served : Served maker server (.get api name) reply' after) : after = server ∧
        (∀ object, reply' = .ok object → ∃ stored, server.objects (api.key name) = some stored ∧
          stored.object = object) ∧
        (∀ e, reply' = .error e → server.objects (api.key name) = none) := by
    obtain ⟨choice, eq⟩ := served
    simp only [Server.serve] at eq
    split at eq
    · rename_i missing
      obtain ⟨rfl, rfl⟩ := Prod.mk.inj eq
      refine ⟨rfl, ?_, fun _ _ => missing⟩
      intro object same
      cases same
    · rename_i stored found
      obtain ⟨rfl, rfl⟩ := Prod.mk.inj eq
      refine ⟨rfl, fun object same => ⟨stored, found, Except.ok.inj same⟩, ?_⟩
      intro e same
      cases same
  cases faulty with
  | served served =>
    have known := once _ served
    exact ⟨known.1, known.2.1, fun e same _ => known.2.2 e same⟩
  | refused present =>
    refine ⟨rfl, ?_, fun e same missing => ?_⟩
    · intro object same
      cases same
    · rw [← Except.error.inj same] at missing
      exact absurd missing present
  | lost present served =>
    refine ⟨(once _ served).1, ?_, fun e same missing => ?_⟩
    · intro object same
      cases same
    · rw [← Except.error.inj same] at missing
      exact absurd missing present
  | absent missing missing' served =>
    refine ⟨(once _ served).1, ?_, fun e _ _ => (once _ served).2.2 _ rfl⟩
    intro object same
    cases same

/-- Deleting an object asks it to terminate, and only then, or where it does not exist, is the
deletion settled. -/
theorem Faulty.deletes {reply : Except KubeError (ApiValue (.delete api name))}
    (faulty : Faulty maker server (.delete api name) reply after) :
    (∃ choice : Choice, after = server.write (api.key name) choice.deleted fun _ => ⟨rfl, rfl⟩) ∨
      after = server ∧ (deletionSettled reply = true → server.objects (api.key name) = none) := by
  have once (reply' : Except KubeError Unit)
      (served : Served maker server (.delete api name) reply' after) :
      (∃ choice : Choice, after = server.write (api.key name) choice.deleted fun _ => ⟨rfl, rfl⟩) ∨
        after = server ∧ server.objects (api.key name) = none := by
    obtain ⟨choice, eq⟩ := served
    simp only [Server.serve] at eq
    split at eq
    · rename_i missing
      exact .inr ⟨(congrArg Prod.snd eq).symm, missing⟩
    · exact .inl ⟨choice, (congrArg Prod.snd eq).symm⟩
  cases faulty with
  | served served => exact (once _ served).imp id fun known => ⟨known.1, fun _ => known.2⟩
  | refused present => exact .inr ⟨rfl, fun settled => absurd settled present⟩
  | lost _ served => exact (once _ served).imp id fun known => ⟨known.1, fun _ => known.2⟩
  | absent _ _ served => exact (once _ served).imp id fun known => ⟨known.1, fun _ => known.2⟩

/-- A patch that was computed from the finalizers of the object puts the wanted list in place, or
has no effect and fails. -/
theorem Faulty.releases {stored : Stored} {wanted : Option (List String)}
    {reply : Except KubeError (ApiValue (.jsonPatch api name
      (diffFinalizers stored.object.metadata.finalizers wanted)))}
    (found : server.objects (api.key name) = some stored)
    (faulty : Faulty maker server (.jsonPatch api name
      (diffFinalizers stored.object.metadata.finalizers wanted)) reply after) :
    (∃ choice : Choice, after = server.write (api.key name) (choice.finalized · wanted)
      fun _ => ⟨rfl, rfl⟩) ∨ after = server ∧ ∃ e, reply = .error e ∧ ¬e.isNotFound := by
  have once (reply' : Except KubeError DynamicObject)
      (served : Served maker server (.jsonPatch api name
        (diffFinalizers stored.object.metadata.finalizers wanted)) reply' after) :
      (∃ object, reply' = .ok object) ∧ ∃ choice : Choice,
        after = server.write (api.key name) (choice.finalized · wanted) fun _ => ⟨rfl, rfl⟩ := by
    obtain ⟨choice, eq⟩ := served
    simp only [Server.serve, found, applyFinalizerOps_diffFinalizers] at eq
    exact ⟨⟨_, (congrArg Prod.fst eq).symm⟩, choice, (congrArg Prod.snd eq).symm⟩
  cases faulty with
  | served served => exact .inl (once _ served).2
  | refused present => exact .inr ⟨rfl, _, rfl, present⟩
  | lost _ served => exact .inl (once _ served).2
  | absent _ _ served =>
    obtain ⟨object, same⟩ := (once _ served).1
    cases same

end Requests

/-- An object is absent, or it is terminating and does not carry the finalizer. -/
def Server.Freed (server : Server) (key : ObjectKey) : Prop :=
  server.objects key = none ∨ ∃ stored, server.objects key = some stored ∧
    stored.object.metadata.terminating = true ∧ finalizer ∉ stored.object.metadata.finalizerList

/-- The server, and the objects whose last patch failed without any effect. -/
structure Releasing where
  server : Server
  ignored : ObjectKey → Prop

/-- A call patches an object. -/
def Patches (key : ObjectKey) : Call → Prop
  | .api (.jsonPatch api name _) => api.key name = key
  | _ => False

/-- A request fails with another error than that the object does not exist, and leaves it as it
was. -/
def FailsAt (key : ObjectKey) (before : Server) : (call : Call) → Reply call → Server → Prop
  | .api _, reply, after => (∃ e, reply = .error e ∧ ¬e.isNotFound) ∧
    after.objects key = before.objects key
  | _, _, _ => False

/-- The server after the answer to a call, with what the call adds to what is noted. -/
def Releasing.after (before : Releasing) (call : Call) (reply : Reply call) (server : Server) :
    Releasing :=
  ⟨server, fun key => Patches key call ∧ FailsAt key before.server call reply server ∨
    ¬Patches key call ∧ before.ignored key⟩

/-- Requests are served or fail at any point, while nobody else touches some objects. -/
@[reducible] def releasing (maker : Option ObjectSyncRef) (keys : List ObjectKey) :
    Contract Call Reply Releasing where
  rely := fun before after => after.ignored = before.ignored ∧
    ∀ key ∈ keys, after.server.objects key = before.server.objects key
  answers := fun before call reply after =>
    answersBy (Faulty maker) before.server call reply after.server ∧
      ∀ key, after.ignored key ↔ (before.after call reply after.server).ignored key
  guarantee := fun _ _ _ _ => True

/-- What is known of destinations of which some have been removed: an ignored patch means that the
object carries the finalizer, and a removed one is terminating and does not carry it otherwise. -/
structure Removing (keys removed : List ObjectKey) (world : Releasing) : Prop where
  carried : ∀ key ∈ keys, world.ignored key → world.server.CarriesFinalizer key
  terminating : ∀ key ∈ removed, ∀ stored, world.server.objects key = some stored →
    stored.object.metadata.terminating = true
  lacks : ∀ key ∈ removed, ¬world.ignored key → world.server.Lacks key
  among : ∀ key ∈ removed, key ∈ keys

section Removing

variable {maker : Option ObjectSyncRef} {keys removed : List ObjectKey} {before after : Releasing}
  {d : DestinationStatus}

/-- What is known stays known while nobody touches the destinations. -/
theorem Removing.of_same (removing : Removing keys removed before)
    (ignored : after.ignored = before.ignored)
    (objects : ∀ key ∈ keys, after.server.objects key = before.server.objects key) :
    Removing keys removed after := by
  refine ⟨?_, ?_, ?_, removing.among⟩
  · intro key member failed
    rw [ignored] at failed
    obtain ⟨stored, found, listed⟩ := removing.carried key member failed
    exact ⟨stored, (objects key member).trans found, listed⟩
  · intro key member stored found
    rw [objects key (removing.among key member)] at found
    exact removing.terminating key member stored found
  · intro key member worked stored found
    rw [ignored] at worked
    rw [objects key (removing.among key member)] at found
    exact removing.lacks key member worked stored found

/-- A removed destination is released exactly when its patch was not ignored. -/
theorem Removing.freed_iff (removing : Removing keys removed before) {key : ObjectKey}
    (member : key ∈ removed) : before.server.Freed key ↔ ¬before.ignored key := by
  constructor
  · intro released failed
    obtain ⟨stored, found, listed⟩ := removing.carried key (removing.among key member) failed
    rcases released with absent | ⟨stored', found', -, lacks⟩
    · rw [absent] at found
      cases found
    · rw [found] at found'
      rw [← Option.some.inj found'] at lacks
      exact lacks listed
  · intro worked
    cases found : before.server.objects key with
    | none => exact .inl found
    | some stored =>
      have terminating := removing.terminating key member stored found
      exact .inr ⟨stored, found, terminating, removing.lacks key member worked stored found⟩

/-- Reading a destination changes nothing that is known. -/
theorem Removing.got (removing : Removing keys removed before)
    {reply : Reply (.api (.get d.api d.name))}
    (answered : (releasing maker keys).answers before (.api (.get d.api d.name)) reply after) :
    Removing keys removed after ∧ (∀ object, reply = .ok object → ∃ stored,
        after.server.objects d.key = some stored ∧ stored.object = object) ∧
      (∀ e, reply = .error e → e.isNotFound → after.server.objects d.key = none) := by
  have got := Faulty.got answered.1
  have ignored : after.ignored = before.ignored := by
    funext key
    have known := answered.2 key
    exact propext (known.trans ⟨fun either => (either.resolve_left fun both => both.1).2,
      fun failed => .inr ⟨id, failed⟩⟩)
  have same : after.server = before.server := got.1
  refine ⟨removing.of_same ignored fun key _ => by rw [same], ?_, ?_⟩
  · rw [same]
    exact got.2.1
  · rw [same]
    exact got.2.2

/-- A call at one destination keeps what is known when it does so there. -/
theorem Removing.of_elsewhere (removing : Removing keys removed before) {here : ObjectKey}
    (ignored : ∀ key, key ≠ here → (after.ignored key ↔ before.ignored key))
    (objects : ∀ key, key ≠ here → after.server.objects key = before.server.objects key)
    (carried : after.ignored here → after.server.CarriesFinalizer here)
    (terminating : here ∈ removed → ∀ stored, after.server.objects here = some stored →
      stored.object.metadata.terminating = true)
    (lacks : here ∈ removed → ¬after.ignored here → after.server.Lacks here) :
    Removing keys removed after := by
  refine ⟨?_, ?_, ?_, removing.among⟩
  · intro key member failed
    by_cases same : key = here
    · rw [same] at failed ⊢
      exact carried failed
    · obtain ⟨stored, found, listed⟩ := removing.carried key member ((ignored key same).mp failed)
      exact ⟨stored, (objects key same).trans found, listed⟩
  · intro key member stored found
    by_cases same : key = here
    · subst same
      exact terminating member stored found
    · rw [objects key same] at found
      exact removing.terminating key member stored found
  · intro key member worked
    by_cases same : key = here
    · subst same
      exact lacks member worked
    · intro stored found
      rw [objects key same] at found
      exact removing.lacks key member (fun failed => worked ((ignored key same).mpr failed)) stored
        found

/-- Releasing a destination that carries the finalizer leaves it without, unless the patch is
ignored. -/
theorem Removing.patched (removing : Removing keys removed before) {stored : Stored}
    (found : before.server.objects d.key = some stored)
    (carries : finalizer ∈ stored.object.metadata.finalizerList) {patch : List FinalizerOp}
    {reply : Reply (.api (.jsonPatch d.api d.name patch))}
    (computed : patch = diffFinalizers stored.object.metadata.finalizers
      (some (stored.object.metadata.finalizerList.filter (· != finalizer))))
    (answered : (releasing maker keys).answers before (.api (.jsonPatch d.api d.name patch)) reply
      after) :
    Removing keys removed after ∧ (¬after.ignored d.key → after.server.Lacks d.key) := by
  subst computed
  have ignored (key : ObjectKey) (other : key ≠ d.key) :
      after.ignored key ↔ before.ignored key := by
    have known := answered.2 key
    constructor
    · intro failed
      rcases known.mp failed with here | elsewhere
      · exact absurd here.1.symm other
      · exact elsewhere.2
    · intro failed
      exact known.mpr (.inr ⟨fun same => other same.symm, failed⟩)
  rcases Faulty.releases found answered.1 with written | unchanged
  · -- The patch took effect, so the object lacks the finalizer.
    obtain ⟨choice, same⟩ := written
    have left (later : Stored) (found' : after.server.objects d.key = some later) :
        later.object = choice.finalized stored.object
          (some (stored.object.metadata.finalizerList.filter (· != finalizer))) := by
      rw [same] at found'
      obtain ⟨old, was, written⟩ := Server.of_write found'
      have known : before.server.objects d.key = some old := was
      rw [found] at known
      rw [written, ← Option.some.inj known]
    have lacks : after.server.Lacks d.key := by
      intro later found'
      rw [left later found']
      intro listed
      have kept := (List.mem_filter.mp listed).2
      rw [bne_self_eq_false] at kept
      cases kept
    have worked : ¬after.ignored d.key := by
      intro failed
      rcases (answered.2 d.key).mp failed with ⟨-, -, unchanged⟩ | ⟨other, -⟩
      · exact lacks stored (unchanged.trans found) carries
      · exact other rfl
    have still : Removing keys removed after := by
      refine removing.of_elsewhere ignored (fun key other => ?_)
        (fun failed => absurd failed worked)
        (fun member later found' => ?_) fun _ _ => lacks
      · rw [same]
        exact Function.update_of_ne other ..
      · rw [left later found']
        exact removing.terminating _ member stored found
    exact ⟨still, fun _ => lacks⟩
  · -- The patch had no effect, so the object carries the finalizer as before.
    obtain ⟨same, e, error, present⟩ := unchanged
    have objects (key : ObjectKey) : after.server.objects key = before.server.objects key := by
      rw [same]
    have failed : after.ignored d.key :=
      (answered.2 d.key).mpr (.inl ⟨rfl, ⟨e, error, present⟩, objects _⟩)
    have still : Removing keys removed after := by
      refine removing.of_elsewhere ignored (fun key _ => objects key)
        (fun _ => ⟨stored, (objects _).trans found, carries⟩) (fun member later found' => ?_)
        fun _ worked => absurd failed worked
      rw [objects] at found'
      exact removing.terminating _ member later found'
    exact ⟨still, fun worked => absurd failed worked⟩

/-- Deleting a destination removes it when it is settled. -/
theorem Removing.deleted (removing : Removing keys removed before) (member : d.key ∈ keys)
    (lacks : ¬before.ignored d.key → before.server.Lacks d.key)
    {reply : Reply (.api (.delete d.api d.name))}
    (answered : (releasing maker keys).answers before (.api (.delete d.api d.name)) reply after) :
    Removing keys (if deletionSettled reply then d.key :: removed else removed) after := by
  have ignored (key : ObjectKey) : after.ignored key ↔ before.ignored key := by
    have known := answered.2 key
    exact known.trans ⟨fun either => (either.resolve_left fun both => both.1).2,
      fun failed => .inr ⟨fun patches => patches, failed⟩⟩
  -- The finalizers of the object stay as they are.
  have known : (∀ key, key ≠ d.key → after.server.objects key = before.server.objects key) ∧
      (before.server.CarriesFinalizer d.key → after.server.CarriesFinalizer d.key) ∧
      (before.server.Lacks d.key → after.server.Lacks d.key) ∧
      ((∀ stored, before.server.objects d.key = some stored →
          stored.object.metadata.terminating = true) ∨ deletionSettled reply = true →
        ∀ stored, after.server.objects d.key = some stored →
          stored.object.metadata.terminating = true) := by
    rcases Faulty.deletes answered.1 with written | unchanged
    · obtain ⟨choice, same⟩ := written
      rw [same]
      refine ⟨fun key other => Function.update_of_ne other .., fun carries => ?_, ?_, ?_⟩
      · obtain ⟨stored, found, listed⟩ := carries
        exact Server.carries_write _ found listed
      · intro lacks later found'
        obtain ⟨old, was, written⟩ := Server.of_write found'
        rw [written]
        exact lacks old was
      · intro _ later found'
        obtain ⟨old, was, written⟩ := Server.of_write found'
        rw [written]
        cases set : old.object.metadata.deletionTimestamp <;>
          simp [Choice.deleted, ObjectMeta.terminating, set]
    · obtain ⟨same, missing⟩ := unchanged
      rw [same]
      refine ⟨fun _ _ => rfl, id, id, fun either stored found => ?_⟩
      rcases either with terminating | settled
      · exact terminating stored found
      · have absent : before.server.objects d.key = none := missing settled
        rw [absent] at found
        cases found
  obtain ⟨objects, carries, lacks', terminating⟩ := known
  have still : Removing keys removed after := by
    refine removing.of_elsewhere (fun key _ => ignored key) objects (fun failed => ?_)
      (fun listed => ?_) fun listed worked => ?_
    · exact carries (removing.carried _ member ((ignored _).mp failed))
    · exact terminating (.inl (removing.terminating _ listed))
    · exact lacks' (removing.lacks _ listed fun failed => worked ((ignored _).mpr failed))
  by_cases settled : deletionSettled reply = true
  · rw [if_pos settled]
    refine ⟨still.carried, fun key listed => ?_, fun key listed => ?_, fun key listed => ?_⟩
    · rcases List.mem_cons.mp listed with rfl | before
      · exact terminating (.inr settled)
      · exact still.terminating key before
    · rcases List.mem_cons.mp listed with rfl | before
      · exact fun worked => lacks' (lacks fun failed => worked ((ignored _).mpr failed))
      · exact still.lacks key before
    · rcases List.mem_cons.mp listed with rfl | before
      · exact member
      · exact still.among key before
  · rw [if_neg settled]
    exact still

/-- Taking the finalizer from a destination that was just read. -/
theorem wp_removeFinalizer_removing {world : Releasing} {object : DynamicObject} {stored : Stored}
    (removing : Removing keys removed world) (member : d.key ∈ keys)
    (found : world.server.objects d.key = some stored)
    (same : object.metadata.finalizers = stored.object.metadata.finalizers)
    (named : object.metadata.nameAny = d.name) :
    (removeFinalizer d.api object finalizer).wp (releasing maker keys) (fun _ after =>
      Removing keys removed after ∧ (¬after.ignored d.key → after.server.Lacks d.key)) world := by
  have listed : object.metadata.finalizerList = stored.object.metadata.finalizerList := by
    rw [ObjectMeta.finalizerList, same, ObjectMeta.finalizerList]
  by_cases carries : finalizer ∈ stored.object.metadata.finalizerList
  · have carried : finalizer ∈ object.metadata.finalizerList := listed ▸ carries
    rw [removeFinalizer_of_mem carried, listed, named, wp_api]
    intro moved moves reply after answered
    have before := removing.of_same moves.1 moves.2
    have there : moved.server.objects d.key = some stored := (moves.2 _ member).trans found
    have patched := before.patched there carries (by rw [same]) answered
    refine ⟨trivial, ?_⟩
    cases reply with
    | ok value => exact patched
    | error e =>
      dsimp only
      split <;> exact patched
  · have lacked : finalizer ∉ object.metadata.finalizerList := listed ▸ carries
    rw [removeFinalizer_of_not_mem lacked]
    refine ⟨removing, fun _ later found' => ?_⟩
    have known := found.symm.trans found'
    rw [← Option.some.inj known]
    exact carries

/-- Deleting a destination removes it, or returns it. -/
theorem wp_deleteDestination_removing {world : Releasing} (removing : Removing keys removed world)
    (member : d.key ∈ keys) (lacks : ¬world.ignored d.key → world.server.Lacks d.key) :
    (deleteDestination d).wp (releasing maker keys) (fun errors after =>
      ∃ removed', Removing keys removed' after ∧ removed ⊆ removed' ∧
        (d ∉ errors → d.key ∈ removed')) world := by
  unfold deleteDestination
  rw [wp_api]
  intro moved moves reply after answered
  have before := removing.of_same moves.1 moves.2
  have lacks' : ¬moved.ignored d.key → moved.server.Lacks d.key := by
    intro worked stored found
    rw [moves.1] at worked
    rw [moves.2 _ member] at found
    exact lacks worked stored found
  have deleted := before.deleted member lacks' answered
  have gone (settled : deletionSettled reply = true) : Removing keys (d.key :: removed) after := by
    rw [if_pos settled] at deleted
    exact deleted
  refine ⟨trivial, ?_⟩
  cases reply with
  | ok value => exact ⟨_, gone rfl, List.subset_cons_self _ _, fun _ => List.mem_cons_self⟩
  | error e =>
    dsimp only
    by_cases missing : e.isNotFound = true
    · rw [if_pos missing]
      exact ⟨_, gone missing, List.subset_cons_self _ _, fun _ => List.mem_cons_self⟩
    · have unsettled : ¬deletionSettled (.error e) = true := missing
      rw [if_neg unsettled] at deleted
      rw [if_neg missing]
      exact ⟨removed, deleted, List.Subset.refl _, fun other => absurd List.mem_cons_self other⟩

/-- Handling a destination removes it, or returns it. -/
theorem wp_removeDestination_removing {world : Releasing} (removing : Removing keys removed world)
    (member : d.key ∈ keys) :
    (removeDestination d).wp (releasing maker keys) (fun result after => ∀ errors,
      result = .ok errors → ∃ removed', Removing keys removed' after ∧ removed ⊆ removed' ∧
        (d ∉ errors → d.key ∈ removed')) world := by
  have deleting (middle : Releasing) (removing : Removing keys removed middle)
      (lacks : ¬middle.ignored d.key → middle.server.Lacks d.key) :
      (deleteDestination d >>= fun errors =>
        (pure (.ok errors) : Async (Except ControllerError _))).wp
        (releasing maker keys) (fun result after => ∀ errors, result = .ok errors →
          ∃ removed', Removing keys removed' after ∧ removed ⊆ removed' ∧
            (d ∉ errors → d.key ∈ removed')) middle := by
    rw [wp_bind]
    refine wp_imp ?_ (wp_deleteDestination_removing removing member lacks)
    intro errors after deleted errors' same
    rw [← Except.ok.inj same]
    exact deleted
  unfold removeDestination
  rw [wp_api]
  intro moved moves reply middle answered
  have got := (removing.of_same moves.1 moves.2).got answered
  refine ⟨trivial, ?_⟩
  cases reply with
  | ok object =>
    obtain ⟨stored, found, same⟩ := got.2.1 object rfl
    have named : (ensureGvk object d.api.resource).metadata.nameAny = d.name := by
      show object.metadata.nameAny = d.name
      rw [← same, ObjectMeta.nameAny, (middle.server.named found).1]
      rfl
    dsimp only
    rw [wp_bind]
    refine wp_imp (fun _ after released => deleting after released.1 released.2)
      (wp_removeFinalizer_removing got.1 member found ?_ named)
    rw [← same]
    rfl
  | error e =>
    dsimp only
    split
    · rename_i missing
      have absent := got.2.2 e rfl missing
      refine deleting middle got.1 fun _ stored found => ?_
      rw [absent] at found
      cases found
    · intro errors same
      cases same

/-- What is not returned was removed. -/
theorem wp_deleteDestinations_removing {destinations : List DestinationStatus} {world : Releasing}
    (among : ∀ d ∈ destinations, d.key ∈ keys) (removing : Removing keys [] world) :
    (deleteDestinations destinations).wp (releasing maker keys) (fun result after =>
      ∀ remaining, result = .ok remaining → ∃ removed, Removing keys removed after ∧
        ∀ d ∈ destinations, d ∉ remaining → d.key ∈ removed) world := by
  have loop := @wp_deleteDestinations_each _ (releasing maker keys)
    (fun failed todo after => ∃ removed, Removing keys removed after ∧
      (∀ d ∈ todo, d.key ∈ keys) ∧ ∀ d ∈ destinations, d ∉ failed → d ∈ todo ∨ d.key ∈ removed)
    (fun _ _ => True) ?_ [] destinations world
    ⟨[], removing, among, fun d listed _ => .inl listed⟩
  · refine wp_imp (fun result after kept remaining finished => ?_) loop
    obtain ⟨removed, removing, -, gone⟩ := kept.1 remaining finished
    exact ⟨removed, removing, fun d listed left =>
      (gone d listed left).resolve_left List.not_mem_nil⟩
  · intro failed d todo before invariant
    obtain ⟨removed, removing, among, gone⟩ := invariant
    refine wp_imp (fun result after kept => ⟨fun errors same => ?_, fun _ _ => trivial⟩)
      (wp_removeDestination_removing removing (among d List.mem_cons_self))
    obtain ⟨removed', removing', more, gone'⟩ := kept errors same
    refine ⟨removed', removing',
      fun other listed => among other (List.mem_cons_of_mem _ listed), ?_⟩
    intro other listed left
    rw [List.mem_append, not_or] at left
    rcases gone other listed left.1 with due | removed
    · rcases List.mem_cons.mp due with rfl | later
      · exact .inr (gone' left.2)
      · exact .inl later
    · exact .inr (more removed)

end Removing

/-- **A destination dropped from tracking is released.** Whatever the requests are answered, at the
end each destination that is not returned is absent or terminates without the finalizer, if and only
if the last patch that was sent for it, if any, had an effect or did not fail. -/
theorem deleteDestinations_frees_iff (maker : Option ObjectSyncRef) (server : Server)
    (destinations : List DestinationStatus) :
    (deleteDestinations destinations).wp (releasing maker (destinations.map (·.key)))
      (fun result after => ∀ remaining, result = .ok remaining → ∀ d ∈ destinations, d ∉ remaining →
        (after.server.Freed d.key ↔ ¬after.ignored d.key)) ⟨server, fun _ => False⟩ := by
  have fresh : Removing (destinations.map (·.key)) [] ⟨server, fun _ => False⟩ := by
    refine ⟨fun _ _ failed => failed.elim, ?_, ?_, ?_⟩ <;>
    · intro key member
      cases member
  have removing := @wp_deleteDestinations_removing maker _ destinations _
    (fun d listed => List.mem_map_of_mem listed) fresh
  refine wp_imp (fun result after kept remaining finished d listed left => ?_) removing
  obtain ⟨removed, removing, gone⟩ := kept remaining finished
  exact removing.freed_iff (gone d listed left)

/-- The entry of the copy of the settings. -/
def settingsEntry : DestinationStatus := configMaps.expectedStatus ("team", "settings", none)

/-- A copy whose patch was refused is asked to terminate with the finalizer, and forgotten. -/
theorem settingsCopied_forgotten :
    ¬∀ (maker : Option ObjectSyncRef) (server : Server) (destinations : List DestinationStatus),
      (deleteDestinations destinations).wp (releasing maker (destinations.map (·.key)))
        (fun result after => ∀ remaining, result = .ok remaining → ∀ d ∈ destinations,
          d ∉ remaining → after.server.Freed d.key) ⟨server, fun _ => False⟩ := by
  intro frees
  let server := deletedServer (some settingsCopied) @settingsCopied_named
  have run := frees none server [settingsEntry]
  have still (world : Releasing) : (releasing none [settingsCopy]).rely world world :=
    ⟨rfl, fun _ _ => rfl⟩
  have noted {before : Releasing} {call : Call} {reply : Reply call} {after : Server}
      (answered : answersBy (Faulty none) before.server call reply after) :
      (releasing none [settingsCopy]).answers before call reply (before.after call reply after) :=
    ⟨answered, fun _ => Iff.rfl⟩
  let choice : Choice := ⟨"u", "2", 0, []⟩
  have read := (run _ (still _) (.ok settingsCopied.object) _ (noted (.served ⟨choice, rfl⟩))).2
  have patched := (read _ (still _) (.error (.other "")) _ (noted (.refused (by decide)))).2
  have ended := (patched _ (still _) (.ok ()) _ (noted (.served ⟨choice, rfl⟩))).2
  have freed := ended [] rfl settingsEntry List.mem_cons_self List.not_mem_nil
  have carries : ((server.write settingsCopy choice.deleted
      fun _ => ⟨rfl, rfl⟩).objects settingsCopy).any fun stored =>
        decide (finalizer ∈ stored.object.metadata.finalizerList) := by
    decide +kernel
  rcases freed with absent | ⟨stored, found, -, lacks⟩
  · have known := (congrArg (Option.any fun stored : Stored =>
      decide (finalizer ∈ stored.object.metadata.finalizerList)) absent).symm.trans carries
    cases known
  · have known := (congrArg (Option.any fun stored : Stored =>
      decide (finalizer ∈ stored.object.metadata.finalizerList)) found).symm.trans carries
    exact lacks (of_decide_eq_true known)

end ObjectSyncer
