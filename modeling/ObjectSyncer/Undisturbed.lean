import ObjectSyncer.Server

/-!
# Runs that nobody disturbs

What the functions of the controller do when every request is served and nobody else acts: objects
are released and deleted, and the status is written. The effects are stated by what differs between
the server before and after.
-/
namespace ObjectSyncer

open Interaction Interaction.Program

namespace Server

/-- Two servers differ at most in some objects. -/
structure Agree (touched : ObjectKey → Prop) (before after : Server) : Prop where
  objects : ∀ key, ¬touched key → after.objects key = before.objects key
  syncs : after.syncs = before.syncs
  apis : after.apis = before.apis

/-- Two servers differ at most in one ObjectSync. -/
structure AgreeBut (o : ObjectSyncRef) (before after : Server) : Prop where
  objects : after.objects = before.objects
  syncs : ∀ name, name ≠ o.name → after.syncs name = before.syncs name
  apis : after.apis = before.apis

/-- No terminating object without finalizers is stored. -/
def Settled (server : Server) : Prop :=
  ∀ key stored, server.objects key = some stored → stored.object.metadata.gone = false

/-- The object of a key does not carry the finalizer. -/
def Lacks (server : Server) (key : ObjectKey) : Prop :=
  ∀ stored, server.objects key = some stored → finalizer ∉ stored.object.metadata.finalizerList

/-- The object of a key has no finalizers that it did not have before. -/
def Shrinks (key : ObjectKey) (before after : Server) : Prop :=
  ∀ stored, after.objects key = some stored → ∃ old, before.objects key = some old ∧
    stored.object.metadata.finalizerList ⊆ old.object.metadata.finalizerList

/-- The object of a key was released and asked to terminate; it may wait for other finalizers. -/
structure Cleared (key : ObjectKey) (before after : Server) : Prop where
  lacks : after.Lacks key
  terminating : ∀ stored, after.objects key = some stored → stored.object.metadata.terminating
  shrinks : Shrinks key before after

/-- The objects of some keys were released and asked to terminate, and nothing else happened. -/
structure Clears (keys : List ObjectKey) (before after : Server) : Prop where
  agree : Agree (· ∈ keys) before after
  cleared : ∀ key ∈ keys, Cleared key before after

section Agree

variable {touched more : ObjectKey → Prop} {before middle after : Server} {key : ObjectKey}
  {keys : List ObjectKey}

/-- A server agrees with itself. -/
theorem Agree.refl (touched : ObjectKey → Prop) (server : Server) : Agree touched server server :=
  ⟨fun _ _ => rfl, rfl, rfl⟩

/-- Servers that agree twice but for some objects agree. -/
theorem Agree.trans (first : Agree touched before middle) (second : Agree touched middle after) :
    Agree touched before after :=
  ⟨fun key other => (second.objects key other).trans (first.objects key other),
    second.syncs.trans first.syncs, second.apis.trans first.apis⟩

/-- Servers that agree but for some objects agree but for more. -/
theorem Agree.mono (agree : Agree touched before after) (implies : ∀ key, touched key → more key) :
    Agree more before after :=
  ⟨fun key other => agree.objects key fun member => other (implies key member), agree.syncs,
    agree.apis⟩

/-- A server agrees with itself but for an ObjectSync. -/
theorem AgreeBut.refl (o : ObjectSyncRef) (server : Server) : AgreeBut o server server :=
  ⟨rfl, fun _ _ => rfl, rfl⟩

/-- Where nothing happens no finalizer is added. -/
theorem Shrinks.of_eq (same : after.objects key = before.objects key) : Shrinks key before after :=
  fun stored found => ⟨stored, same ▸ found, fun _ => id⟩

/-- Finalizers go away one after the other. -/
theorem Shrinks.trans (first : Shrinks key before middle) (second : Shrinks key middle after) :
    Shrinks key before after := by
  intro stored found
  obtain ⟨later, found', fewer⟩ := second stored found
  obtain ⟨old, was, fewer'⟩ := first later found'
  exact ⟨old, was, fun f member => fewer' (fewer member)⟩

/-- Where there is no object, nothing waits. -/
theorem Cleared.of_none (absent : after.objects key = none) : Cleared key before after := by
  refine ⟨?_, ?_, ?_⟩ <;>
  · intro stored found
    rw [absent] at found
    cases found

/-- What has been cleared stays cleared as long as nothing happens to it. -/
theorem Cleared.of_eq (cleared : Cleared key before middle)
    (same : after.objects key = middle.objects key) : Cleared key before after := by
  refine ⟨fun stored found => ?_, fun stored found => ?_, fun stored found => ?_⟩
  · exact cleared.lacks stored (same ▸ found)
  · exact cleared.terminating stored (same ▸ found)
  · exact cleared.shrinks stored (same ▸ found)

/-- A cleared object of a settled server waits for a finalizer of somebody else. -/
theorem Cleared.eq_none (cleared : Cleared key before after) (settled : after.Settled)
    (own : ∀ stored, before.objects key = some stored →
      ∀ f ∈ stored.object.metadata.finalizerList, f = finalizer) :
    after.objects key = none := by
  cases found : after.objects key with
  | none => rfl
  | some stored =>
    obtain ⟨old, was, fewer⟩ := cleared.shrinks stored found
    have empty : stored.object.metadata.finalizerList = [] := by
      refine List.eq_nil_iff_forall_not_mem.mpr fun f member => ?_
      rw [own old was f (fewer member)] at member
      exact cleared.lacks stored found member
    have terminating := cleared.terminating stored found
    have present := settled key stored found
    rw [ObjectMeta.gone, terminating, empty] at present
    cases present

/-- Keys are cleared one after the other. -/
theorem Clears.cons (first : Clears [key] before middle) (rest : Clears keys middle after) :
    Clears (key :: keys) before after := by
  refine ⟨?_, fun other member => ?_⟩
  · refine (first.agree.mono fun other member => ?_).trans (rest.agree.mono fun other member => ?_)
    · rw [List.mem_singleton.mp member]
      exact List.mem_cons_self
    · exact List.mem_cons_of_mem _ member
  · by_cases later : other ∈ keys
    · have cleared := rest.cleared other later
      refine ⟨cleared.lacks, cleared.terminating, Shrinks.trans ?_ cleared.shrinks⟩
      by_cases same : other = key
      · rw [same]
        exact (first.cleared key (List.mem_singleton.mpr rfl)).shrinks
      · exact .of_eq (first.agree.objects other fun member => same (List.mem_singleton.mp member))
    · have same : other = key := (List.mem_cons.mp member).resolve_right later
      have cleared := first.cleared other (List.mem_singleton.mpr same)
      exact cleared.of_eq (rest.agree.objects other later)

end Agree

end Server

open Server

section Effects

variable {maker : Option ObjectSyncRef} {server after : Server} {request : ApiRequest}

/-- A request that writes no ObjectSync only touches its target. -/
theorem Effect.agree (effect : Effect maker server request after)
    (noSync : request.syncTarget = none) :
    Agree (fun key => request.target = some key) server after := by
  refine ⟨fun key other => effect.objects_eq other, ?_, ?_⟩
  · funext name
    refine effect.syncs_eq ?_
    rw [noSync]
    rintro ⟨⟩
  · cases effect <;> rfl

/-- The effects of a request leave no terminating object without finalizers. -/
theorem Effect.settled (effect : Effect maker server request after) (settled : server.Settled) :
    after.Settled := by
  intro key stored found
  cases effect with
  | nothing => exact settled key stored found
  | @write key' change keeps target terminates =>
    by_cases same : key = key'
    · subst same
      rw [write_objects, Function.update_self] at found
      obtain ⟨old, -, left⟩ := Option.bind_eq_some_iff.mp found
      unfold Stored.settled at left
      split at left
      · cases left
      · rename_i present
        rw [← Option.some.inj left]
        exact Bool.eq_false_iff.mpr present
    · rw [write_objects, Function.update_of_ne same] at found
      exact settled key stored found
  | @create choice api name body creates target absent =>
    by_cases same : key = api.key name
    · subst same
      rw [create_objects, Function.update_self] at found
      rw [← Option.some.inj found]
      rfl
    · rw [create_objects, Function.update_of_ne same] at found
      exact settled key stored found
  | writeSync keeps target => exact settled key stored found

end Effects

/-! ## Undisturbed runs -/

/-- The namespace cache has a given content. -/
def Cached (cache : List Namespace) : (call : Call) → Reply call → Prop
  | .namespaces, namespaces => namespaces = cache
  | _, _ => True

/-- Nobody else acts, every request is served, and the namespace cache has a given content. What
the server may choose can be restricted further. -/
@[reducible] def alone (maker : Option ObjectSyncRef) (cache : List Namespace)
    (possible : Server → Prop) : Contract Call Reply Server where
  rely := fun before after => before = after
  answers := fun before call reply after => answersBy (Served maker) before call reply after ∧
    Cached cache call reply ∧ possible after
  guarantee := fun _ _ _ _ => True

/-- Every call can be answered in an undisturbed run. -/
theorem alone_total (maker : Option ObjectSyncRef) (cache : List Namespace) (server : Server)
    (call : Call) : ∃ reply after,
      (alone maker cache fun _ => True).answers server call reply after := by
  cases call with
  | api request =>
    let choice : Choice := ⟨"u", "1", 0, []⟩
    exact ⟨(server.serve maker choice request).1, (server.serve maker choice request).2,
      ⟨choice, rfl⟩, trivial, trivial⟩
  | memory op => exact ⟨op.idleReply, server, rfl, trivial, trivial⟩
  | namespaces => exact ⟨cache, server, rfl, rfl, trivial⟩
  | clock => exact ⟨"", server, rfl, trivial, trivial⟩

/-- The working copy is the ObjectSync on the server, up to its status. -/
structure InStep (o : ObjectSyncRef) (event : ObjectSyncModifications) (server : Server) :
    Prop where
  found : server.syncs o.name = some event.original
  kept : event.modified = { event.original with status := event.modified.status }
  present : event.original.metadata.gone = false

section Alone

variable {maker : Option ObjectSyncRef} {cache : List Namespace} {possible : Server → Prop}
  {server : Server}

/-- A request whose answers are known, in an undisturbed run. -/
theorem wp_served {α : Type} {request : ApiRequest}
    {next : Except KubeError (ApiValue request) → Async α} {post : α → Server → Prop}
    {reply : Choice → Except KubeError (ApiValue request)} {after : Choice → Server}
    (served : ∀ choice, server.serve maker choice request = (reply choice, after choice))
    (step : ∀ choice, possible (after choice) →
      (next (reply choice)).wp (alone maker cache possible) post (after choice)) :
    (Async.api request >>= next).wp (alone maker cache possible) post server := by
  rw [wp_api]
  intro _ same reply' after' answered
  subst same
  obtain ⟨⟨choice, served'⟩, -, likely⟩ := answered
  rw [served choice] at served'
  obtain ⟨rfl, rfl⟩ := Prod.mk.inj served'
  exact ⟨trivial, step choice likely⟩

/-- The namespaces are those of the cache, in an undisturbed run. -/
theorem wp_namespaces_alone {α : Type} {next : List Namespace → Async α} {post : α → Server → Prop}
    (step : (next cache).wp (alone maker cache possible) post server) :
    (Async.namespaces >>= next).wp (alone maker cache possible) post server := by
  rw [wp_namespaces]
  intro moved same cache' after answered
  have still : server = after := same.trans answered.1.symm
  have accurate : cache = cache' := answered.2.1.symm
  subst still accurate
  exact ⟨trivial, step⟩

/-- Whatever an undisturbed run does, it leaves a possible and settled server. -/
theorem wp_alone {α : Type} (program : Async α) (likely : possible server)
    (settled : server.Settled) :
    program.wp (alone maker cache possible) (fun _ after => possible after ∧ after.Settled)
      server := by
  refine wp_invariant program ?_ ?_ ⟨likely, settled⟩
  · intro before moved holds same
    exact same ▸ holds
  · intro before asked reply after holds answered
    refine ⟨trivial, answered.2.2, ?_⟩
    cases asked with
    | api request =>
      obtain ⟨choice, eq⟩ := answered.1
      have effect := before.serve_effect maker choice request
      rw [eq] at effect
      exact effect.settled holds.2
    | _ =>
      have still : after = before := answered.1
      exact still ▸ holds.2

/-- The object of a key after its finalizer was removed. -/
def Released (key : ObjectKey) (stored : Stored) (after : Server) : Prop :=
  ∃ choice : Choice, after.objects key = Stored.settled
    { stored with
      object := choice.finalized stored.object
        (some (stored.object.metadata.finalizerList.filter (· != finalizer))) }

/-- Removing the finalizer of an object that was just read succeeds, and tells whether there was
one. -/
theorem wp_removeFinalizer_alone {api : DynamicApi} {name : String} {source : DynamicObject}
    {stored : Stored} (named : source.metadata.nameAny = name)
    (found : server.objects (api.key name) = some stored)
    (same : source.metadata.finalizers = stored.object.metadata.finalizers) :
    (removeFinalizer api source finalizer).wp (alone maker cache possible) (fun value after =>
      value.2 = .ok (decide (finalizer ∈ stored.object.metadata.finalizerList)) ∧
        Agree (· = api.key name) server after ∧
        (finalizer ∈ stored.object.metadata.finalizerList → Released (api.key name) stored after) ∧
        (finalizer ∉ stored.object.metadata.finalizerList → after = server)) server := by
  have listed : source.metadata.finalizerList = stored.object.metadata.finalizerList := by
    rw [ObjectMeta.finalizerList, same, ObjectMeta.finalizerList]
  unfold Released
  by_cases carries : finalizer ∈ stored.object.metadata.finalizerList
  · have carried : finalizer ∈ source.metadata.finalizerList := listed ▸ carries
    generalize remaining : stored.object.metadata.finalizerList.filter (· != finalizer) = filtered
    have served (choice : Choice) : server.serve maker choice
        (.jsonPatch api name (diffFinalizers source.metadata.finalizers (some filtered))) =
        (.ok (choice.finalized stored.object (some filtered)),
          server.write (api.key name) (choice.finalized · (some filtered)) fun _ =>
            ⟨rfl, rfl⟩) := by
      rw [same]
      simp only [serve, found, applyFinalizerOps_diffFinalizers]
    rw [removeFinalizer_of_mem carried, listed, remaining, named]
    refine wp_served served fun choice _ => ⟨congrArg Except.ok (decide_eq_true carries).symm, ?_,
      fun _ => ⟨choice, ?_⟩, fun lacks => absurd carries lacks⟩
    · exact ⟨fun key other => Function.update_of_ne other .., rfl, rfl⟩
    · rw [write_objects, Function.update_self, found, Option.bind_some]
  · have lacked : finalizer ∉ source.metadata.finalizerList := listed ▸ carries
    rw [removeFinalizer_of_not_mem lacked]
    exact ⟨congrArg Except.ok (decide_eq_false carries).symm, .refl _ _,
      fun member => absurd member carries, fun _ => rfl⟩

/-- A released object lacks the finalizer and has no new ones. -/
theorem Released.lacks {key : ObjectKey} {stored : Stored} {after : Server}
    (released : Released key stored after) (found : server.objects key = some stored) :
    after.Lacks key ∧ Shrinks key server after := by
  obtain ⟨choice, left⟩ := released
  have filtered (later : Stored) (found' : after.objects key = some later) :
      later.object.metadata.finalizerList =
        stored.object.metadata.finalizerList.filter (· != finalizer) := by
    rw [left] at found'
    unfold Stored.settled at found'
    split at found'
    · cases found'
    · rw [← Option.some.inj found']
      rfl
  constructor
  · intro later found'
    rw [filtered later found', List.mem_filter, bne_self_eq_false]
    exact fun member => Bool.false_ne_true member.2
  · intro later found'
    refine ⟨stored, found, ?_⟩
    rw [filtered later found']
    exact List.filter_subset_self _

/-- A terminating object without other finalizers is gone once it is released. -/
theorem Released.gone {key : ObjectKey} {stored : Stored} {after : Server}
    (released : Released key stored after) (terminating : stored.object.metadata.terminating)
    (own : ∀ f ∈ stored.object.metadata.finalizerList, f = finalizer) :
    after.objects key = none := by
  obtain ⟨choice, left⟩ := released
  have filtered : stored.object.metadata.finalizerList.filter (· != finalizer) = [] := by
    refine List.filter_eq_nil_iff.mpr fun f listed => ?_
    rw [own f listed, bne_self_eq_false]
    exact Bool.false_ne_true
  have still : (choice.finalized stored.object (some [])).metadata.terminating = true := terminating
  rw [left, filtered]
  unfold Stored.settled
  refine if_pos ?_
  rw [ObjectMeta.gone, still]
  rfl

/-- Deleting an object that lacks the finalizer clears it. -/
theorem wp_deleteDestination_alone {d : DestinationStatus} (lacks : server.Lacks d.key) :
    (deleteDestination d).wp (alone maker cache possible)
      (fun errors after => errors = [] ∧ Clears [d.key] server after) server := by
  unfold deleteDestination
  have sameKey : d.api.key d.name = d.key := rfl
  cases found : server.objects d.key with
  | none =>
    have served (choice : Choice) : server.serve maker choice (.delete d.api d.name) =
        (.error (.api 404 "not found"), server) := by simp only [serve, sameKey, found]
    refine wp_served served fun choice _ => ⟨rfl, .refl _ _, fun key member => ?_⟩
    rw [List.mem_singleton.mp member]
    exact .of_none found
  | some stored =>
    have served (choice : Choice) : server.serve maker choice (.delete d.api d.name) =
        (.ok (), server.write d.key choice.deleted fun _ => ⟨rfl, rfl⟩) := by
      simp only [serve, sameKey, found]
    refine wp_served served fun choice _ => ⟨rfl, ⟨?_, rfl, rfl⟩, fun key member => ?_⟩
    · intro key other
      exact Function.update_of_ne (fun same => other (List.mem_singleton.mpr same)) ..
    · rw [List.mem_singleton.mp member]
      have left (later : Stored) (found' : (server.write d.key choice.deleted
          fun _ => ⟨rfl, rfl⟩).objects d.key = some later) :
          later.object = choice.deleted stored.object := by
        rw [write_objects, Function.update_self, found, Option.bind_some] at found'
        unfold Stored.settled at found'
        split at found'
        · cases found'
        · rw [← Option.some.inj found']
      refine ⟨fun later found' => ?_, fun later found' => ?_, fun later found' => ?_⟩
      · rw [left later found']
        exact lacks stored found
      · rw [left later found']
        cases set : stored.object.metadata.deletionTimestamp <;>
          simp [Choice.deleted, ObjectMeta.terminating, set]
      · refine ⟨stored, found, ?_⟩
        rw [left later found']
        exact fun f => id

/-- Removing a destination clears it. -/
theorem wp_removeDestination_alone (d : DestinationStatus) :
    (removeDestination d).wp (alone maker cache possible)
      (fun result after => result = .ok [] ∧ Clears [d.key] server after) server := by
  -- Both branches end by deleting an object that lacks the finalizer.
  have ending (middle : Server) (lacks : middle.Lacks d.key)
      (agree : Agree (· = d.key) server middle) (shrinks : Shrinks d.key server middle) :
      (deleteDestination d >>= fun errors =>
        (pure (.ok errors) : Async (Except ControllerError _))).wp (alone maker cache possible)
        (fun result after => result = .ok [] ∧ Clears [d.key] server after) middle := by
    rw [wp_bind]
    refine wp_imp ?_ (wp_deleteDestination_alone lacks)
    intro errors later deleted
    refine ⟨congrArg Except.ok deleted.1,
      (agree.mono fun key same => List.mem_singleton.mpr same).trans deleted.2.agree,
      fun key member => ?_⟩
    have cleared := deleted.2.cleared key member
    refine ⟨cleared.lacks, cleared.terminating, Shrinks.trans ?_ cleared.shrinks⟩
    rw [List.mem_singleton.mp member]
    exact shrinks
  unfold removeDestination
  have sameKey : d.api.key d.name = d.key := rfl
  cases found : server.objects d.key with
  | none =>
    have served (choice : Choice) : server.serve maker choice (.get d.api d.name) =
        (.error (.api 404 "not found"), server) := by simp only [serve, sameKey, found]
    refine wp_served served fun choice _ => ?_
    refine ending server (fun stored found' => ?_) (.refl _ _) (.of_eq rfl)
    rw [found] at found'
    cases found'
  | some stored =>
    have served (choice : Choice) : server.serve maker choice (.get d.api d.name) =
        (.ok stored.object, server) := by simp only [serve, sameKey, found]
    refine wp_served served fun choice _ => ?_
    have named : (ensureGvk stored.object d.api.resource).metadata.nameAny = d.name := by
      show stored.object.metadata.nameAny = d.name
      rw [ObjectMeta.nameAny, (server.named found).1]
      rfl
    dsimp only
    rw [wp_bind]
    refine wp_imp ?_ (wp_removeFinalizer_alone named found rfl)
    intro value middle released
    obtain ⟨-, agree, removed, absent⟩ := released
    by_cases carries : finalizer ∈ stored.object.metadata.finalizerList
    · have left := (removed carries).lacks found
      exact ending middle left.1 agree left.2
    · obtain rfl := absent carries
      refine ending middle (fun later found' => ?_) agree (.of_eq rfl)
      rw [found] at found'
      rw [← Option.some.inj found']
      exact carries

/-- `delete_destinations` clears all destinations and leaves none. -/
theorem wp_deleteDestinations_alone (destinations : List DestinationStatus) :
    (deleteDestinations destinations).wp (alone maker cache possible)
      (fun result after => result = .ok [] ∧ Clears (destinations.map (·.key)) server after)
      server := by
  induction destinations generalizing server with
  | nil => exact ⟨rfl, .refl _ _, fun key member => absurd member List.not_mem_nil⟩
  | cons d rest ih =>
    rw [deleteDestinations_cons, wp_bind]
    refine wp_imp ?_ (wp_removeDestination_alone d)
    intro result middle handled
    obtain ⟨settled, first⟩ := handled
    rw [settled]
    dsimp only
    rw [wp_bind]
    refine wp_imp ?_ ih
    intro result after left
    rw [left.1]
    exact ⟨rfl, first.cons left.2⟩

section InStep

variable {o : ObjectSyncRef} {event : ObjectSyncModifications}

/-- A run starts in step with the server. -/
theorem inStep_new {sync : ObjectSync} (found : server.syncs o.name = some sync)
    (present : sync.metadata.gone = false) : InStep o (.new sync) server :=
  ⟨found, rfl, present⟩

/-- Changing the status keeps the working copy in step. -/
theorem InStep.modify (inStep : InStep o event server) {change : ObjectSync → ObjectSync}
    (only : ∀ sync, change sync = { sync with status := (change sync).status }) :
    InStep o (event.modify change) server := by
  refine ⟨inStep.found, ?_, inStep.present⟩
  show change event.modified = { event.original with status := (change event.modified).status }
  rw [only event.modified]
  rw [inStep.kept]

/-- Requests address the ObjectSync. -/
theorem InStep.address (inStep : InStep o event server) : event.address = o.name := by
  have named := server.syncNamed inStep.found
  unfold ObjectSyncModifications.address
  rw [inStep.kept, ObjectMeta.nameAny, named.1, named.2]
  rfl

/-- The identity of the working copy. -/
theorem InStep.id (inStep : InStep o event server) : event.id = o := by
  have named := server.syncNamed inStep.found
  unfold ObjectSyncModifications.id ObjectSyncRef.ofSync
  rw [inStep.kept, ObjectMeta.nameAny, named.1, named.2]
  rfl

/-- Only the status of the ObjectSync differs, up to the resource version. -/
structure StatusOnly (before after : ObjectSync) : Prop where
  spec : after.spec = before.spec
  finalizers : after.metadata.finalizers = before.metadata.finalizers
  deletion : after.metadata.deletionTimestamp = before.metadata.deletionTimestamp
  name : after.metadata.name = before.metadata.name
  namespace_ : after.metadata.namespace_ = before.metadata.namespace_

/-- Differences in the status add up. -/
theorem StatusOnly.trans {first second third : ObjectSync} (earlier : StatusOnly first second)
    (later : StatusOnly second third) : StatusOnly first third :=
  ⟨later.spec.trans earlier.spec, later.finalizers.trans earlier.finalizers,
    later.deletion.trans earlier.deletion, later.name.trans earlier.name,
    later.namespace_.trans earlier.namespace_⟩

/-- What writing the status does. -/
structure WritesStatus (o : ObjectSyncRef) (event event' : ObjectSyncModifications)
    (server after : Server) : Prop where
  agree : AgreeBut o server after
  inStep : InStep o event' after
  persisted : event'.original.status = event.modified.status
  same : event'.modified.status = event.modified.status
  only : StatusOnly event.original event'.original

/-- Writing the status succeeds, and persists it. -/
theorem wp_replaceStatus_alone (inStep : InStep o event server) :
    event.replaceStatus.wp (alone maker cache possible) (fun value after => value.2 = .ok () ∧
      WritesStatus o event value.1 server after) server := by
  unfold ObjectSyncModifications.replaceStatus
  split
  · unfold ObjectSyncModifications.latest
    rw [inStep.address]
    have read (choice : Choice) : server.serve maker choice (.getSyncStatus o.name) =
        (.ok event.original, server) := by simp only [serve, inStep.found]
    refine wp_served read fun choice _ => ?_
    dsimp only
    rw [wp_bind]
    unfold ObjectSyncModifications.replaceStatusWith
    dsimp only
    rw [ObjectSyncModifications.address_withResourceVersion, inStep.address]
    generalize bodyEq : (event.modify (·.withResourceVersion
      event.original.metadata.resourceVersion)).modified = body
    have version : body.metadata.resourceVersion = event.original.metadata.resourceVersion := by
      rw [← bodyEq]
      rfl
    have status : body.status = event.modified.status := by
      rw [← bodyEq]
      rfl
    have write (choice : Choice) : server.serve maker choice (.replaceSyncStatus o.name body) =
        (.ok (choice.withStatus event.original body),
          server.writeSync o.name (choice.withStatus · body) fun _ => ⟨rfl, rfl⟩) := by
      simp only [serve, inStep.found, version, ne_eq, not_true_eq_false, if_false]
    refine wp_served write fun choice _ => ?_
    have stored : (server.writeSync o.name (choice.withStatus · body)
        fun _ => ⟨rfl, rfl⟩).syncs o.name = some (choice.withStatus event.original body) := by
      rw [writeSync_syncs, Function.update_self, inStep.found, Option.bind_some]
      unfold ObjectSync.settled
      exact if_neg (Bool.eq_false_iff.mp inStep.present)
    refine ⟨rfl, ?_, ⟨stored, rfl, inStep.present⟩, status, status, ⟨rfl, rfl, rfl, rfl, rfl⟩⟩
    exact ⟨rfl, fun name other => Function.update_of_ne other .., rfl⟩
  · rename_i unchanged
    have same : event.original.status = event.modified.status := by
      simpa [ObjectSyncModifications.statusHasChanged] using unchanged
    exact ⟨rfl, .refl _ _, inStep, same, rfl, ⟨rfl, rfl, rfl, rfl, rfl⟩⟩

/-- Updating a condition does nothing but that. -/
theorem wp_updateCondition_alone (inStep : InStep o event server) (condition : Condition) :
    (event.updateCondition condition).wp (alone maker cache possible) (fun event' after =>
      after = server ∧ InStep o event' server ∧ event'.original = event.original ∧
        event'.modified.destinationList = event.modified.destinationList) server := by
  unfold ObjectSyncModifications.updateCondition
  rw [wp_clock]
  intro _ same time after answered
  subst same
  have still : after = server := answered.1
  subst still
  refine ⟨trivial, rfl, ?_, rfl, ?_⟩
  · exact inStep.modify fun sync => rfl
  · exact ObjectSync.updateCondition_destinationList ..

end InStep

end Alone

end ObjectSyncer
