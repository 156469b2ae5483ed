import ObjectSyncer.Deletability
import ObjectSyncer.LiveControllers

/-!
# What runs leave when every request is served

Runs of `check`, `delete` and `reconcile` that nobody disturbs, by what they do to the
registrations, to what ObjectSyncs designate as their sources, and to the finalizers of objects.
-/
namespace ObjectSyncer

open Interaction Interaction.Program

/-- An ObjectSync of some name designates an object as its source. -/
def Server.SourceOf (server : Server) (key : ObjectKey) (name : NamespacedName) : Prop :=
  ∃ sync, server.syncs name = some sync ∧ sync.sourceKey = key

/-- The server stores no ObjectSync that is to be removed. -/
def Server.SyncsPresent (server : Server) : Prop :=
  ∀ name sync, server.syncs name = some sync → sync.metadata.gone = false

/-- Every ObjectSync is still there and designates the same source. -/
def Server.KeepsSources (before after : Server) : Prop :=
  ∀ name sync, before.syncs name = some sync → ∃ sync', after.syncs name = some sync' ∧
    sync'.spec = sync.spec ∧ sync'.metadata.namespace_ = sync.metadata.namespace_

section Designations

variable {maker : Option ObjectSyncRef} {before middle after : Server} {request : ApiRequest}
  {reply : Except KubeError (ApiValue request)}

/-- What does not change keeps its source. -/
theorem Server.KeepsSources.of_eq (same : after.syncs = before.syncs) :
    before.KeepsSources after :=
  fun _ sync found => ⟨sync, same ▸ found, rfl, rfl⟩

/-- Sources are kept from step to step. -/
theorem Server.KeepsSources.trans (first : before.KeepsSources middle)
    (second : middle.KeepsSources after) : before.KeepsSources after := by
  intro name sync found
  obtain ⟨sync', found', spec, namespace_⟩ := first name sync found
  obtain ⟨sync'', found'', spec', namespace_'⟩ := second name sync' found'
  exact ⟨sync'', found'', spec'.trans spec, namespace_'.trans namespace_⟩

/-- What was a source still is one. -/
theorem Server.SourceOf.kept {key : ObjectKey} {name : NamespacedName}
    (source : before.SourceOf key name) (keeps : before.KeepsSources after) :
    after.SourceOf key name := by
  obtain ⟨sync, found, designates⟩ := source
  obtain ⟨sync', found', spec, namespace_⟩ := keeps name sync found
  exact ⟨sync', found', (ObjectSync.sourceKey_eq spec namespace_).trans designates⟩

/-- Writing an ObjectSync makes none, and removes it when it is to be removed. -/
theorem Server.of_writeSync {name name' : NamespacedName} {change : ObjectSync → ObjectSync}
    {keeps : ∀ sync, (change sync).metadata.name = sync.metadata.name ∧
      (change sync).metadata.namespace_ = sync.metadata.namespace_} {sync : ObjectSync}
    (found : (before.writeSync name' change keeps).syncs name = some sync) :
    (∃ former, before.syncs name = some former) ∧
      (before.syncs name = some sync ∨ sync.metadata.gone = false) := by
  by_cases same : name = name'
  · subst same
    rw [writeSync_syncs, Function.update_self] at found
    obtain ⟨former, was, settled⟩ := Option.bind_eq_some_iff.mp found
    unfold ObjectSync.settled at settled
    split at settled
    · cases settled
    · rename_i remains
      rw [← Option.some.inj settled]
      exact ⟨⟨former, was⟩, .inr (Bool.eq_false_iff.mpr remains)⟩
  · rw [writeSync_syncs, Function.update_of_ne same] at found
    exact ⟨⟨sync, found⟩, .inl found⟩

/-- No request makes an ObjectSync, and one that is written is removed when it is to be removed. -/
theorem Effect.of_syncs (effect : Effect maker before request after) {name : NamespacedName}
    {sync : ObjectSync} (found : after.syncs name = some sync) :
    (∃ former, before.syncs name = some former) ∧
      (before.syncs name = some sync ∨ sync.metadata.gone = false) := by
  cases effect with
  | nothing => exact ⟨⟨sync, found⟩, .inl found⟩
  | write keeps target terminates => exact ⟨⟨sync, found⟩, .inl found⟩
  | create choice body creates target absent => exact ⟨⟨sync, found⟩, .inl found⟩
  | writeSync keeps target => exact Server.of_writeSync found

/-- A request leaves no ObjectSync to be removed. -/
theorem Effect.syncsPresent (effect : Effect maker before request after)
    (present : before.SyncsPresent) : after.SyncsPresent := by
  intro name sync found
  rcases (effect.of_syncs found).2 with former | remains
  · exact present name sync former
  · exact remains

/-- A request that does not patch an ObjectSync leaves all sources. -/
theorem Served.keepsSources (served : Served maker before request reply after)
    (unpatched : ∀ name patch, request ≠ .jsonPatchSync name patch)
    (present : before.SyncsPresent) : before.KeepsSources after := by
  obtain ⟨choice, eq⟩ := served
  have left : (before.serve maker choice request).2 = after := congrArg Prod.snd eq
  have effect := before.serve_effect maker choice request
  rw [left] at effect
  intro name sync found
  by_cases target : request.syncTarget = some name
  · cases request with
    | replaceSyncStatus name' body =>
      obtain rfl := Option.some.inj target
      simp only [Server.serve, found] at left
      split at left
      · exact ⟨sync, left ▸ found, rfl, rfl⟩
      · have stays : (choice.withStatus sync body).metadata.gone = false := present _ sync found
        refine ⟨choice.withStatus sync body, ?_, rfl, rfl⟩
        rw [← left, Server.writeSync_syncs, Function.update_self, found, Option.bind_some]
        exact if_neg (Bool.eq_false_iff.mp stays)
    | jsonPatchSync name' patch => exact absurd rfl (unpatched name' patch)
    | _ => cases target
  · exact ⟨sync, (effect.syncs_eq target).trans found, rfl, rfl⟩

end Designations

/-! ## Registrations after a run -/

/-- An ObjectSync is registered with the resource controller of a kind. -/
def Memory.RegisteredWith (memory : Memory) (gvk : GroupVersionKind) (o : ObjectSyncRef) : Prop :=
  ∃ inst, memory.instances o = some inst ∧ inst.gvk = gvk

section Instances

variable {memory : Memory} {o other : ObjectSyncRef}

/-- The entries of other ObjectSyncs stay as they are. -/
theorem Memory.exec_instances {locals : Locals} {op : MemoryOp} (permits : locals.Permits o op)
    (apart : other ≠ o) : (memory.exec op).2.instances other = memory.instances other := by
  cases op with
  | getInstance id => rw [exec_getInstance_instances]
  | removeInstance id =>
    obtain rfl : id = o := permits
    show (memory.discard id).instances other = _
    rw [discard_instances, Function.update_of_ne apart]
  | insertInstance id inst =>
    obtain ⟨rfl, -⟩ := permits
    show Function.update (memory.discard id).instances id (some inst) other = _
    rw [discard_instances, Function.update_of_ne apart, Function.update_of_ne apart]
  | dropInstance id inst => exact congrFun (release_instances memory inst) other
  | upgradeOrNew id gvk =>
    simp only [exec]
    split <;> rfl
  | register id controller src => rfl
  | lookup controller src => rfl

end Instances

/-- All requests of a run are served, and nobody else acts. -/
@[reducible] def serving (cache : List Namespace) :
    Contract (Option ObjectSyncRef × Call) (fun call => Reply call.2) Cluster where
  rely := Eq
  answers := Cluster.answers cache
  guarantee := fun _ _ _ _ => True

/-- Local variables of a run, while there is no other run. -/
def Locals.only (o : ObjectSyncRef) (locals : Locals) : ObjectSyncRef → Locals :=
  Function.update (fun _ => Locals.none) o locals

/-- After a run that leaves nothing in its local variables, nothing is left. -/
theorem Locals.only_none (o : ObjectSyncRef) : only o none = fun _ => none :=
  Function.update_eq_self o _

section Counting

variable {α : Type} {cluster : Cluster} {o : ObjectSyncRef} {cache : List Namespace}

/-- A run that handles its local variables properly keeps the counts exact, and the registrations of
all other ObjectSyncs. -/
theorem wp_counted {program : Async α} {post : α → Locals → Prop} {locals : Locals}
    (holds : program.wp (localRun o) post locals)
    (counted : cluster.system.memory.Counted
      (references cluster.system.memory (locals.only o))) :
    program.wp ((serving cache).under (some o)) (fun value after => ∃ last, post value last ∧
      after.system.memory.Counted (references after.system.memory (last.only o)) ∧
      ∀ other, other ≠ o →
        after.system.memory.instances other = cluster.system.memory.instances other) cluster := by
  induction program generalizing cluster locals with
  | done value => exact ⟨locals, holds, counted, fun _ _ => rfl⟩
  | call request resume ih =>
    intro moved same reply after answered
    obtain rfl : cluster = moved := same
    have honest : Honest request reply := Cluster.answers_honest answered
    obtain ⟨permitted, rest⟩ := holds locals rfl reply (locals.see request reply) ⟨honest, rfl⟩
    refine ⟨trivial, ?_⟩
    cases request with
    | memory op =>
      have proper : (locals.only o o).Permits o op := by
        rw [Locals.only, Function.update_self]
        exact permitted op rfl
      have value : (cluster.system.memory.exec op).1 = reply := congrArg Prod.fst answered.1.1
      have done : (cluster.system.memory.exec op).2 = after.system.memory :=
        congrArg Prod.snd answered.1.1
      have kept := Memory.Counted.preserved.exec counted proper trivial
      rw [value, done, Locals.only, Function.update_self, Function.update_idem] at kept
      refine wp_imp (fun value' later counted' => ?_) (ih reply rest kept)
      obtain ⟨last, ended, counted', others⟩ := counted'
      refine ⟨last, ended, counted', fun other apart => (others other apart).trans ?_⟩
      rw [← done]
      exact Memory.exec_instances (permitted op rfl) apart
    | _ =>
      have unchanged : after.system.memory = cluster.system.memory := by
        rcases System.memory_of_answered answered.1 with memory | unchanged
        · obtain ⟨op, same, -⟩ := memory
          cases same
        · exact unchanged
      rw [← unchanged] at counted ⊢
      exact ih reply rest counted

/-- What a run that only knows the server does to it, it does to it in the cluster. -/
theorem wp_serving_view {maker : Option ObjectSyncRef} {program : Async α}
    {post : α → Server → Prop}
    (view : program.wp (alone maker cache fun _ => True) post cluster.system.server) :
    program.wp ((serving cache).under maker) (fun value after => post value after.system.server)
      cluster := by
  refine wp_mono ?_ ?_ ?_ ?_ (wp_view ((serving cache).under maker) (·.system.server) ?_ ?_ view)
  · exact fun _ _ => id
  · exact fun _ _ _ _ => id
  · exact fun _ _ _ _ _ _ => trivial
  · exact fun _ _ => id
  · exact fun _ _ same => congrArg (·.system.server) same
  · exact fun _ _ _ _ answered =>
      ⟨System.server_of_answered answered.1, answered.2.1, trivial⟩

/-- An operation on the memory leaves the server. -/
theorem wp_serving_memory {maker : Option ObjectSyncRef} {op : MemoryOp}
    {next : MemoryReply op → Async α} {post : α → Cluster → Prop}
    (step : ∀ after : Cluster, after.system.server = cluster.system.server →
      after.system.memory = (cluster.system.memory.exec op).2 →
      (next (cluster.system.memory.exec op).1).wp ((serving cache).under maker) post after) :
    (Async.memory op >>= next).wp ((serving cache).under maker) post cluster := by
  rw [wp_memory]
  intro moved same reply after answered
  obtain rfl : cluster = moved := same
  obtain ⟨⟨replied, server⟩, -⟩ := answered
  have value : (cluster.system.memory.exec op).1 = reply := congrArg Prod.fst replied
  have memory : (cluster.system.memory.exec op).2 = after.system.memory := congrArg Prod.snd replied
  refine ⟨trivial, ?_⟩
  rw [← value]
  exact step after server memory.symm

/-- An invariant that every request of a program keeps holds at its end. -/
theorem wp_serving_requests {maker : Option ObjectSyncRef} {program : Async α} {result : α → Prop}
    {allowed : Call → Prop} {invariant : Cluster → Prop}
    (shape : program.wp (.requests Honest allowed) (fun value _ => result value) ())
    (kept : ∀ before call reply after, invariant before → allowed call →
      Cluster.answers cache before (maker, call) reply after → invariant after)
    (start : invariant cluster) :
    program.wp ((serving cache).under maker)
      (fun value after => result value ∧ invariant after) cluster := by
  refine wp_requests shape ?_ ?_ ?_ start
  · exact fun _ _ _ _ answered => Cluster.answers_honest answered
  · intro before moved holds same
    exact same ▸ holds
  · exact fun before call reply after holds permitted answered =>
      ⟨trivial, kept before call reply after holds permitted answered⟩

/-- Programs that use no memory leave it. -/
theorem wp_serving_outside {maker : Option ObjectSyncRef} {program : Async α} {result : α → Prop}
    (shape : program.wp (.requests Honest Outside) (fun value _ => result value) ()) :
    program.wp ((serving cache).under maker)
      (fun value after => result value ∧ after.system.memory = cluster.system.memory) cluster := by
  refine wp_serving_requests shape ?_ rfl
  intro before call reply after kept outside answered
  rcases System.memory_of_answered answered.1 with memory | unchanged
  · obtain ⟨op, rfl, -⟩ := memory
    exact outside.elim
  · exact unchanged.trans kept

/-- A call that uses no memory and patches no ObjectSync. -/
def Unpatching : Call → Prop
  | .memory _ | .api (.jsonPatchSync ..) => False
  | _ => True

/-- A call that neither patches an ObjectSync nor works on the memory, or that looks something up,
leaves the memory and the sources. -/
theorem System.keeps_of_answered {maker : Option ObjectSyncRef}
    {before after : System} {call : Call}
    {reply : Reply call} (answered : System.answersBy (Served maker) before call reply after)
    (unpatching : Unpatching call ∨ ∃ controller src, call = .memory (.lookup controller src))
    (present : before.server.SyncsPresent) :
    after.memory = before.memory ∧ after.server.SyncsPresent ∧
      before.server.KeepsSources after.server := by
  cases call with
  | memory op =>
    obtain ⟨controller, src, same⟩ := unpatching.resolve_left id
    obtain rfl := Call.memory.inj same
    exact ⟨(congrArg Prod.snd answered.1).symm, answered.2 ▸ present, .of_eq (by rw [answered.2])⟩
  | api request =>
    have unpatched (name : NamespacedName) (patch : ObjectSyncPatch) :
        request ≠ .jsonPatchSync name patch := by
      rintro rfl
      rcases unpatching with none | lookup
      · exact none
      · obtain ⟨controller, src, same⟩ := lookup
        cases same
    exact ⟨answered.2, (Faulty.effect (.served answered.1)).syncsPresent present,
      answered.1.keepsSources unpatched present⟩
  | namespaces =>
    obtain rfl : after = before := answered
    exact ⟨rfl, present, .of_eq rfl⟩
  | clock =>
    obtain rfl : after = before := answered
    exact ⟨rfl, present, .of_eq rfl⟩

/-- Programs that patch no ObjectSync and use no memory leave the memory and the sources. -/
theorem wp_unpatching {maker : Option ObjectSyncRef} {program : Async α} {result : α → Prop}
    (shape : program.wp (.requests Honest Unpatching) (fun value _ => result value) ())
    (present : cluster.system.server.SyncsPresent) :
    program.wp ((serving cache).under maker) (fun value after => result value ∧
      after.system.memory = cluster.system.memory ∧ after.system.server.SyncsPresent ∧
        cluster.system.server.KeepsSources after.system.server) cluster := by
  refine wp_serving_requests shape ?_ ⟨rfl, present, .of_eq rfl⟩
  intro before call reply after kept unpatching answered
  obtain ⟨memory, present, keeps⟩ := kept
  obtain ⟨memory', present', keeps'⟩ :=
    System.keeps_of_answered answered.1 (.inl unpatching) present
  exact ⟨memory'.trans memory, present', keeps.trans keeps'⟩

/-- Two accounts of the same run. -/
theorem wp_serving_and {maker : Option ObjectSyncRef} {program : Async α}
    {left right : α → Cluster → Prop}
    (first : program.wp ((serving cache).under maker) left cluster)
    (second : program.wp ((serving cache).under maker) right cluster) :
    program.wp ((serving cache).under maker)
      (fun value after => left value after ∧ right value after)
      cluster := by
  refine wp_mono ?_ ?_ ?_ ?_ (wp_and first second)
  · exact fun _ _ => id
  · exact fun _ _ _ _ => id
  · exact fun _ _ _ _ _ _ => trivial
  · exact fun _ _ => id

end Counting

namespace ObjectSyncController

section Finalizing

variable {maker : Option ObjectSyncRef} {cache : List Namespace} {possible : Server → Prop}
  {o : ObjectSyncRef} {sync : ObjectSync} {event : ObjectSyncModifications} {server after : Server}

/-- What adding the finalizer to an ObjectSync leaves. -/
structure Finalized (o : ObjectSyncRef) (sync : ObjectSync) (event : ObjectSyncModifications)
    (server after : Server) : Prop where
  agree : Server.AgreeBut o server after
  inStep : InStep o event after
  spec : event.original.spec = sync.spec
  namespace_ : event.original.metadata.namespace_ = sync.metadata.namespace_
  status : event.original.status = sync.status
  modified : event.modified.status = sync.status

/-- Adding the finalizer to an ObjectSync succeeds, where nobody interferes. -/
theorem wp_addFinalizerIfMissing_alone (found : server.syncs o.name = some sync)
    (present : sync.metadata.gone = false) :
    (addFinalizerIfMissing (.new sync)).wp (alone maker cache possible)
      (fun value after => value.2 = .ok () ∧ Finalized o sync value.1 server after) server := by
  have inStep := inStep_new found present
  unfold addFinalizerIfMissing
  dsimp only
  split
  · rename_i listed
    refine ⟨rfl, .refl o server, ⟨found, ?_, present⟩, rfl, rfl, rfl, rfl⟩
    have given : sync.metadata.finalizers = some sync.metadata.finalizerList := by
      have carries : finalizer ∈ sync.metadata.finalizers.getD [] := listed
      unfold ObjectMeta.finalizerList
      cases given : sync.metadata.finalizers with
      | none =>
        rw [given] at carries
        exact absurd carries List.not_mem_nil
      | some finalizers => rfl
    show { sync with
      metadata := { sync.metadata with finalizers := some sync.metadata.finalizerList } } = sync
    rw [← given]
  · rename_i missing
    generalize added : (ObjectSyncModifications.new sync).modified.metadata.finalizerList ++
      [finalizer] = finalizers
    have listed : finalizer ∈ finalizers := by
      rw [← added]
      exact List.mem_append_right _ (List.mem_singleton_self _)
    have differ : (ObjectSyncModifications.new sync).original.metadata.finalizers ≠
        some finalizers := by
      intro same
      refine missing ?_
      have given : sync.metadata.finalizers = some finalizers := same
      show finalizer ∈ sync.metadata.finalizers.getD []
      rw [given]
      exact listed
    rw [wp_bind]
    refine wp_imp ?_ (wp_patchFinalizers_alone inStep differ)
    intro value after patched
    obtain ⟨event', result⟩ := value
    obtain ⟨succeeded, choice, patch, unspecified, same, left⟩ := patched
    dsimp only at succeeded same
    rw [succeeded, same, left]
    have remains : (choice.patched sync patch (some finalizers)).metadata.gone = false :=
      ObjectMeta.present_of_finalizer listed
    refine ⟨rfl, ⟨rfl, fun name other => Function.update_of_ne other .., rfl⟩,
      ⟨?_, rfl, remains⟩, ?_, rfl, rfl, rfl⟩
    · rw [Server.writeSync_syncs, Function.update_self, found, Option.bind_some]
      exact if_neg (Bool.eq_false_iff.mp remains)
    · show patch.spec.getD sync.spec = sync.spec
      rw [unspecified, Option.getD_none]

/-- Adding the finalizer keeps all sources, and no ObjectSync is left to be removed. -/
theorem Finalized.keeps (finalized : Finalized o sync event server after)
    (found : server.syncs o.name = some sync) (present : server.SyncsPresent) :
    after.SyncsPresent ∧ server.KeepsSources after := by
  constructor
  · intro name stored there
    by_cases same : name = o.name
    · subst same
      rw [finalized.inStep.found] at there
      exact Option.some.inj there ▸ finalized.inStep.present
    · rw [finalized.agree.syncs name same] at there
      exact present name stored there
  · intro name stored there
    by_cases same : name = o.name
    · subst same
      rw [found] at there
      obtain rfl := Option.some.inj there
      exact ⟨event.original, finalized.inStep.found, finalized.spec, finalized.namespace_⟩
    · exact ⟨stored, (finalized.agree.syncs name same).trans there, rfl, rfl⟩

end Finalizing

end ObjectSyncController

/-- What a run of `check` leaves. -/
structure Checked (o : ObjectSyncRef) (sync : ObjectSync) (start after : Cluster) : Prop where
  present : after.system.server.SyncsPresent
  keeps : start.system.server.KeepsSources after.system.server
  /-- The registration is as before, or is one for the discovered kind. -/
  registered : after.system.memory.instances o = start.system.memory.instances o ∨
    ∃ gvk, start.system.server.discovered sync.spec.source = some gvk ∧
      after.system.memory.RegisteredWith gvk o
  /-- A move to another kind releases the destinations. -/
  moved : ∀ inst gvk, start.system.memory.instances o = some inst →
    start.system.server.discovered sync.spec.source = some gvk → inst.gvk ≠ gvk →
      ∀ d ∈ sync.destinationList, after.system.server.Lacks d.key

section Runs

variable {cluster start : Cluster} {o : ObjectSyncRef} {sync : ObjectSync}
  {event : ObjectSyncModifications} {cache : List Namespace} {maker : Option ObjectSyncRef}

/-- A working copy that is in step has its identity. -/
theorem InStep.of {server : Server} (inStep : InStep o event server) : event.Of o :=
  ⟨inStep.id, inStep.address⟩

/-- Adding an ObjectSync registers it with the resource controller of the kind. -/
theorem wp_add_serving (of : event.Of o) (gvk : GroupVersionKind) :
    (ObjectSyncController.add event gvk).wp ((serving cache).under maker) (fun _ after =>
      after.system.server = cluster.system.server ∧ after.system.memory.RegisteredWith gvk o)
      cluster := by
  unfold ObjectSyncController.add
  rw [of.identity]
  refine wp_serving_memory fun first same _ => ?_
  refine wp_serving_memory fun second same' _ => ?_
  refine @wp_serving_memory _ _ _ _ _ (fun _ => pure ()) _ fun third same'' memory => ?_
  refine ⟨same''.trans (same'.trans same), ?_⟩
  rw [memory]
  exact ⟨_, Function.update_self .., rfl⟩

/-- Publishing a condition leaves the objects, the memory and the sources. -/
theorem wp_publish_serving (inStep : InStep o event cluster.system.server)
    (present : cluster.system.server.SyncsPresent) (condition : Condition) :
    (ObjectSyncController.publish event condition).wp ((serving cache).under maker)
      (fun _ after => after.system.server.objects = cluster.system.server.objects ∧
        after.system.memory = cluster.system.memory ∧ after.system.server.SyncsPresent ∧
          cluster.system.server.KeepsSources after.system.server) cluster := by
  have view : (ObjectSyncController.publish event condition).wp (alone maker cache fun _ => True)
      (fun _ after => after.objects = cluster.system.server.objects) cluster.system.server := by
    unfold ObjectSyncController.publish
    rw [wp_bind]
    refine wp_imp ?_ (wp_updateCondition_alone inStep condition)
    intro event' now updated
    obtain ⟨rfl, inStep', -⟩ := updated
    exact wp_imp (fun _ _ written => written.2.agree.objects) (wp_replaceStatus_alone inStep')
  have shape : (ObjectSyncController.publish event condition).wp (.requests Honest Unpatching)
      (fun _ _ => True) () := by
    unfold ObjectSyncController.publish
    rw [wp_bind]
    refine wp_imp (fun event' _ _ => ?_)
      (ObjectSyncModifications.requests_updateCondition event condition trivial)
    refine wp_imp (fun _ _ _ => trivial) (event'.requests_replaceStatus fun request write => ?_)
    cases write <;> trivial
  refine wp_imp (fun _ after kept => ?_)
    (wp_serving_and (wp_serving_view view) (@wp_unpatching _ _ _ _ _ (fun _ => True) shape present))
  exact ⟨kept.1, kept.2.2⟩

/-- Deleting the destinations releases them, and leaves the memory and the sources. -/
theorem wp_deleteDestinations_serving (inStep : InStep o event cluster.system.server)
    (present : cluster.system.server.SyncsPresent) :
    (ObjectSyncController.deleteDestinations event).wp ((serving cache).under maker)
      (fun value after => (value.2 = .ok () ∧
        ObjectSyncController.Withdrawn o event value.1 cluster.system.server after.system.server ∧
        (∀ name, name ≠ o.name →
          after.system.server.syncs name = cluster.system.server.syncs name) ∧
        ∀ d ∈ event.modified.destinationList, after.system.server.Lacks d.key) ∧
        after.system.memory = cluster.system.memory ∧ after.system.server.SyncsPresent ∧
          cluster.system.server.KeepsSources after.system.server) cluster := by
  have shape := @ObjectSyncController.requests_deleteDestinations Unpatching event
    (fun d _ request removal => by cases removal <;> trivial) trivial
    (fun event' _ request write => by cases write <;> trivial)
  refine wp_imp (fun _ after kept => ⟨kept.1, kept.2.2⟩) (wp_serving_and
    (wp_serving_view (ObjectSyncController.wp_deleteDestinations_withdrawn inStep))
    (wp_unpatching shape present))

/-- What moving to another source leaves. -/
structure Moved (o : ObjectSyncRef) (gvk : GroupVersionKind)
    (event event' : ObjectSyncModifications) (start after : Cluster) : Prop where
  inStep : InStep o event' after.system.server
  present : after.system.server.SyncsPresent
  keeps : start.system.server.KeepsSources after.system.server
  registered : after.system.memory.RegisteredWith gvk o
  lacks : ∀ d ∈ event.modified.destinationList, after.system.server.Lacks d.key

/-- Moving an ObjectSync to another source succeeds, where all requests are served. -/
theorem wp_moveSource_serving (inStep : InStep o event cluster.system.server)
    (present : cluster.system.server.SyncsPresent) (gvk : GroupVersionKind) :
    (ObjectSyncController.moveSource event gvk).wp ((serving cache).under maker)
      (fun value after => value.2 = .ok () ∧ Moved o gvk event value.1 cluster after) cluster := by
  unfold ObjectSyncController.moveSource ObjectSyncController.remove
  refine wp_serving_memory fun removed same _ => ?_
  rw [← same] at inStep present
  rw [wp_bind]
  refine wp_imp ?_ (wp_deleteDestinations_serving inStep present)
  rintro ⟨event', result⟩ left ⟨⟨succeeded, withdrawn, -, lacks⟩, -, present, keeps⟩
  dsimp only at succeeded withdrawn
  rw [succeeded]
  dsimp only
  rw [wp_bind]
  refine wp_imp ?_ (wp_add_serving withdrawn.inStep.of gvk)
  rintro _ added ⟨same', registered⟩
  have inStep' := withdrawn.inStep
  rw [← same'] at inStep' present keeps lacks
  rw [same] at keeps
  exact ⟨rfl, inStep', present, keeps, registered, lacks⟩

/-- Registering an ObjectSync and reporting that leaves the sources. -/
theorem wp_register_serving (inStep : InStep o event cluster.system.server)
    (present : cluster.system.server.SyncsPresent) (gvk : GroupVersionKind)
    (condition : Condition) :
    (ObjectSyncController.add event gvk >>= fun _ =>
      ObjectSyncController.publish event condition).wp ((serving cache).under maker)
      (fun _ after => after.system.server.SyncsPresent ∧
        cluster.system.server.KeepsSources after.system.server ∧
        after.system.memory.RegisteredWith gvk o) cluster := by
  rw [wp_bind]
  refine wp_imp ?_ (wp_add_serving inStep.of gvk)
  rintro _ added ⟨same, registered⟩
  rw [← same] at inStep present
  refine wp_imp ?_ (wp_publish_serving inStep present condition)
  rintro _ after ⟨-, memory, present', keeps⟩
  rw [same] at keeps
  refine ⟨present', keeps, ?_⟩
  rw [memory]
  exact registered

/-- After a move, dropping the former instance and reporting the move keeps what the move leaves. -/
theorem wp_leave_serving {event' : ObjectSyncModifications} {gvk : GroupVersionKind}
    {id : ObjectSyncRef} {active : ObjectSyncInstance} {condition : Condition}
    (moved : Moved o gvk event event' start cluster) :
    (Async.memory (.dropInstance id active) >>= fun _ =>
      ObjectSyncController.publish event' condition).wp ((serving cache).under maker)
      (fun _ after => after.system.server.SyncsPresent ∧
        start.system.server.KeepsSources after.system.server ∧
        after.system.memory.RegisteredWith gvk o ∧
        ∀ d ∈ event.modified.destinationList, after.system.server.Lacks d.key) cluster := by
  refine wp_serving_memory fun dropped same memory => ?_
  have inStep := moved.inStep
  have present := moved.present
  rw [← same] at inStep present
  refine wp_imp ?_ (wp_publish_serving inStep present condition)
  rintro _ after ⟨objects, memory', present', keeps⟩
  rw [same] at objects keeps
  refine ⟨present', moved.keeps.trans keeps, ?_, fun d member stored there => ?_⟩
  · obtain ⟨inst, there, kind⟩ := moved.registered
    refine ⟨inst, ?_, kind⟩
    rw [memory', memory]
    exact (congrFun (Memory.release_instances _ _) o).trans there
  · rw [objects] at there
    exact moved.lacks d member stored there

/-- What a run of `check` does to its own registration, the sources and the destinations. -/
theorem wp_check_serving (found : start.system.server.syncs o.name = some sync)
    (present : start.system.server.SyncsPresent) :
    (ObjectSyncController.check (.new sync)).wp ((serving cache).under maker)
      (fun _ after => Checked o sync start after) start := by
  have of : (ObjectSyncModifications.new sync).Of o :=
    ObjectSyncModifications.of_new (start.system.server.syncNamed found).ofSync
  unfold ObjectSyncController.check
  rw [wp_bind]
  refine wp_imp ?_ (wp_serving_and
    (wp_serving_view (ObjectSyncController.wp_addFinalizerIfMissing_alone found
      (present _ _ found)))
    (wp_serving_outside (ObjectSyncController.of_addFinalizerIfMissing of)))
  rintro ⟨event, result⟩ now ⟨⟨succeeded, finalized⟩, -, memory⟩
  obtain ⟨present, keeps⟩ := finalized.keeps found present
  have inStep := finalized.inStep
  have spec : event.modified.spec = sync.spec := by
    rw [inStep.kept]
    exact finalized.spec
  dsimp only at succeeded inStep
  rw [succeeded]
  dsimp only
  rw [wp_bind]
  refine wp_imp ?_ (wp_serving_and
    (wp_serving_view (ObjectSyncController.wp_getGvk_alone event.modified.spec.source))
    (wp_serving_outside (@ObjectSyncController.requests_getGvk Outside _ trivial)))
  rintro result next ⟨⟨server, discovered, -⟩, -, memory'⟩
  rw [memory] at memory'
  have known : result.toOption = start.system.server.discovered sync.spec.source := by
    rw [discovered, spec, Server.discovered, Server.discovered, finalized.agree.apis]
  rw [← server] at inStep present keeps
  cases result with
  | error e =>
    refine ⟨present, keeps, .inl (by rw [memory']), fun inst gvk _ kind => ?_⟩
    rw [← known] at kind
    cases kind
  | ok currentGvk =>
    dsimp only
    refine wp_serving_memory fun middle same memory'' => ?_
    rw [inStep.id, memory'] at memory'' ⊢
    rw [← same] at inStep present keeps
    have instances : middle.system.memory.instances = start.system.memory.instances := by
      rw [memory'', Memory.exec_getInstance_instances]
    rw [Memory.exec_getInstance]
    cases registered : start.system.memory.instances o with
    | none =>
      dsimp only
      refine wp_imp ?_ (wp_register_serving inStep present currentGvk _)
      rintro _ after ⟨present', keeps', with_⟩
      refine ⟨present', keeps.trans keeps', .inr ⟨currentGvk, known.symm, with_⟩,
        fun inst gvk there => ?_⟩
      rw [registered] at there
      cases there
    | some active =>
      dsimp only
      split
      · rw [wp_bind]
        refine wp_imp ?_ (wp_moveSource_serving inStep present currentGvk)
        rintro ⟨event', result⟩ left ⟨succeeded', moved⟩
        dsimp only at succeeded' moved
        rw [succeeded']
        refine wp_imp ?_ (wp_leave_serving moved)
        rintro _ after ⟨present', keeps', with_, lacks⟩
        refine ⟨present', keeps.trans keeps', .inr ⟨currentGvk, known.symm, with_⟩,
          fun _ _ _ _ _ d member => lacks d ?_⟩
        rw [← ObjectSync.destinationList_eq_of_status finalized.modified] at member
        exact member
      · rename_i unchanged
        refine wp_serving_memory fun dropped same' memoryLeft => ?_
        rw [← same'] at present keeps
        refine ⟨present, keeps, .inl ?_, fun inst gvk there kind other => ?_⟩
        · rw [memoryLeft, ← instances]
          exact congrFun (Memory.release_instances _ _) o
        · rw [registered] at there
          rw [← known] at kind
          obtain rfl := Option.some.inj there
          obtain rfl := Option.some.inj kind
          refine absurd ?_ unchanged
          rw [ObjectSyncInstance.sourceChanged, bne_iff_ne.mpr other, Bool.true_or, Bool.true_or]

/-- What a run of `delete` leaves. -/
structure Retired (o : ObjectSyncRef) (sync : ObjectSync) (start after : Cluster) : Prop where
  present : after.system.server.SyncsPresent
  others : ∀ name, name ≠ o.name → after.system.server.syncs name = start.system.server.syncs name
  destinations : ∀ d ∈ sync.destinationList, after.system.server.Lacks d.key
  source : ∀ gvk, start.system.server.discovered sync.spec.source = some gvk →
    after.system.server.Lacks
      (DynamicApi.key ⟨gvk, sync.sourceNamespace.getD ""⟩ sync.sourceName)

/-- A request that writes nothing but an ObjectSync of some name. -/
def WritesOnly (name : NamespacedName) (call : Call) : Prop :=
  ∃ request, call = .api request ∧ request.target = none ∧
    ∀ name', request.syncTarget = some name' → name' = name

/-- Removing the finalizer of an ObjectSync leaves all objects and the other ObjectSyncs. -/
theorem wp_removeFinalizer_serving (of : event.Of o)
    (present : cluster.system.server.SyncsPresent) :
    (ObjectSyncController.removeFinalizer event).wp ((serving cache).under maker)
      (fun _ after => after.system.server.objects = cluster.system.server.objects ∧
        after.system.server.SyncsPresent ∧ ∀ name, name ≠ o.name →
          after.system.server.syncs name = cluster.system.server.syncs name) cluster := by
  have address : event.address = o.name := of.addressed
  have shape := @ObjectSyncController.requests_removeFinalizer (WritesOnly o.name) event
    ⟨_, rfl, rfl, fun _ same => by cases same⟩
    (fun patch => ⟨_, rfl, rfl, fun name' same => (Option.some.inj same).symm.trans address⟩)
  refine wp_imp (fun _ _ kept => kept.2)
    (wp_serving_requests shape ?_ ⟨rfl, present, fun _ _ => rfl⟩)
  intro before call reply after kept only answered
  obtain ⟨objects, present, others⟩ := kept
  obtain ⟨request, rfl, target, syncTarget⟩ := only
  have effect := Faulty.effect (.served answered.1.1)
  refine ⟨?_, effect.syncsPresent present, fun name other => ?_⟩
  · rw [← objects]
    funext key
    refine effect.objects_eq ?_
    rw [target]
    rintro ⟨⟩
  · rw [← others name other]
    exact effect.syncs_eq fun here => other (syncTarget name here)

/-- What a run of `delete` does to the sources and the destinations. -/
theorem wp_delete_serving (found : start.system.server.syncs o.name = some sync)
    (present : start.system.server.SyncsPresent) :
    (ObjectSyncController.delete (.new sync)).wp ((serving cache).under maker)
      (fun _ after => Retired o sync start after) start := by
  have inStep := inStep_new found (present _ _ found)
  unfold ObjectSyncController.delete ObjectSyncController.remove
  refine wp_serving_memory fun removed same _ => ?_
  rw [← same] at inStep present
  rw [wp_bind]
  refine wp_imp ?_ (wp_deleteDestinations_serving inStep present)
  rintro ⟨event, result⟩ left ⟨⟨succeeded, withdrawn, others, destinations⟩, -, present, -⟩
  dsimp only at succeeded withdrawn
  rw [succeeded]
  dsimp only
  have spec : event.modified.spec = sync.spec := by
    rw [withdrawn.inStep.kept]
    exact withdrawn.only.spec
  have namespace_ : event.modified.metadata.namespace_ = sync.metadata.namespace_ := by
    rw [withdrawn.inStep.kept]
    exact withdrawn.only.namespace_
  have sourceName : event.modified.sourceName = sync.sourceName := by
    rw [ObjectSync.sourceName, spec, ObjectSync.sourceName]
  have sourceNamespace : event.modified.sourceNamespace = sync.sourceNamespace := by
    rw [ObjectSync.sourceNamespace, spec, namespace_, ObjectSync.sourceNamespace]
  have known : left.system.server.discovered sync.spec.source =
      start.system.server.discovered sync.spec.source := by
    rw [Server.discovered, Server.discovered, withdrawn.apis, same]
  rw [wp_bind]
  refine wp_imp ?_ (wp_serving_view (ObjectSyncController.wp_releaseSource_alone event))
  rintro result released ⟨syncs, keepsLacking, lacks, -⟩
  have present' : released.system.server.SyncsPresent := by
    unfold Server.SyncsPresent
    rw [syncs]
    exact present
  have retired : Retired o sync start released := by
    refine ⟨present', fun name other => ?_, fun d member => keepsLacking _ (destinations d member),
      fun gvk kind => ?_⟩
    · rw [syncs, others name other, same]
    · rw [spec, sourceName, sourceNamespace] at lacks
      exact lacks gvk (known.trans kind)
  cases result with
  | error e => exact retired
  | ok =>
    dsimp only
    rw [wp_bind]
    refine wp_imp ?_ (wp_removeFinalizer_serving withdrawn.inStep.of present')
    rintro _ after ⟨objects, present'', others'⟩
    have still (key : ObjectKey) (lacking : released.system.server.Lacks key) :
        after.system.server.Lacks key := by
      intro stored there
      rw [objects] at there
      exact lacking stored there
    exact ⟨present'', fun name other => (others' name other).trans (retired.others name other),
      fun d member => still _ (retired.destinations d member),
      fun gvk kind => still _ (retired.source gvk kind)⟩

end Runs

/-- A call that marks objects of one kind only, patches no ObjectSync and leaves the memory. -/
def MarksOnly (gvk : GroupVersionKind) (call : Option ObjectSyncRef × Call) : Prop :=
  (Unpatching call.2 ∨ ∃ controller src, call.2 = .memory (.lookup controller src)) ∧
    ∀ entry ∈ placedBy call, entry.1 = gvk

section Marks

variable {gvk : GroupVersionKind} {id : ObjectSyncRef} {call : Call}

/-- Work for an ObjectSync marks nothing. -/
theorem marksOnly_some (unpatching : Unpatching call) : MarksOnly gvk (some id, call) :=
  ⟨.inl unpatching, fun _ member => absurd member List.not_mem_nil⟩

/-- Work for a source marks what it applies the finalizer to. -/
theorem marksOnly_none (unpatching : Unpatching call)
    (applies : ∀ api name body, call = .api (.apply api name body) → api.resource = gvk) :
    MarksOnly gvk (none, call) := by
  refine ⟨.inl unpatching, fun entry member => ?_⟩
  cases call with
  | api request =>
    cases request with
    | apply api name body =>
      rw [List.mem_singleton.mp member]
      exact applies api name body rfl
    | _ => exact absurd member List.not_mem_nil
  | _ => exact absurd member List.not_mem_nil

/-- A run of a resource controller marks objects of its own kind. -/
theorem ResourceControllerImpl.requests_reconcile (self : ResourceControllerImpl)
    (object : DynamicObject) :
    (self.reconcile object).wp (.requests (fun call reply => Honest call.2 reply)
      (MarksOnly self.gvk)) (fun _ _ => True) () := by
  have plain (call : Call) (unpatching : Unpatching call)
      (other : ∀ api name body, call ≠ .api (.apply api name body)) :
      MarksOnly self.gvk (none, call) :=
    marksOnly_none unpatching fun api name body same => absurd same (other api name body)
  have releases (api : DynamicApi) (source : DynamicObject) :=
    @requests_removeFinalizer (fun call => MarksOnly self.gvk (none, call)) api source finalizer
      fun patch => plain _ trivial fun _ _ _ => nofun
  unfold reconcile
  dsimp only
  rw [wp_bind, wp_label]
  refine wp_imp ?_ (?_ : (self.lookupObjectSyncsForSource (.ofObject object)).wp
    (.requests Honest fun call => MarksOnly self.gvk (none, call)) (fun _ _ => True) ())
  · intro value _ _
    cases value with
    | none =>
      dsimp only
      split
      · rw [wp_bind, wp_label]
        refine wp_imp ?_ (releases _ _)
        intro value _ _
        obtain ⟨source', result⟩ := value
        cases result <;> trivial
      · trivial
    | some objs =>
      dsimp only
      split
      · rw [wp_bind]
        refine wp_imp ?_ (@wp_deleteAll _ _ (fun _ => True) _ objs (fun rs _ _ _ => ?_) trivial)
        · intro succeeded _ _
          split
          · rw [wp_bind, wp_label]
            exact wp_imp (fun _ _ _ => trivial) (releases _ _)
          · trivial
        · rw [wp_label]
          refine wp_imp (fun _ _ _ => trivial) (@ObjectSyncController.requests_deleteDestinations
            (fun call => MarksOnly self.gvk (some rs.id, call)) rs ?_ (marksOnly_some trivial) ?_)
          · exact fun d _ request removal => marksOnly_some (by cases removal <;> trivial)
          · exact fun event' _ request write => marksOnly_some (by cases write <;> trivial)
      · rw [wp_bind, wp_label]
        refine wp_imp ?_ (@requests_addFinalizerIfMissing
          (fun call => MarksOnly self.gvk (none, call)) _ _ _ ?_)
        · intro value _ _
          rw [wp_bind]
          refine wp_imp (fun _ _ _ => trivial)
            (@wp_reconcileAll _ _ (fun _ => True) _ self _ objs (fun rs _ _ _ => ?_) trivial)
          rw [wp_label]
          refine wp_imp (fun _ _ _ => trivial) (@requests_reconcileSource
            (fun call => MarksOnly self.gvk (some rs.id, call)) self rs _ (marksOnly_some trivial)
            (marksOnly_some trivial) ?_ ?_ ?_)
          · exact fun d request removal => marksOnly_some (by cases removal <;> trivial)
          · exact fun api name request upsert => marksOnly_some (by cases upsert <;> trivial)
          · exact fun event' _ request write => marksOnly_some (by cases write <;> trivial)
        · refine marksOnly_none trivial fun api name body same => ?_
          cases same
          rfl
  · unfold lookupObjectSyncsForSource
    split
    · rw [wp_memory]
      intro _ _ reply _ _
      refine ⟨⟨.inr ⟨_, _, rfl⟩, fun _ member => absurd member List.not_mem_nil⟩, ?_⟩
      cases reply with
      | none => trivial
      | some refs =>
        dsimp only
        split
        · trivial
        · rw [wp_bind]
          exact wp_imp (fun _ _ _ => trivial) (@requests_fetchObjectSyncs
            (fun call => MarksOnly self.gvk (none, call)) _ refs
            fun _ _ => plain _ trivial fun _ _ _ => nofun)
    · trivial

/-- What a run of `reconcile` does to the memory, the sources and the marks. -/
theorem wp_reconcile_serving {start : Cluster} {cache : List Namespace}
    (controller : ResourceControllerImpl) (object : DynamicObject)
    (present : start.system.server.SyncsPresent) :
    (controller.reconcile object).wp (serving cache) (fun _ after =>
      after.system.memory = start.system.memory ∧ after.system.server.SyncsPresent ∧
        start.system.server.KeepsSources after.system.server ∧
        ∀ entry ∈ after.placed, entry ∈ start.placed ∨ entry.1 = controller.gvk) start := by
  refine wp_imp (fun _ _ kept => kept.2) (wp_requests (controller.requests_reconcile object)
    ?_ ?_ ?_ ⟨rfl, present, .of_eq rfl, fun _ => .inl⟩)
  · exact fun _ _ _ _ answered => Cluster.answers_honest answered
  · intro before moved kept same
    exact same ▸ kept
  · intro before call reply after kept marks answered
    obtain ⟨memory, present, keeps, placed⟩ := kept
    obtain ⟨memory', present', keeps'⟩ := System.keeps_of_answered answered.1 marks.1 present
    refine ⟨trivial, memory'.trans memory, present', keeps.trans keeps', fun entry member => ?_⟩
    rw [answered.2.2.2] at member
    rcases List.mem_append.mp (List.mem_filter.mp member).1 with before' | marked
    · exact placed entry before'
    · exact .inr (marks.2 entry marked)

end Marks

end ObjectSyncer
