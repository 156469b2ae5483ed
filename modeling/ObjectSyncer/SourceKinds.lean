import ObjectSyncer.History
import ObjectSyncer.Registration

/-!
# The kinds of sources

A resource controller finds the ObjectSyncs of a source by the namespace and the name of the source,
and so does its check of what it then reads. Of the kind of the source only the registration takes
care, which is changed later than the source itself.
-/
namespace ObjectSyncer

open Interaction Interaction.Program

namespace Memory

variable {memory : Memory} {controller : ControllerId} {gvk : GroupVersionKind} {src : SourceRef}
  {id : ObjectSyncRef}

/-- A changed `sources` map is the one asked for. -/
theorem sources_changeSources_cases (memory : Memory) (controller other : ControllerId)
    (change : Registry → Registry) :
    (memory.changeSources controller change).sources other = memory.sources other ∨
      other = controller ∧
        (memory.changeSources controller change).sources other = change (memory.sources other) := by
  cases known : memory.kind controller with
  | some gvk =>
    have changed := @sources_changeSources memory controller other change (by rw [known]; rfl)
    by_cases same : other = controller
    · rw [if_pos same] at changed
      exact .inr ⟨same, by rw [changed, same]⟩
    · rw [if_neg same] at changed
      exact .inl changed
  | none =>
    have absent : memory.controllers controller = none := Option.map_eq_none_iff.mp known
    have still : (memory.changeSources controller change).controllers = memory.controllers := by
      simp [changeSources, absent]
    left
    unfold sources
    rw [still]

/-- Dropping a handle registers nothing. -/
theorem registered_of_dropHandle {handle : ObjectSyncHandle}
    (registered : ((memory.dropHandle handle).sources controller).Registered src id) :
    (memory.sources controller).Registered src id := by
  unfold dropHandle at registered
  dsimp only at registered
  split at registered
  · rcases sources_changeSources_cases { memory with handles := memory.handles.release handle }
      handle.sources controller (·.dropHandle handle.src handle.crd) with same | ⟨-, dropped⟩
    · rw [same] at registered
      exact registered
    · rw [dropped] at registered
      exact ((Collections.SetMap.holds_remove ..).mp registered).1
  · exact registered

/-- Discarding an instance registers nothing. -/
theorem registered_of_discard {other : ObjectSyncRef}
    (registered : ((memory.discard other).sources controller).Registered src id) :
    (memory.sources controller).Registered src id := by
  unfold discard at registered
  split at registered
  · exact registered
  · rename_i inst found
    exact @registered_of_dropHandle
      { memory with instances := Function.update memory.instances other none } controller src id
      inst.resourceControllerHandle registered

/-- Only the operation `register` registers an ObjectSync. -/
theorem registered_of_exec {op : MemoryOp}
    (registered : ((memory.exec op).2.sources controller).Registered src id) :
    (memory.sources controller).Registered src id ∨ op = .register id controller src := by
  cases op with
  | getInstance other =>
    left
    unfold exec at registered
    dsimp only at registered
    split at registered <;> exact registered
  | removeInstance other => exact .inl (registered_of_discard registered)
  | insertInstance other inst => exact .inl (registered_of_discard registered)
  | dropInstance other inst => exact .inl (registered_of_dropHandle registered)
  | upgradeOrNew other gvk =>
    left
    unfold exec at registered
    dsimp only at registered
    split at registered
    · exact registered
    · by_cases new : controller = memory.nextController
      · subst new
        have empty : (memory.start gvk).sources memory.nextController = ∅ := by
          simp [sources, start]
        have bare : ((memory.start gvk).sources memory.nextController).Registered src id :=
          registered
        rw [empty] at bare
        exact absurd bare (Collections.SetMap.not_holds_empty src id)
      · have same : (memory.start gvk).sources controller = memory.sources controller := by
          simp [sources, start, new]
        have kept : ((memory.start gvk).sources controller).Registered src id := registered
        rwa [same] at kept
  | register other controller' src' =>
    have kept : ((memory.changeSources controller' (·.register src' other)).sources
        controller).Registered src id := registered
    rcases sources_changeSources_cases memory controller' controller (·.register src' other)
      with same | ⟨here, added⟩
    · rw [same] at kept
      exact .inl kept
    · rw [added] at kept
      rcases (Collections.SetMap.holds_add ..).mp kept with ⟨rfl, rfl⟩ | before
      · rw [here]
        exact .inr rfl
      · exact .inl before
  | lookup controller' src' => exact .inl registered

/-- Identities of resource controllers are not used again. -/
def Fresh (memory : Memory) : Prop :=
  ∀ controller, memory.nextController ≤ controller → memory.kind controller = none

/-- Dropping an instance leaves the kinds. -/
theorem kind_discard (memory : Memory) (other : ObjectSyncRef) (controller : ControllerId) :
    (memory.discard other).kind controller = memory.kind controller := by
  unfold discard
  split
  · rfl
  · exact kind_dropHandle _ controller _

/-- Dropping an instance starts nothing. -/
theorem nextController_discard (memory : Memory) (other : ObjectSyncRef) :
    (memory.discard other).nextController = memory.nextController := by
  unfold discard
  split
  · rfl
  · rename_i inst found
    exact (dropHandle_frame { memory with instances := Function.update memory.instances other none }
      inst.resourceControllerHandle).2.2.2.1

/-- An operation leaves the kinds, or starts a resource controller. -/
theorem kind_exec_cases (memory : Memory) (op : MemoryOp) :
    ((∀ controller, (memory.exec op).2.kind controller = memory.kind controller) ∧
        (memory.exec op).2.nextController = memory.nextController) ∨
      ∃ gvk, (∀ controller, (memory.exec op).2.kind controller =
          (memory.start gvk).kind controller) ∧
        (memory.exec op).2.nextController = memory.nextController + 1 ∧
        ∀ src id, ¬((memory.exec op).2.sources memory.nextController).Registered src id := by
  cases op with
  | getInstance other =>
    left
    unfold exec
    dsimp only
    split <;> exact ⟨fun _ => rfl, rfl⟩
  | removeInstance other =>
    exact .inl ⟨memory.kind_discard other, memory.nextController_discard other⟩
  | insertInstance other inst =>
    exact .inl ⟨memory.kind_discard other, memory.nextController_discard other⟩
  | dropInstance other inst =>
    exact .inl ⟨fun controller => kind_dropHandle memory controller _,
      (dropHandle_frame memory inst.resourceControllerHandle).2.2.2.1⟩
  | upgradeOrNew other gvk =>
    unfold exec
    dsimp only
    split
    · exact .inl ⟨fun _ => rfl, rfl⟩
    · refine .inr ⟨gvk, fun _ => rfl, rfl, fun src id registered => ?_⟩
      have empty : (memory.start gvk).sources memory.nextController = ∅ := by
        simp [sources, start]
      have bare : ((memory.start gvk).sources memory.nextController).Registered src id := registered
      rw [empty] at bare
      exact Collections.SetMap.not_holds_empty src id bare
  | register other controller src =>
    exact .inl ⟨fun other' => kind_register other controller other' src, rfl⟩
  | lookup controller src => exact .inl ⟨fun _ => rfl, rfl⟩

/-- An operation on the memory leaves identities that are not used again. -/
theorem Fresh.exec (fresh : memory.Fresh) (op : MemoryOp) : (memory.exec op).2.Fresh := by
  rcases memory.kind_exec_cases op with ⟨kinds, next⟩ | ⟨gvk, kinds, next, -⟩
  · intro controller beyond
    rw [next] at beyond
    rw [kinds]
    exact fresh controller beyond
  · intro controller beyond
    rw [next] at beyond
    have other : controller ≠ memory.nextController := Nat.ne_of_gt beyond
    rw [kinds, kind_start, if_neg other]
    exact fresh controller (Nat.le_of_succ_le beyond)

/-- The kinds of the resource controllers that were started stay. -/
theorem Fresh.kind_exec (fresh : memory.Fresh) {op : MemoryOp}
    (kind : memory.kind controller = some gvk) :
    (memory.exec op).2.kind controller = some gvk := by
  rcases memory.kind_exec_cases op with ⟨kinds, -⟩ | ⟨gvk', kinds, -⟩
  · rw [kinds]
    exact kind
  · rw [kinds, kind_start, if_neg, kind]
    rintro rfl
    rw [fresh _ le_rfl] at kind
    cases kind

/-- Where something is registered, the kind of the resource controller was there before. -/
theorem kind_of_registered {op : MemoryOp}
    (registered : ((memory.exec op).2.sources controller).Registered src id)
    (kind : (memory.exec op).2.kind controller = some gvk) : memory.kind controller = some gvk := by
  rcases memory.kind_exec_cases op with ⟨kinds, -⟩ | ⟨gvk', kinds, -, bare⟩
  · rw [kinds] at kind
    exact kind
  · rw [kinds, kind_start] at kind
    by_cases new : controller = memory.nextController
    · subst new
      exact absurd registered (bare src id)
    · rwa [if_neg new] at kind

end Memory

/-! ## Runs of both controllers -/

/-- Who runs: the main controller for an ObjectSync, or a resource controller for a source. -/
inductive Worker where
  | main (id : ObjectSyncRef)
  | source (self : ResourceControllerImpl) (src : SourceRef)
  deriving DecidableEq

/-- What a run has looked up and what it has fetched. -/
structure Seen where
  looked : List ObjectSyncRef
  fetched : List ObjectSync

namespace Seen

/-- What a run has seen at its start. -/
def none : Seen := ⟨[], []⟩

/-- What a run has seen after a call. -/
def see (seen : Seen) : (call : Call) → Reply call → Seen
  | .memory (.lookup ..), found => { seen with looked := found.getD [] }
  | .api (.getSync _), .ok sync => { seen with fetched := sync :: seen.fetched }
  | _, _ => seen

end Seen

/-- The system with what each run has seen. -/
structure Dispatch where
  system : System
  seen : Worker → Seen

/-- The source of an ObjectSync has the group and the kind of a resource controller. -/
def ObjectSync.OfKind (sync : ObjectSync) (gvk : GroupVersionKind) : Prop :=
  sync.spec.source.group = gvk.group ∧ sync.spec.source.kind = gvk.kind

/-- A resource controller of a kind knows an ObjectSync under a source: the ObjectSync is registered
there, or a run has looked it up. -/
def Dispatch.Known (state : Dispatch) (gvk : GroupVersionKind) (src : SourceRef)
    (id : ObjectSyncRef) : Prop :=
  (∃ controller, state.system.memory.kind controller = some gvk ∧
      (state.system.memory.sources controller).Registered src id) ∨
    ∃ self : ResourceControllerImpl, self.gvk = gvk ∧ id ∈ (state.seen (.source self src)).looked

/-- An ObjectSync that gets another source gets one of the kind of each resource controller that
knows it under the namespace and the name of that source. -/
def KeepsKinds (before after : Dispatch) : Prop :=
  ∀ id sync, after.system.server.syncs id.name = some sync →
    (∀ old, before.system.server.syncs id.name = some old → old.sourceKey ≠ sync.sourceKey) →
      ∀ gvk, before.Known gvk (SourceRef.ofSync sync) id → sync.OfKind gvk

/-- An ObjectSync is registered with a resource controller of the kind of its source, unless its
source has another namespace or name by then. -/
def RegistersKind (state : Dispatch) : Call → Prop
  | .memory (.register id controller src) => ∀ gvk sync,
    state.system.memory.kind controller = some gvk →
      state.system.server.syncs id.name = some sync → SourceRef.ofSync sync = src → sync.OfKind gvk
  | _ => True

/-- What a step may do to sources and registrations. -/
def RespectsKinds (before : Dispatch) (call : Option Call) (after : Dispatch) : Prop :=
  KeepsKinds before after ∧ ∀ request, call = some request → RegistersKind before request

/-- Runs of the main controller for ObjectSyncs and of resource controllers for sources, with any
replies, while users and others change the server at will. The steps may be restricted. -/
def dispatching (meets : Dispatch → Option Call → Dispatch → Prop) :
    Rules Worker (Option ObjectSyncRef × Call) (fun call => Reply call.2) Dispatch Unit where
  starts
    | .main id, before, program, after => ∃ configuration sync, ObjectSyncRef.ofSync sync = id ∧
        program = ((ObjectSyncController.reconcile configuration sync).label none >>=
          fun _ => pure ()) ∧ after = before
    | .source self src, before, program, after => ∃ object, SourceRef.ofObject object = src ∧
        before.system.memory.kind self.sources = some self.gvk ∧
        program = (self.reconcile object >>= fun _ => pure ()) ∧
        after = { before with seen := Function.update before.seen (.source self src) Seen.none }
  answers := fun worker before call reply after =>
    System.answersBy (Faulty call.1) before.system call.2 reply after.system ∧
      meets before (some call.2) after ∧
      after.seen = Function.update before.seen worker ((before.seen worker).see call.2 reply)
  ends := fun worker before _ after =>
    after = { before with seen := Function.update before.seen worker Seen.none }
  moves := fun before after =>
    after.system.memory = before.system.memory ∧ after.seen = before.seen ∧ meets before none after

/-- The identities of resource controllers are fresh, and whatever a resource controller knows under
its present namespace and name is of its kind. -/
structure Dispatch.Sorted (state : Dispatch) : Prop where
  fresh : state.system.memory.Fresh
  kinds : ∀ gvk id sync, state.system.server.syncs id.name = some sync →
    state.Known gvk (SourceRef.ofSync sync) id → sync.OfKind gvk

section Steps

variable {before after : Dispatch}

/-- ObjectSyncs with the same source have the same reference and are of the same kinds. -/
theorem ObjectSync.of_sourceKey {left right : ObjectSync}
    (same : left.sourceKey = right.sourceKey) :
    SourceRef.ofSync left = SourceRef.ofSync right ∧
      ∀ gvk, left.OfKind gvk → right.OfKind gvk := by
  have fields := ObjectKey.mk.injEq .. ▸ same
  obtain ⟨group, kind, namespace_, name⟩ := fields
  constructor
  · rw [SourceRef.ofSync, SourceRef.ofSync, namespace_, name]
  · intro gvk ofKind
    exact ⟨group.symm.trans ofKind.1, kind.symm.trans ofKind.2⟩

/-- A step that respects the kinds leaves everything sorted, when all that is known afterwards was
known before or is registered by the step. -/
theorem Dispatch.Sorted.step (sorted : before.Sorted) {call : Option Call}
    (respects : RespectsKinds before call after) (fresh : after.system.memory.Fresh)
    (known : ∀ gvk src id, after.Known gvk src id → before.Known gvk src id ∨
      ∃ controller, call = some (.memory (.register id controller src)) ∧
        before.system.memory.kind controller = some gvk ∧
        after.system.server = before.system.server) : after.Sorted := by
  refine ⟨fresh, fun gvk id sync found knows => ?_⟩
  rcases known gvk _ id knows with already | ⟨controller, registers, kind, same⟩
  · by_cases edited : ∀ old, before.system.server.syncs id.name = some old →
        old.sourceKey ≠ sync.sourceKey
    · exact respects.1 id sync found edited gvk already
    · push Not at edited
      obtain ⟨old, there, same⟩ := edited
      obtain ⟨ref, kinds⟩ := ObjectSync.of_sourceKey same
      rw [← ref] at already
      exact kinds gvk (sorted.kinds gvk id old there already)
  · have right := respects.2 _ registers
    rw [same] at found
    exact right gvk sync kind found rfl

/-- What a worker has seen does not matter to what others have. -/
theorem Dispatch.Known.of_cleared {worker : Worker} {gvk : GroupVersionKind} {src : SourceRef}
    {id : ObjectSyncRef}
    (known : Known { before with seen := Function.update before.seen worker Seen.none } gvk src
      id) : before.Known gvk src id := by
  rcases known with registered | ⟨self, kind, looked⟩
  · exact .inl registered
  · refine .inr ⟨self, kind, ?_⟩
    dsimp only at looked
    by_cases same : Worker.source self src = worker
    · rw [same, Function.update_self] at looked
      cases looked
    · rw [Function.update_of_ne same] at looked
      exact looked

/-- A run that starts or ends leaves everything sorted. -/
theorem Dispatch.Sorted.cleared (sorted : before.Sorted) (worker : Worker) :
    Sorted { before with seen := Function.update before.seen worker Seen.none } :=
  ⟨sorted.fresh, fun gvk id sync found known => sorted.kinds gvk id sync found known.of_cleared⟩

/-- A resource controller looks up its own source in its own registry. -/
def LooksUpOwn (before : Dispatch) (worker : Worker) (call : Call) : Prop :=
  ∀ self src controller src', worker = .source self src →
    call = .memory (.lookup controller src') →
      before.system.memory.kind self.sources = some self.gvk ∧ controller = self.sources ∧
        src' = src

variable {worker : Worker} {call : Option ObjectSyncRef × Call} {reply : Reply call.2}

/-- What is known after a call was known before, or is registered by the call. -/
theorem Dispatch.known_of_answered
    (answered : System.answersBy (Faulty call.1) before.system call.2 reply after.system)
    (seen : after.seen = Function.update before.seen worker ((before.seen worker).see call.2 reply))
    (own : LooksUpOwn before worker call.2) {gvk : GroupVersionKind} {src : SourceRef}
    {id : ObjectSyncRef} (known : after.Known gvk src id) :
    before.Known gvk src id ∨ ∃ controller, call.2 = .memory (.register id controller src) ∧
      before.system.memory.kind controller = some gvk ∧
      after.system.server = before.system.server := by
  obtain ⟨maker, call⟩ := call
  dsimp only at reply answered seen own ⊢
  rcases known with ⟨controller, kind, registered⟩ | ⟨self, kind, looked⟩
  · rcases System.memory_of_answered answered with ⟨op, same, executed, server⟩ | still
    · rw [← executed] at kind registered
      have kind' := Memory.kind_of_registered registered kind
      rcases Memory.registered_of_exec registered with already | registers
      · exact .inl (.inl ⟨controller, kind', already⟩)
      · exact .inr ⟨controller, by rw [same, registers], kind', server⟩
    · rw [still] at kind registered
      exact .inl (.inl ⟨controller, kind, registered⟩)
  · left
    rw [seen] at looked
    by_cases same : Worker.source self src = worker
    · rw [same, Function.update_self] at looked
      have former (still : ((before.seen worker).see call reply).looked =
          (before.seen worker).looked) : before.Known gvk src id := by
        rw [still, ← same] at looked
        exact .inr ⟨self, kind, looked⟩
      cases call with
      | memory op =>
        cases op with
        | lookup controller src' =>
          obtain ⟨known, rfl, rfl⟩ := own self src controller src' same.symm rfl
          have found : (before.system.memory.sources self.sources).lookup src' = reply :=
            congrArg Prod.fst answered.1
          have listed : id ∈ Option.getD reply [] := looked
          cases refs : reply with
          | none =>
            rw [refs] at listed
            cases listed
          | some values =>
            rw [refs] at listed found
            rw [kind] at known
            exact .inl ⟨self.sources, known, values, found, listed⟩
        | _ => exact former rfl
      | api request =>
        apply former
        cases request with
        | getSync name => cases reply <;> rfl
        | _ => rfl
      | namespaces => exact former rfl
      | clock => exact former rfl
    · rw [Function.update_of_ne same] at looked
      exact .inr ⟨self, kind, looked⟩

/-- A call leaves identities fresh. -/
theorem Dispatch.fresh_of_answered (fresh : before.system.memory.Fresh)
    (answered : System.answersBy (Faulty call.1) before.system call.2 reply after.system) :
    after.system.memory.Fresh := by
  rcases System.memory_of_answered answered with ⟨op, -, executed, -⟩ | still
  · rw [← executed]
    exact fresh.exec op
  · rw [still]
    exact fresh

/-- A call leaves the kinds of the resource controllers that were started. -/
theorem Dispatch.kind_of_answered (fresh : before.system.memory.Fresh)
    (answered : System.answersBy (Faulty call.1) before.system call.2 reply after.system)
    {controller : ControllerId} {gvk : GroupVersionKind}
    (kind : before.system.memory.kind controller = some gvk) :
    after.system.memory.kind controller = some gvk := by
  rcases System.memory_of_answered answered with ⟨op, -, executed, -⟩ | still
  · rw [← executed]
    exact fresh.kind_exec kind
  · rw [still]
    exact kind

/-- A call that respects the kinds leaves everything sorted. -/
theorem Dispatch.Sorted.answered (sorted : before.Sorted)
    (answered : (dispatching RespectsKinds).answers worker before call reply after)
    (own : LooksUpOwn before worker call.2) : after.Sorted := by
  obtain ⟨served, respects, seen⟩ := answered
  refine sorted.step respects (Dispatch.fresh_of_answered sorted.fresh served) ?_
  intro gvk src id known
  rcases Dispatch.known_of_answered served seen own known with already | registers
  · exact .inl already
  · obtain ⟨controller, registers, rest⟩ := registers
    exact .inr ⟨controller, congrArg some registers, rest⟩

end Steps

/-! ## A run of a resource controller -/

/-- What a run of a resource controller has seen, and whether its kind is the one it was started
for. -/
structure Working where
  kinded : Prop
  seen : Seen

/-- An ObjectSync that was looked up and still refers to the source is of the kind. -/
def FetchesKind (self : ResourceControllerImpl) (src : SourceRef) (seen : Seen) :
    (call : Call) → Reply call → Prop
  | .api (.getSync name), .ok sync => ⟨name⟩ ∈ seen.looked → SourceRef.ofSync sync = src →
    sync.OfKind self.gvk
  | _, _ => True

/-- The run has fetched an ObjectSync that refers to the source by namespace and name, and every
such ObjectSync that it has fetched designates the source by group and kind as well. -/
def ActsForOwn (self : ResourceControllerImpl) (src : SourceRef) (seen : Seen)
    (id : ObjectSyncRef) : Prop :=
  (∃ sync ∈ seen.fetched, ObjectSyncRef.ofSync sync = id ∧ SourceRef.ofSync sync = src) ∧
    ∀ sync ∈ seen.fetched, SourceRef.ofSync sync = src → sync.sourceKey = self.sourceKey src

/-- What a run may rely on, and what it does with what it has seen. -/
@[reducible] def working (self : ResourceControllerImpl) (src : SourceRef) :
    Contract (Option ObjectSyncRef × Call) (fun call => Reply call.2) Working where
  rely := fun before after => (before.kinded → after.kinded) ∧ before.seen = after.seen
  answers := fun before call reply after =>
    Honest call.2 reply ∧ FetchesKind self src before.seen call.2 reply ∧
      (before.kinded → after.kinded) ∧ after.seen = before.seen.see call.2 reply
  guarantee := fun before call _ _ =>
    (∀ controller src', call.2 = .memory (.lookup controller src') →
      before.kinded ∧ controller = self.sources ∧ src' = src) ∧
      ∀ id, call.1 = some id → ActsForOwn self src before.seen id

/-- All that was fetched and refers to the source is of the kind. -/
def Seen.Sound (seen : Seen) (self : ResourceControllerImpl) (src : SourceRef) : Prop :=
  ∀ sync ∈ seen.fetched, SourceRef.ofSync sync = src → sync.OfKind self.gvk

/-- A call that neither looks up nor fetches. -/
def Unseeing : Call → Prop
  | .memory _ => False
  | .api (.getSync _) => False
  | _ => True

section Working

variable {α : Type} {self : ResourceControllerImpl} {src : SourceRef} {state : Working}

/-- The source of an ObjectSync of the kind that refers to the source by namespace and name. -/
theorem ObjectSync.OfKind.sourceKey {sync : ObjectSync} (ofKind : sync.OfKind self.gvk)
    (refers : SourceRef.ofSync sync = src) : sync.sourceKey = self.sourceKey src := by
  rw [← refers]
  simp only [ObjectSync.sourceKey, ResourceControllerImpl.sourceKey, DynamicApi.key,
    ResourceControllerImpl.namespacedApi, SourceRef.ofSync, ofKind.1, ofKind.2]

/-- Work that neither looks up nor fetches, for the source or for an ObjectSync that may be acted
for. -/
theorem wp_unseeing {result : α → Prop} {program : Async α}
    (shape : program.wp (.requests Honest Unseeing) (fun value _ => result value) ())
    (name : Option ObjectSyncRef)
    (acts : ∀ id, name = some id → ActsForOwn self src state.seen id) :
    (program.label name).wp (working self src) (fun _ after => state.seen = after.seen) state := by
  rw [wp_label]
  suffices kept : program.wp ((working self src).under name)
      (fun value after => result value ∧ state.seen = after.seen) state from
    wp_imp (fun _ _ kept => kept.2) kept
  refine wp_requests shape ?_ ?_ ?_ rfl
  · intro before call reply after answered
    exact answered.1
  · intro before moved same moves
    exact same.trans moves.2
  · intro before call reply after same unseeing answered
    have still : after.seen = before.seen := by
      rw [answered.2.2.2]
      cases call with
      | memory op => exact unseeing.elim
      | api request =>
        cases request with
        | getSync name => exact unseeing.elim
        | _ => rfl
      | namespaces => rfl
      | clock => rfl
    refine ⟨⟨?_, ?_⟩, same.trans still.symm⟩
    · intro controller src' looks
      have looks' : call = .memory (.lookup controller src') := looks
      rw [looks'] at unseeing
      exact unseeing.elim
    · intro id labelled
      rw [← same]
      exact acts id labelled

/-- What is fetched for the source is of the kind. -/
theorem wp_fetch_working {refs : List ObjectSyncRef} (sound : state.seen.Sound self src)
    (listed : ∀ r ∈ refs, r ∈ state.seen.looked) :
    (ResourceControllerImpl.fetchObjectSyncs src refs).wp ((working self src).under none)
      (fun objs after => after.seen.Sound self src ∧
        (∀ sync ∈ state.seen.fetched, sync ∈ after.seen.fetched) ∧
        ∀ rs ∈ objs, ∃ sync ∈ after.seen.fetched, rs = .new sync ∧ SourceRef.ofSync sync = src)
      state := by
  induction refs generalizing state with
  | nil => exact ⟨sound, fun _ => id, fun _ member => absurd member List.not_mem_nil⟩
  | cons r refs ih =>
    unfold ResourceControllerImpl.fetchObjectSyncs ResourceControllerImpl.getObjectSync
    rw [wp_bind, wp_api]
    intro moved moves reply after answered
    refine ⟨⟨by rintro _ _ ⟨⟩, by rintro _ ⟨⟩⟩, ?_⟩
    have same := moves.2
    have sees := answered.2.2.2
    have later : ∀ r' ∈ refs, r' ∈ moved.seen.looked := by
      intro r' member
      rw [← same]
      exact listed r' (List.mem_cons_of_mem _ member)
    rw [same] at sound ⊢
    cases reply with
    | error e =>
      have still : after.seen = moved.seen := sees
      rw [← still] at sound later ⊢
      exact ih sound later
    | ok sync =>
      have grown : after.seen = { moved.seen with fetched := sync :: moved.seen.fetched } := sees
      have sound' : after.seen.Sound self src := by
        intro other member refers
        rw [grown] at member
        rcases List.mem_cons.mp member with rfl | former
        · refine answered.2.1 ?_ refers
          rw [← same]
          exact listed r List.mem_cons_self
        · exact sound other former refers
      have later' : ∀ r' ∈ refs, r' ∈ after.seen.looked := by
        rw [grown]
        exact later
      have more : ∀ other ∈ moved.seen.fetched, other ∈ after.seen.fetched := by
        intro other member
        rw [grown]
        exact List.mem_cons_of_mem _ member
      have here : sync ∈ after.seen.fetched := by
        rw [grown]
        exact List.mem_cons_self
      have further := ih sound' later'
      dsimp only
      rw [pure_eq, wp_done]
      dsimp only
      by_cases refers : SourceRef.ofSync (ObjectSyncModifications.new sync).modified = src
      · rw [if_pos refers, wp_bind]
        refine wp_imp (fun objs last known => ?_) further
        refine ⟨known.1, fun other member => known.2.1 other (more other member), ?_⟩
        intro rs member
        rcases List.mem_cons.mp member with rfl | member
        · exact ⟨sync, known.2.1 sync here, rfl, refers⟩
        · exact known.2.2 rs member
      · rw [if_neg refers]
        refine wp_imp (fun objs last known => ?_) further
        exact ⟨known.1, fun other member => known.2.1 other (more other member), known.2.2⟩

/-- What is looked up for the source and fetched is of the kind. -/
theorem wp_lookup_working (kinded : state.kinded) (fresh : state.seen.fetched = []) :
    ((self.lookupObjectSyncsForSource src).label none).wp (working self src)
      (fun value after => ∀ objs, value = some objs → ∀ rs ∈ objs,
        ActsForOwn self src after.seen rs.id) state := by
  rw [wp_label]
  unfold ResourceControllerImpl.lookupObjectSyncsForSource
  split
  · rw [wp_memory]
    intro moved moves reply after answered
    constructor
    · constructor
      · intro controller src' same
        cases same
        exact ⟨moves.1 kinded, rfl, rfl⟩
      · rintro _ ⟨⟩
    · cases reply with
      | none => exact fun _ same => by cases same
      | some refs =>
        have sees : after.seen = { moved.seen with looked := refs } := answered.2.2.2
        have looked : after.seen.looked = refs := by rw [sees]
        have sound : after.seen.Sound self src := by
          intro sync member
          rw [sees, ← moves.2] at member
          change sync ∈ state.seen.fetched at member
          rw [fresh] at member
          cases member
        dsimp only
        split
        · exact fun _ same => by cases same
        · rw [wp_bind]
          refine wp_imp ?_ (@wp_fetch_working self src after refs sound fun r member => by
            rw [looked]
            exact member)
          intro fetched last known objs same rs member
          cases same
          obtain ⟨sync, there, rfl, refers⟩ := known.2.2 rs member
          refine ⟨⟨sync, there, rfl, refers⟩, fun other member refers => ?_⟩
          exact (known.1 other member refers).sourceKey refers
  · exact fun _ same => by cases same

/-- A run of `reconcile` only acts for ObjectSyncs whose source is the object. -/
theorem wp_reconcile_working {object : DynamicObject} (refers : SourceRef.ofObject object = src)
    (kinded : state.kinded) (fresh : state.seen.fetched = []) :
    (self.reconcile object).wp (working self src) (fun _ _ => True) state := by
  unfold ResourceControllerImpl.reconcile
  dsimp only
  rw [wp_bind, refers]
  refine wp_imp ?_ (wp_lookup_working kinded fresh)
  intro value state acts
  cases value with
  | none =>
    dsimp only
    split
    · rw [wp_bind]
      refine wp_imp ?_ (wp_unseeing (@requests_removeFinalizer Unseeing _ _ _ fun _ => trivial) none
        (by nofun))
      intro result after _
      obtain ⟨source', result⟩ := result
      cases result <;> trivial
    · trivial
  | some objs =>
    have each := acts objs rfl
    have deletes (rs : ObjectSyncModifications) (member : rs ∈ objs) (world : Working)
        (same : state.seen = world.seen) :
        ((ResourceControllerImpl.sourceDeleted rs).label (some rs.id)).wp (working self src)
          (fun _ after => state.seen = after.seen) world := by
      have shape := @ObjectSyncController.requests_deleteDestinations Unseeing rs
        (fun _ _ _ removal => by cases removal <;> trivial) trivial
        (fun _ _ _ write => by cases write <;> trivial)
      refine wp_imp (fun _ _ kept => same.trans kept) (wp_unseeing shape (some rs.id) ?_)
      intro id labelled
      cases labelled
      rw [← same]
      exact each rs member
    have reconciles (source : DynamicObject) (rs : ObjectSyncModifications) (member : rs ∈ objs)
        (world : Working) (same : state.seen = world.seen) :
        ((self.reconcileSource rs source).label (some rs.id)).wp (working self src)
          (fun _ after => state.seen = after.seen) world := by
      have shape := @ResourceControllerImpl.requests_reconcileSource Unseeing self rs source trivial
        trivial (fun _ _ removal => by cases removal <;> trivial)
        (fun _ _ _ upsert => by cases upsert <;> trivial)
        (fun _ _ _ write => by cases write <;> trivial)
      refine wp_imp (fun _ _ kept => same.trans kept) (wp_unseeing shape (some rs.id) ?_)
      intro id labelled
      cases labelled
      rw [← same]
      exact each rs member
    dsimp only
    split
    · rw [wp_bind]
      refine wp_imp ?_ (ResourceControllerImpl.wp_deleteAll deletes rfl)
      intro succeeded after _
      split
      · rw [wp_bind]
        exact wp_imp (fun _ _ _ => trivial)
          (wp_unseeing (@requests_removeFinalizer Unseeing _ _ _ fun _ => trivial) none (by nofun))
      · trivial
    · rw [wp_bind]
      refine wp_imp ?_ (wp_unseeing (@requests_addFinalizerIfMissing Unseeing _ _ _ trivial) none
        (by nofun))
      intro added after same
      rw [wp_bind]
      exact wp_imp (fun _ _ _ => trivial)
        (ResourceControllerImpl.wp_reconcileAll (reconciles added.1) same)

end Working

/-- What is fetched is what the server stores. -/
theorem Faulty.fetched {maker : Option ObjectSyncRef} {server after : Server}
    {name : NamespacedName}
    {sync : ObjectSync} (faulty : Faulty maker server (.getSync name) (.ok sync) after) :
    server.syncs name = some sync := by
  obtain ⟨choice, served⟩ := faulty.of_ok
  simp only [Server.serve] at served
  split at served
  · cases (Prod.mk.inj served).1
  · rename_i current found
    rw [found, Except.ok.inj (Prod.mk.inj served).1]

/-- Every run relies on what it has seen, and all of them keep what is known sorted. -/
def dispatchDiscipline : Discipline (dispatching RespectsKinds) where
  invariant := Dispatch.Sorted
  rely := fun worker before after =>
    (∀ controller gvk, before.system.memory.kind controller = some gvk →
      after.system.memory.kind controller = some gvk) ∧ before.seen worker = after.seen worker
  ensures := fun worker before call _ _ => ∀ self src id, worker = .source self src →
    call.1 = some id → ActsForOwn self src (before.seen worker) id
  idle := fun _ _ => True
  post := fun _ _ _ => True
  rely_refl := fun _ _ => ⟨fun _ _ => id, rfl⟩
  rely_trans := fun first second =>
    ⟨fun controller gvk kind => second.1 controller gvk (first.1 controller gvk kind),
      first.2.trans second.2⟩
  idle_stable := fun _ _ _ _ => trivial
  post_stable := fun _ _ _ => trivial
  ends := by
    rintro worker before value after sorted - rfl
    refine ⟨sorted.cleared worker, trivial, fun other different => ⟨fun _ _ => id, ?_⟩⟩
    exact (Function.update_of_ne different _ _).symm
  moves := by
    rintro before after sorted ⟨memory, seen, respects⟩
    constructor
    · refine sorted.step respects ?_ fun gvk src id known => .inl ?_
      · rw [memory]
        exact sorted.fresh
      · unfold Dispatch.Known at known
        rw [memory, seen] at known
        exact known
    · intro worker
      refine ⟨fun controller gvk kind => ?_, by rw [seen]⟩
      rw [memory]
      exact kind

/-- What a call of one worker leaves to the others. -/
theorem dispatchDiscipline_others {worker other : Worker} {before after : Dispatch}
    {call : Option ObjectSyncRef × Call} {reply : Reply call.2} (sorted : before.Sorted)
    (answered : (dispatching RespectsKinds).answers worker before call reply after)
    (different : other ≠ worker) : dispatchDiscipline.rely other before after := by
  refine ⟨fun controller gvk kind => Dispatch.kind_of_answered sorted.fresh answered.1 kind, ?_⟩
  rw [answered.2.2, Function.update_of_ne different]

/-- The main controller looks nothing up, so that whatever it runs keeps its part. -/
theorem wp_main {id : ObjectSyncRef}
    (program : Program (Option ObjectSyncRef × Call) (fun call => Reply call.2) Unit)
    {state : Dispatch} (sorted : state.Sorted) :
    program.wp (dispatchDiscipline.contract (.main id)) (dispatchDiscipline.post (.main id))
      state := by
  suffices kept : program.wp (dispatchDiscipline.contract (.main id))
      (fun _ after => after.Sorted) state from wp_imp (fun _ _ _ => trivial) kept
  refine wp_invariant program ?_ ?_ sorted
  · intro before moved _ moves
    exact moves.2
  · intro before call reply after sorted answered
    have sorted' := sorted.answered answered.2 fun _ _ _ _ same => by cases same
    refine ⟨⟨sorted', fun other different => ?_, fun _ _ _ same => by cases same⟩, sorted'⟩
    exact dispatchDiscipline_others sorted answered.2 different

/-- A run of a resource controller keeps its part. -/
theorem wp_source {self : ResourceControllerImpl} {src : SourceRef}
    {program : Program (Option ObjectSyncRef × Call) (fun call => Reply call.2) Unit}
    {state : Dispatch}
    (kept : program.wp (working self src) (fun _ _ => True)
      ⟨state.system.memory.kind self.sources = some self.gvk, state.seen (.source self src)⟩) :
    program.wp (dispatchDiscipline.contract (.source self src))
      (dispatchDiscipline.post (.source self src)) state := by
  refine wp_mono ?_ ?_ ?_ ?_ (wp_view (dispatchDiscipline.contract (.source self src))
    (fun state => Working.mk (state.system.memory.kind self.sources = some self.gvk)
      (state.seen (.source self src))) ?_ ?_ kept)
  · exact fun _ _ moves => moves
  · exact fun _ _ _ _ answered => answered
  · intro before call reply after answered local_
    refine ⟨answered.1.answered answered.2 ?_, fun other different => ?_, ?_⟩
    · intro self' src' controller src'' same looks
      obtain ⟨rfl, rfl⟩ := Worker.source.inj same
      exact local_.1 controller src'' looks
    · exact dispatchDiscipline_others answered.1 answered.2 different
    · intro self' src' id same labelled
      obtain ⟨rfl, rfl⟩ := Worker.source.inj same
      exact local_.2 id labelled
  · exact fun _ _ _ => trivial
  · intro before moved moves
    exact ⟨fun kinded => moves.1.1 _ _ kinded, moves.1.2⟩
  · intro before call reply after answered
    obtain ⟨sorted, served, respects, seen⟩ := answered
    refine ⟨System.answersBy_honest served, ?_, ?_, ?_⟩
    · obtain ⟨maker, call⟩ := call
      cases call with
      | api request =>
        cases request with
        | getSync name =>
          cases reply with
          | error e => trivial
          | ok sync =>
            intro looked refers
            refine sorted.kinds self.gvk ⟨name⟩ sync (Faulty.fetched served.1) ?_
            rw [refers]
            exact .inr ⟨self, rfl, looked⟩
        | _ => trivial
      | _ => trivial
    · exact fun kinded => Dispatch.kind_of_answered sorted.fresh served kinded
    · rw [seen, Function.update_self]

/-- All runs of both controllers keep their parts of the discipline. -/
theorem dispatchDiscipline_kept : dispatchDiscipline.Kept := by
  intro worker before program after sorted _ starts
  cases worker with
  | main id =>
    obtain ⟨configuration, sync, -, rfl, rfl⟩ := starts
    exact ⟨sorted, fun _ _ => ⟨fun _ _ kind => kind, rfl⟩, wp_main _ sorted⟩
  | source self src =>
    obtain ⟨object, refers, kinded, rfl, rfl⟩ := starts
    refine ⟨sorted.cleared _, fun other different => ⟨fun _ _ => id, ?_⟩, wp_source ?_⟩
    · exact (Function.update_of_ne different _ _).symm
    · rw [wp_bind]
      refine wp_imp (fun _ _ _ => trivial) (wp_reconcile_working refers kinded ?_)
      dsimp only
      rw [Function.update_self]
      rfl

/-- The pools of runs of both controllers. -/
abbrev DispatchPool := Pool Worker (Option ObjectSyncRef × Call) (fun call => Reply call.2) Dispatch
  Unit

/-- In every interleaving whose steps respect the kinds, the assertions of all runs hold. -/
theorem dispatch_holds {start pool : DispatchPool}
    (empty : start.world.system.memory = Memory.empty)
    (idle : ∀ worker, start.running worker = none ∧ start.world.seen worker = Seen.none)
    (reach : (dispatching RespectsKinds).Reach start pool) : dispatchDiscipline.Holds pool := by
  have sorted : start.world.Sorted := by
    constructor
    · intro controller _
      rw [empty]
      rfl
    · intro gvk id sync _ known
      rcases known with ⟨controller, kind, -⟩ | ⟨self, -, looked⟩
      · rw [empty] at kind
        cases kind
      · rw [(idle _).2] at looked
        cases looked
  refine Discipline.Holds.reach dispatchDiscipline_kept
    ⟨sorted, fun _ _ => trivial, fun worker program runs => ?_⟩ reach
  rw [(idle worker).1] at runs
  cases runs

/-- **Kinds of sources.** In every interleaving of runs of both controllers whose steps respect the
kinds, every call that a resource controller makes for an ObjectSync is for one that it has fetched
in this run and whose source is the object by group, kind, namespace and name. -/
theorem acts_for_own_kind {start pool : DispatchPool}
    (empty : start.world.system.memory = Memory.empty)
    (idle : ∀ worker, start.running worker = none ∧ start.world.seen worker = Seen.none)
    (reach : (dispatching RespectsKinds).Reach start pool) {self : ResourceControllerImpl}
    {src : SourceRef} {id : ObjectSyncRef} {request : Call}
    {resume : Reply request →
      Program (Option ObjectSyncRef × Call) (fun call => Reply call.2) Unit}
    {reply : Reply request} {after : Dispatch}
    (running : pool.running (.source self src) = some (.call (some id, request) resume))
    (answered : (dispatching RespectsKinds).answers (.source self src) pool.world
      (some id, request) reply after) :
    ActsForOwn self src (pool.world.seen (.source self src)) id :=
  (dispatch_holds empty idle reach).ensured running answered self src id rfl rfl

/-! ## An edited kind -/

/-- Only patches of ObjectSyncs change sources. -/
theorem Faulty.sourceKey_eq {maker : Option ObjectSyncRef} {server after : Server}
    {request : ApiRequest} {reply : Except KubeError (ApiValue request)}
    (faulty : Faulty maker server request reply after)
    (other : ∀ sync patch, request ≠ .jsonPatchSync sync patch) {name : NamespacedName}
    {sync : ObjectSync} (found : after.syncs name = some sync) :
    ∃ old, server.syncs name = some old ∧ old.sourceKey = sync.sourceKey := by
  by_cases target : request.syncTarget = some name
  · cases request with
    | replaceSyncStatus name' body =>
      obtain rfl := Option.some.inj target
      rcases faulty.statusWritten with ⟨rfl, -⟩ | ⟨choice, current, there, -, rfl, -⟩
      · exact ⟨sync, found, rfl⟩
      · rw [Server.writeSync_syncs, Function.update_self, there, Option.bind_some] at found
        unfold ObjectSync.settled at found
        split at found
        · cases found
        · refine ⟨current, there, ?_⟩
          rw [← Option.some.inj found]
          rfl
    | jsonPatchSync sync patch => exact absurd rfl (other sync patch)
    | _ => cases target
  · rw [faulty.effect.syncs_eq target] at found
    exact ⟨sync, found, rfl⟩

/-- Steps that give no ObjectSync another source keep the kinds. -/
theorem keepsKinds_of_sourceKeys {before after : Dispatch}
    (same : ∀ name sync, after.system.server.syncs name = some sync →
      ∃ old, before.system.server.syncs name = some old ∧ old.sourceKey = sync.sourceKey) :
    KeepsKinds before after := by
  intro id sync found edited
  obtain ⟨old, there, unchanged⟩ := same id.name sync found
  exact absurd unchanged (edited old there)

/-- Whether the source of an ObjectSync is of a kind can be computed. -/
instance (sync : ObjectSync) (gvk : GroupVersionKind) : Decidable (sync.OfKind gvk) :=
  inferInstanceAs (Decidable (_ ∧ _))

/-- Whether a call patches no ObjectSync and registers for the kind of the source. -/
def registersKind (state : Dispatch) (call : Option ObjectSyncRef × Call) : Bool :=
  match call.2 with
  | .memory (.register id controller src) =>
    (state.system.memory.kind controller).all fun gvk =>
      (state.system.server.syncs id.name).all fun sync =>
        decide (SourceRef.ofSync sync = src → sync.OfKind gvk)
  | .api (.jsonPatchSync ..) => false
  | _ => true

/-- Answer all calls of a worker, with nothing failing. -/
def Dispatch.answer (worker : Worker) (resourceVersion : String) :
    Handler (Option ObjectSyncRef × Call) (fun call => Reply call.2) Dispatch :=
  fun state request =>
    let (reply, system) := state.system.answer request.1 ⟨"u", resourceVersion, 0, []⟩
      settingsNamespaces "now" request.2
    (reply, ⟨system, Function.update state.seen worker ((state.seen worker).see request.2 reply)⟩)

/-- The answers to a worker are possible, where its calls meet what is asked of them. -/
theorem Dispatch.answer_allowed {meets : Dispatch → Option Call → Dispatch → Prop} (worker : Worker)
    (resourceVersion : String) (state : Dispatch) (call : Option ObjectSyncRef × Call)
    (met : meets state (some call.2) (state.answer worker resourceVersion call).2) :
    (dispatching meets).answers worker state call (state.answer worker resourceVersion call).1
      (state.answer worker resourceVersion call).2 :=
  ⟨System.answersBy_mono (fun _ _ _ _ => .served) (System.answer_allowed ..), met, rfl⟩

/-- Where a call patches no ObjectSync and registers for the kind of the source, they respect the
kinds. -/
theorem Dispatch.answer_respects (worker : Worker) (resourceVersion : String) (state : Dispatch)
    (call : Option ObjectSyncRef × Call) (registers : registersKind state call = true) :
    RespectsKinds state (some call.2) (state.answer worker resourceVersion call).2 := by
  have served := (@Dispatch.answer_allowed (fun _ _ _ => True) worker resourceVersion state call
    trivial).1
  obtain ⟨maker, call⟩ := call
  constructor
  · apply keepsKinds_of_sourceKeys
    intro name sync found
    cases call with
    | api request =>
      refine Faulty.sourceKey_eq served.1 ?_ found
      rintro sync patch rfl
      cases registers
    | memory op =>
      rw [served.2] at found
      exact ⟨sync, found, rfl⟩
    | namespaces => exact ⟨sync, found, rfl⟩
    | clock => exact ⟨sync, found, rfl⟩
  · intro request same
    cases same
    cases call with
    | memory op =>
      cases op with
      | register id controller src =>
        intro gvk sync kind found refers
        simp only [registersKind, kind, found, Option.all_some, decide_eq_true_eq] at registers
        exact registers refers
      | _ => trivial
    | _ => trivial

namespace DispatchPool

/-- The ObjectSync and its source are there, and no run of the controller has started. -/
def fresh : DispatchPool :=
  ⟨⟨⟨settingsServer.put (configMaps.sourceKey (.ofObject settingsSource))
    (some ⟨settingsSource, none⟩) @settingsSource_named, Memory.empty⟩,
    fun _ => Seen.none⟩, fun _ => none⟩

/-- The worker for a source of the resource controller of config maps. -/
def worker (object : DynamicObject) : Worker := .source configMaps (SourceRef.ofObject object)

/-- The ObjectSync as it is stored. -/
def current (pool : DispatchPool) : ObjectSync :=
  (pool.world.system.server.syncs settingsRef.name).getD settingsSync

/-- The pool after a run for the ObjectSync has started. -/
def check (pool : DispatchPool) : DispatchPool :=
  pool.set (.main settingsRef)
    (some ((ObjectSyncController.reconcile configMaps.configuration pool.current).label none >>=
      fun _ => pure ())) pool.world

/-- The pool after a run for a source has started. -/
def reconcile (pool : DispatchPool) (object : DynamicObject) : DispatchPool :=
  pool.set (worker object) (some (configMaps.reconcile object >>= fun _ => pure ()))
    { pool.world with seen := Function.update pool.world.seen (worker object) Seen.none }

/-- The pool after a user has changed the source of the ObjectSync. -/
def edit (pool : DispatchPool) (change : SourceObject → SourceObject) : DispatchPool :=
  { pool with
    world :=
      { pool.world with
        system :=
          { pool.world.system with
            server := pool.world.system.server.writeSync settingsRef.name
              (fun sync =>
                { sync with spec := { sync.spec with source := change sync.spec.source } })
              fun _ => ⟨rfl, rfl⟩ } } }

/-- The run for the ObjectSync has ended. -/
def ended (pool : DispatchPool) : DispatchPool :=
  pool.set (.main settingsRef) none
    { pool.world with seen := Function.update pool.world.seen (.main settingsRef) Seen.none }

/-- The pool after some calls of a worker are answered. -/
def answered (pool : DispatchPool) (worker : Worker) (resourceVersion : String) (count : Nat) :
    DispatchPool :=
  pool.calls worker (Dispatch.answer worker resourceVersion) count

end DispatchPool

/-- The pool after the ObjectSync has been registered. -/
def dispatchRegistered : DispatchPool :=
  DispatchPool.fresh.check.answered (.main settingsRef) "2" 8

/-- The pool after a user has given the ObjectSync another source of the same kind. -/
def dispatchRenamed : DispatchPool :=
  dispatchRegistered.ended.edit fun source => { source with name := "other" }

/-- The pool after the ObjectSync has been registered for its new source. -/
def dispatchMoved : DispatchPool := dispatchRenamed.check.answered (.main settingsRef) "3" 10

/-- The source that the ObjectSync is given. -/
def otherSource : DynamicObject :=
  ⟨none, { name := some "other", namespace_ := some "default" }, []⟩

/-- The resource controller is about to make a copy of the new source. -/
def dispatchCopying : DispatchPool :=
  (dispatchMoved.reconcile otherSource).answered (DispatchPool.worker otherSource) "4" 7

/-- The resource controller is about to make a copy of the old source, when the kind of the source
was changed. -/
def kindEdited : DispatchPool :=
  ((dispatchRegistered.edit fun source => { source with kind := "Secret" }).reconcile
    settingsSource).answered (DispatchPool.worker settingsSource) "3" 7

/-- Starting and answering a run whose calls pass a check is an interleaving. -/
theorem DispatchPool.reach_answered {meets : Dispatch → Option Call → Dispatch → Prop}
    {check : Dispatch → Option ObjectSyncRef × Call → Bool} (worker : Worker)
    (resourceVersion : String)
    (allowed : ∀ state call, check state call = true →
      meets state (some call.2) (state.answer worker resourceVersion call).2)
    (pool : DispatchPool) (count : Nat)
    (pass : pool.callsPass worker (Dispatch.answer worker resourceVersion) check count) :
    (dispatching meets).Reach pool (pool.answered worker resourceVersion count) := by
  refine Rules.reach_calls_of_pass ?_ pool count pass
  intro state call passes
  exact Dispatch.answer_allowed worker resourceVersion state call (allowed state call passes)

section Schedules

variable {meets : Dispatch → Option Call → Dispatch → Prop} {pool : DispatchPool}

/-- A run for the ObjectSync may start when there is none. -/
theorem DispatchPool.step_check (idle : pool.running (.main settingsRef) = none)
    (same : ObjectSyncRef.ofSync pool.current = settingsRef) :
    (dispatching meets).Step pool pool.check := by
  refine Rules.Step.start (Worker.main settingsRef) idle ?_
  exact ⟨configMaps.configuration, pool.current, same, rfl, rfl⟩

/-- A run for a source may start when there is none. -/
theorem DispatchPool.step_reconcile {object : DynamicObject}
    (idle : pool.running (DispatchPool.worker object) = none)
    (kind : pool.world.system.memory.kind configMaps.sources = some configMaps.gvk) :
    (dispatching meets).Step pool (pool.reconcile object) := by
  refine Rules.Step.start (DispatchPool.worker object) idle ?_
  exact ⟨object, rfl, kind, rfl, rfl⟩

/-- A run for the ObjectSync that is done may end. -/
theorem DispatchPool.step_ended (done : (pool.result (.main settingsRef)).isSome = true) :
    (dispatching meets).Step pool pool.ended := by
  obtain ⟨value, done⟩ := Option.isSome_iff_exists.mp done
  exact .finish (Worker.main settingsRef) (Pool.running_of_result done) rfl

/-- The calls of a worker leave what others have seen. -/
theorem DispatchPool.answered_seen {worker other : Worker} (different : other ≠ worker)
    (resourceVersion : String) (count : Nat) :
    (pool.answered worker resourceVersion count).world.seen other = pool.world.seen other := by
  have calls (program : LabelledAsync Unit) (state : Dispatch) :
      (program.runFor (Dispatch.answer worker resourceVersion) count state).2.seen other =
        state.seen other := by
    induction count generalizing program state with
    | zero => rfl
    | succ count ih =>
      cases program with
      | done value => rfl
      | call request resume => exact (ih _ _).trans (Function.update_of_ne different ..)
  unfold answered Pool.calls
  split
  · rfl
  · exact calls _ _

/-- Calls that patch no ObjectSync and register for the kind of the source respect the kinds. -/
theorem DispatchPool.reach_registering (pool : DispatchPool) (worker : Worker)
    (resourceVersion : String) (count : Nat)
    (pass : pool.callsPass worker (Dispatch.answer worker resourceVersion) registersKind count =
      true) :
    (dispatching RespectsKinds).Reach pool (pool.answered worker resourceVersion count) :=
  DispatchPool.reach_answered worker resourceVersion
    (fun state call registers => state.answer_respects worker resourceVersion call registers) pool
    count pass

end Schedules

/-- Registering the ObjectSync respects the kinds. -/
theorem dispatchRegistered_reached :
    (dispatching RespectsKinds).Reach DispatchPool.fresh dispatchRegistered :=
  .head (DispatchPool.step_check rfl (by decide +kernel)) (DispatchPool.reach_registering
    DispatchPool.fresh.check (.main settingsRef) "2" 8 (by decide +kernel))

/-- After the registration there is a resource controller for config maps only, and no run has
looked anything up. -/
theorem dispatchRegistered_known {gvk : GroupVersionKind} {src : SourceRef} {id : ObjectSyncRef}
    (known : dispatchRegistered.ended.world.Known gvk src id) : gvk = configMaps.gvk := by
  rcases known with ⟨controller, kind, -⟩ | ⟨self, -, looked⟩
  · by_cases first : controller = 0
    · rw [first] at kind
      have maps : dispatchRegistered.ended.world.system.memory.kind 0 = some configMaps.gvk := by
        decide +kernel
      exact Option.some.inj (kind.symm.trans maps)
    · have fresh := (dispatch_holds rfl (fun _ => ⟨rfl, rfl⟩)
        dispatchRegistered_reached).world.fresh
      have next : dispatchRegistered.world.system.memory.nextController = 1 := by decide +kernel
      have absent := fresh controller (next ▸ Nat.pos_of_ne_zero first)
      have none : dispatchRegistered.ended.world.system.memory.kind controller = none := absent
      rw [none] at kind
      cases kind
  · have nothing : dispatchRegistered.ended.world.seen (.source self src) = Seen.none := by
      have other : Worker.source self src ≠ .main settingsRef := by rintro ⟨⟩
      have unseen : dispatchRegistered.world.seen (.source self src) = Seen.none :=
        @DispatchPool.answered_seen DispatchPool.fresh.check _ _ other "2" 8
      exact (Function.update_of_ne other Seen.none dispatchRegistered.world.seen).trans unseen
    rw [nothing] at looked
    cases looked

/-- The new name of the source is known to no other kind. -/
theorem dispatchRenamed_reached :
    (dispatching RespectsKinds).Reach DispatchPool.fresh dispatchRenamed := by
  have ended := dispatchRegistered_reached.tail (DispatchPool.step_ended (by decide +kernel))
  refine ended.tail (.move ⟨rfl, rfl, ?_, by rintro request ⟨⟩⟩)
  intro id sync found edited gvk known
  rw [dispatchRegistered_known known]
  by_cases own : id = settingsRef
  · rw [own] at found
    have stored : dispatchRenamed.world.system.server.syncs settingsRef.name =
        some dispatchRenamed.current := by decide +kernel
    obtain rfl := Option.some.inj (stored.symm.trans found)
    decide +kernel
  · have apart : id.name ≠ settingsRef.name := fun same => own (congrArg ObjectSyncRef.mk same)
    have same : dispatchRenamed.world.system.server.syncs id.name =
        dispatchRegistered.ended.world.system.server.syncs id.name := Function.update_of_ne apart ..
    exact absurd rfl (edited sync (same.symm.trans found))

/-- The runs for the renamed source respect the kinds. -/
theorem dispatchCopying_reached :
    (dispatching RespectsKinds).Reach DispatchPool.fresh dispatchCopying := by
  have checked := dispatchRenamed_reached.tail (DispatchPool.step_check rfl (by decide +kernel))
  have moved := checked.trans (DispatchPool.reach_registering dispatchRenamed.check
    (.main settingsRef) "3" 10 (by decide +kernel))
  have started := moved.tail (@DispatchPool.step_reconcile _ dispatchMoved otherSource rfl
    (by decide +kernel))
  exact started.trans (DispatchPool.reach_registering (dispatchMoved.reconcile otherSource)
    (DispatchPool.worker otherSource) "4" 7 (by decide +kernel))

/-- The copy is made for an ObjectSync whose source is the object, after a change of its source. -/
theorem dispatchCopying_acts_for_own :
    (∃ request, dispatchCopying.pending (DispatchPool.worker otherSource) =
      some (some settingsRef, .api request) ∧ request.Creates) ∧
    ActsForOwn configMaps (SourceRef.ofObject otherSource)
      (dispatchCopying.world.seen (DispatchPool.worker otherSource)) settingsRef := by
  have making : ∃ request, dispatchCopying.pending (DispatchPool.worker otherSource) =
      some (some settingsRef, .api request) ∧ request.Creates := ⟨_, rfl, trivial⟩
  refine ⟨making, ?_⟩
  obtain ⟨request, waits, -⟩ := making
  obtain ⟨resume, running⟩ := Pool.exists_resume waits
  have registers : registersKind dispatchCopying.world (some settingsRef, .api request) = true := by
    have patchless : (dispatchCopying.pending (DispatchPool.worker otherSource)).all
        (registersKind dispatchCopying.world) = true := by decide +kernel
    rw [waits] at patchless
    exact patchless
  exact acts_for_own_kind rfl (fun _ => ⟨rfl, rfl⟩) dispatchCopying_reached running
    (Dispatch.answer_allowed (DispatchPool.worker otherSource) "4" _ _
      (dispatchCopying.world.answer_respects _ "4" _ registers))

/-- After the kind of the source was edited, and before the ObjectSync is registered anew, the
resource controller of the old kind makes a copy for it. -/
theorem kindEdited_acts_for_other :
    (dispatching fun _ _ _ => True).Reach DispatchPool.fresh kindEdited ∧
    (∃ request, kindEdited.pending (DispatchPool.worker settingsSource) =
      some (some settingsRef, .api request) ∧ request.Creates) ∧
    ¬ActsForOwn configMaps (SourceRef.ofObject settingsSource)
      (kindEdited.world.seen (DispatchPool.worker settingsSource)) settingsRef := by
  refine ⟨?_, ⟨_, rfl, trivial⟩, ?_⟩
  · have allowed (worker : Worker) (resourceVersion : String) (pool : DispatchPool) (count : Nat) :
        (dispatching fun _ _ _ => True).Reach pool (pool.answered worker resourceVersion count) :=
      Rules.reach_calls (fun _ _ => Dispatch.answer_allowed _ _ _ _ trivial) pool count
    have registered := Relation.ReflTransGen.head
      (@DispatchPool.step_check (fun _ _ _ => True) DispatchPool.fresh rfl (by decide +kernel))
      (allowed (.main settingsRef) "2" DispatchPool.fresh.check 8)
    have edited : (dispatching fun _ _ _ => True).Step dispatchRegistered
        (dispatchRegistered.edit fun source => { source with kind := "Secret" }) :=
      .move ⟨rfl, rfl, trivial⟩
    have started := (registered.tail edited).tail (@DispatchPool.step_reconcile (fun _ _ _ => True)
      _ settingsSource rfl (by decide +kernel))
    exact started.trans (allowed _ _ _ _)
  · intro acts
    have fetched : ∃ sync ∈ (kindEdited.world.seen (DispatchPool.worker settingsSource)).fetched,
        SourceRef.ofSync sync = SourceRef.ofObject settingsSource ∧
          sync.sourceKey ≠ configMaps.sourceKey (SourceRef.ofObject settingsSource) := by
      decide +kernel
    obtain ⟨sync, member, refers, other⟩ := fetched
    exact other (acts.2 sync member refers)

end ObjectSyncer
