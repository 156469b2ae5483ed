import ObjectSyncer.Teardown

/-!
# Attempts to change the source

Runs of `check` for one ObjectSync, one after the other, while its source is edited. The first one
that finds the change takes the instance out and cleans up; what a later one does depends on that
instance alone.
-/
namespace ObjectSyncer

open Interaction Interaction.Program

/-- What the branches of an attempt depend on. -/
structure Progress where
  /-- The keys whose deletion has been answered with success or not found. -/
  cleaned : List ObjectKey
  /-- The ObjectSync has an instance. -/
  registered : Bool
  deriving DecidableEq, Repr

/-- The keys that are cleaned after a call. -/
def cleanedBy (cleaned : List ObjectKey) : (call : Call) → Reply call → List ObjectKey
  | .api (.delete api name), reply =>
    if deletionSettled reply then api.key name :: cleaned else cleaned
  | _, _ => cleaned

/-- Whether an ObjectSync has an instance after a call. -/
def registeredBy (o : ObjectSyncRef) (registered : Bool) : Call → Bool
  | .memory (.removeInstance id) => registered && id != o
  | .memory (.insertInstance id _) => registered || id == o
  | _ => registered

/-- Every tracked key is a destination of the ObjectSync or has been cleaned. -/
def Covered (tracked cleaned : List ObjectKey) (sync : ObjectSync) : Prop :=
  ∀ key ∈ tracked, key ∈ sync.destinationList.map (·.key) ∨ key ∈ cleaned

/-- A read of a destination fails only when it does not exist, and the deletion of a tracked key
does not fail, as long as not everything is cleaned. -/
def CleansUp (tracked cleaned : List ObjectKey) : (call : Call) → Reply call → Prop
  | .api (.get ..), .error e => e.isNotFound ∨ tracked ⊆ cleaned
  | .api (.delete api name), reply =>
    deletionSettled reply ∨ (api.key name ∈ tracked → api.key name ∈ cleaned)
  | _, _ => True

/-- What a reply shows of the ObjectSync: a patch returns its destinations, and there is a clone of
its instance when there is an instance. -/
def Shows (o : ObjectSyncRef) (tracked : List ObjectKey) (progress : Progress) :
    (call : Call) → Reply call → Prop
  | .api (.jsonPatchSync sync _), .ok written =>
    sync = o.name → Covered tracked progress.cleaned written
  | .memory (.getInstance id), found => id = o → found.isSome = progress.registered
  | _, _ => True

/-- A call that registers an ObjectSync or writes its status. -/
def Publishes : Call → Prop
  | .api (.replaceSyncStatus ..) | .memory (.register ..) => True
  | _ => False

/-- A call that deletes nothing, writes no status and leaves the memory alone. -/
def Idle : Call → Prop
  | .api (.delete ..) | .api (.replaceSyncStatus ..) | .memory _ => False
  | _ => True

/-- What an attempt relies on and guarantees: it registers the ObjectSync and writes its status only
when all tracked keys have been cleaned. -/
@[reducible] def resumption (o : ObjectSyncRef) (tracked : List ObjectKey) :
    Contract Call Reply Progress where
  rely := fun before after => before = after
  answers := fun before call reply after => Honest call reply ∧
    CleansUp tracked before.cleaned call reply ∧ Shows o tracked before call reply ∧
    after = ⟨cleanedBy before.cleaned call reply, registeredBy o before.registered call⟩
  guarantee := fun before call _ _ => Publishes call → tracked ⊆ before.cleaned

/-- What has been cleaned up stays so after a call. -/
theorem subset_cleanedBy (cleaned : List ObjectKey) (call : Call) (reply : Reply call) :
    cleaned ⊆ cleanedBy cleaned call reply := by
  intro key member
  unfold cleanedBy
  split
  · split
    · exact List.mem_cons_of_mem _ member
    · exact member
  · exact member

section Attempt

variable {α : Type} {o : ObjectSyncRef} {tracked : List ObjectKey} {progress : Progress}
  {event : ObjectSyncModifications}

/-- After the cleanup any program keeps the contract. -/
theorem wp_cleaned (program : Async α) (cleaned : tracked ⊆ progress.cleaned) :
    program.wp (resumption o tracked) (fun _ after => tracked ⊆ after.cleaned) progress := by
  refine wp_invariant program ?_ ?_ cleaned
  · intro before moved cleaned still
    exact still ▸ cleaned
  · intro before call reply after cleaned answered
    have grown : before.cleaned ⊆ after.cleaned := by
      rw [answered.2.2.2]
      exact subset_cleanedBy before.cleaned call reply
    exact ⟨fun _ => cleaned, fun key member => grown (cleaned member)⟩

/-- Idle calls leave what the branches depend on. -/
theorem wp_idle {result : α → Prop} {program : Async α}
    (shape : program.wp (.requests Honest Idle) (fun value _ => result value) ()) :
    program.wp (resumption o tracked) (fun value after => result value ∧ progress = after)
      progress := by
  refine wp_requests shape (fun _ _ _ _ answered => answered.1) ?_ ?_ rfl
  · intro before moved same still
    exact same.trans still
  · intro before call reply after same idle answered
    have kept : after = before := by
      rw [answered.2.2.2]
      cases call with
      | api request => cases request <;> first | exact idle.elim | rfl
      | memory op => exact idle.elim
      | namespaces => rfl
      | clock => rfl
    refine ⟨fun publishes => ?_, same.trans kept.symm⟩
    cases call with
    | api request => cases request <;> first | exact idle.elim | exact publishes.elim
    | memory op => exact idle.elim
    | namespaces => exact publishes.elim
    | clock => exact publishes.elim

/-- `delete_destinations` cleans every tracked key among its destinations. -/
theorem wp_deleteDestinations_cleaned (destinations : List DestinationStatus)
    (listed : ∀ key ∈ tracked, key ∈ destinations.map (·.key) ∨ key ∈ progress.cleaned) :
    (deleteDestinations destinations).wp (resumption o tracked)
      (fun _ after => tracked ⊆ after.cleaned) progress := by
  refine wp_imp ?_ (@wp_deleteDestinations_loop _ (resumption o tracked)
    (fun _ todo progress => ∀ key ∈ tracked, key ∈ todo.map (·.key) ∨ key ∈ progress.cleaned)
    (fun progress => tracked ⊆ progress.cleaned) ?_ ?_ ?_ ?_ ?_ [] destinations progress listed)
  · intro result after kept
    cases result with
    | error e => exact kept.1 e rfl
    | ok remaining =>
      intro key member
      cases kept.2 remaining rfl key member with
      | inl none => exact absurd none List.not_mem_nil
      | inr cleaned => exact cleaned
  · exact fun _ _ _ _ answered => answered.1
  · intro failed todo before moved listed still
    exact still ▸ listed
  · intro failed d todo before request reply after removal other listed answered
    have kept : after = before := by
      rw [answered.2.2.2]
      cases removal with
      | get => rfl
      | release patch => rfl
      | delete => exact absurd rfl (other _ _)
    rw [kept]
    refine ⟨fun publishes => ?_, listed⟩
    cases removal <;> exact publishes.elim
  · intro failed d todo before reply after listed answered
    refine ⟨fun publishes => publishes.elim, fun key member => ?_⟩
    have cleanedAfter : after.cleaned =
        if deletionSettled reply then d.key :: before.cleaned else before.cleaned := by
      rw [answered.2.2.2]
      rfl
    have before_ := listed key member
    rw [List.map_cons, List.mem_cons] at before_
    rw [cleanedAfter]
    by_cases settled : deletionSettled reply = true
    · rw [if_pos settled, List.mem_cons]
      tauto
    · rw [if_neg settled]
      have former : d.key ∈ tracked → d.key ∈ before.cleaned :=
        answered.2.1.resolve_left settled
      rcases before_ with (rfl | later) | cleaned
      · exact .inr (former member)
      · exact .inl later
      · exact .inr cleaned
  · intro failed d todo before e after listed answered present
    have cleaned : tracked ⊆ before.cleaned := answered.2.1.resolve_left present
    have kept : after = before := answered.2.2.2
    rw [kept]
    exact cleaned

/-- Patching returns an ObjectSync that tracks what has still to be cleaned. -/
theorem wp_patchSpec_covered (of : event.Of o)
    (covered : Covered tracked progress.cleaned event.modified) :
    event.patchSpec.wp (resumption o tracked) (fun value after =>
      value.1.Of o ∧ Covered tracked progress.cleaned value.1.modified ∧ progress = after)
      progress := by
  unfold ObjectSyncModifications.patchSpec
  split
  · unfold ObjectSyncModifications.patchSpecNow
    rw [wp_api]
    intro _ same reply after answered
    subst same
    have kept : after = progress := answered.2.2.2
    subst kept
    refine ⟨fun publishes => publishes.elim, ?_⟩
    cases reply with
    | error e => exact ⟨of, covered, rfl⟩
    | ok latest =>
      dsimp only
      split
      · exact ⟨of, covered, rfl⟩
      · rw [wp_api]
        intro _ same reply later answered
        subst same
        have kept : later = after := answered.2.2.2
        subst kept
        refine ⟨fun publishes => publishes.elim, ?_⟩
        cases reply with
        | error e => exact ⟨of, covered, rfl⟩
        | ok written =>
          have same : ObjectSyncRef.ofSync written = ⟨event.address⟩ := answered.1
          have shown : Covered tracked later.cleaned written := answered.2.2.1 of.addressed
          exact ⟨ObjectSyncModifications.of_new
            (same.trans (congrArg ObjectSyncRef.mk of.addressed)), shown, rfl⟩
  · exact ⟨of, covered, rfl⟩

/-- Adding the finalizer keeps the destinations. -/
theorem wp_addFinalizerIfMissing_covered (of : event.Of o)
    (covered : Covered tracked progress.cleaned event.modified) :
    (ObjectSyncController.addFinalizerIfMissing event).wp (resumption o tracked)
      (fun value after => value.1.Of o ∧ Covered tracked progress.cleaned value.1.modified ∧
        progress = after) progress := by
  unfold ObjectSyncController.addFinalizerIfMissing
  dsimp only
  have set (finalizers : List String) :
      (ObjectSyncController.setFinalizers event finalizers).Of o := of.modify rfl rfl
  split
  · exact ⟨set _, covered, rfl⟩
  · rw [wp_bind]
    exact wp_imp (fun _ _ kept => kept) (wp_patchSpec_covered (set _) covered)

/-- Removing the destinations of an ObjectSync cleans every tracked key. -/
theorem wp_deleteAll_cleaned (covered : Covered tracked progress.cleaned event.modified) :
    (ObjectSyncController.deleteDestinations event).wp (resumption o tracked)
      (fun _ after => tracked ⊆ after.cleaned) progress := by
  unfold Covered at covered
  unfold ObjectSyncController.deleteDestinations
  cases listed : event.modified.statusDestinations with
  | none =>
    rw [ObjectSync.destinationList, listed, Option.getD_none, List.map_nil] at covered
    intro key member
    exact (covered key member).resolve_left List.not_mem_nil
  | some destinations =>
    rw [ObjectSync.destinationList, listed, Option.getD_some] at covered
    dsimp only
    rw [wp_bind]
    exact wp_imp (fun _ _ cleaned => wp_cleaned _ cleaned)
      (wp_deleteDestinations_cleaned destinations covered)

/-- An attempt leaves the ObjectSync without an instance only when all tracked keys have been
cleaned. -/
theorem wp_check_resumes (of : event.Of o)
    (covered : Covered tracked progress.cleaned event.modified)
    (ready : progress.registered = false → tracked ⊆ progress.cleaned) :
    (ObjectSyncController.check event).wp (resumption o tracked)
      (fun _ after => after.registered = false → tracked ⊆ after.cleaned) progress := by
  have finish (program : Async (ObjectSyncModifications × Except ControllerError Unit))
      {progress : Progress} (cleaned : tracked ⊆ progress.cleaned) :
      program.wp (resumption o tracked)
        (fun _ after => after.registered = false → tracked ⊆ after.cleaned) progress :=
    wp_imp (fun _ _ cleaned _ => cleaned) (wp_cleaned program cleaned)
  unfold ObjectSyncController.check
  rw [wp_bind]
  refine wp_imp ?_ (wp_addFinalizerIfMissing_covered of covered)
  rintro ⟨event, result⟩ _ ⟨of, covered, rfl⟩
  cases result with
  | error e => exact ready
  | ok =>
    dsimp only at of covered ⊢
    rw [wp_bind]
    refine wp_imp ?_ (wp_idle (@ObjectSyncController.requests_getGvk Idle _ trivial))
    rintro result _ ⟨-, rfl⟩
    cases result with
    | error e => exact ready
    | ok currentGvk =>
      dsimp only
      rw [wp_memory]
      intro _ same found after answered
      subst same
      have kept : after = progress := answered.2.2.2
      subst kept
      have shown : found.isSome = after.registered := answered.2.2.1 of.identity
      refine ⟨fun publishes => publishes.elim, ?_⟩
      cases found with
      | none => exact finish _ (ready shown.symm)
      | some active =>
        dsimp only
        split
        · -- The instance is taken out here; only a cleanup may follow.
          rw [wp_bind]
          refine wp_imp (fun _ _ cleaned => finish _ cleaned) ?_
          unfold ObjectSyncController.moveSource ObjectSyncController.remove
          rw [wp_memory]
          intro _ same removed later answered
          subst same
          have kept : later.cleaned = after.cleaned := by rw [answered.2.2.2]; rfl
          refine ⟨fun publishes => publishes.elim, ?_⟩
          rw [wp_bind]
          rw [← kept] at covered
          exact wp_imp (fun _ _ cleaned => wp_cleaned _ cleaned) (wp_deleteAll_cleaned covered)
        · rw [wp_memory]
          intro _ same dropped later answered
          subst same
          have kept : later = after := answered.2.2.2
          subst kept
          exact ⟨fun publishes => publishes.elim, ready⟩

end Attempt

/-- The system, and what has been cleaned so far. -/
structure SourceChange where
  system : System
  cleaned : List ObjectKey

/-- What the branches of an attempt depend on. -/
def SourceChange.progress (o : ObjectSyncRef) (state : SourceChange) : Progress :=
  ⟨state.cleaned, (state.system.memory.instances o).isSome⟩

/-- Runs of `check` for an ObjectSync, each from the ObjectSync as it is stored and with any
replies, while others change anything but the instance of the ObjectSync and take none of the
tracked keys out of its destinations. The replies may be restricted. -/
def attempts (o : ObjectSyncRef) (tracked : List ObjectKey)
    (fine : List ObjectKey → (call : Call) → Reply call → Prop) :
    Rules Unit Call Reply SourceChange (ObjectSyncModifications × Except ControllerError Unit) where
  starts := fun _ before program after => ∃ sync, before.system.server.syncs o.name = some sync ∧
    program = ObjectSyncController.check (.new sync) ∧ after = before
  answers := fun _ before call reply after =>
    System.answersBy (Faulty (some o)) before.system call reply after.system ∧
      fine before.cleaned call reply ∧ after.cleaned = cleanedBy before.cleaned call reply
  ends := fun _ before _ after => after = before
  moves := fun before after => after.progress o = before.progress o ∧
    ∀ sync, after.system.server.syncs o.name = some sync →
      ∃ former, before.system.server.syncs o.name = some former ∧
        ∀ key ∈ tracked, key ∈ former.destinationList.map (·.key) →
          key ∈ sync.destinationList.map (·.key)

section Attempts

variable {o : ObjectSyncRef} {tracked : List ObjectKey}

/-- The ObjectSync tracks what has still to be cleaned. -/
def SourceChange.Invariant (o : ObjectSyncRef) (tracked : List ObjectKey) (state : SourceChange) :
    Prop :=
  ∀ sync, state.system.server.syncs o.name = some sync → Covered tracked state.cleaned sync

/-- Each attempt relies on what its branches depend on. -/
def attemptDiscipline (o : ObjectSyncRef) (tracked : List ObjectKey) :
    Discipline (attempts o tracked (CleansUp tracked)) where
  invariant := SourceChange.Invariant o tracked
  rely := fun _ before after => before.progress o = after.progress o
  ensures := fun _ before call _ _ => Publishes call → tracked ⊆ before.cleaned
  idle := fun _ state => (state.progress o).registered = false → tracked ⊆ state.cleaned
  post := fun _ _ state => (state.progress o).registered = false → tracked ⊆ state.cleaned
  rely_refl := fun _ _ => rfl
  rely_trans := fun first second => first.trans second
  idle_stable := by
    intro _ before after _ _ same ready
    have cleaned : before.cleaned = after.cleaned := congrArg Progress.cleaned same
    rw [← same, ← cleaned]
    exact ready
  post_stable := by
    intro _ _ before after same _ ready
    have cleaned : before.cleaned = after.cleaned := congrArg Progress.cleaned same
    rw [← same, ← cleaned]
    exact ready
  ends := by
    rintro _ before value after covered ready rfl
    exact ⟨covered, ready, fun _ _ => rfl⟩
  moves := by
    intro before after covered moves
    refine ⟨fun sync found key member => ?_, fun _ => moves.1.symm⟩
    have cleaned : after.cleaned = before.cleaned := congrArg Progress.cleaned moves.1
    obtain ⟨former, was, kept⟩ := moves.2 sync found
    rw [cleaned]
    exact (covered former was key member).imp (kept key member) id

/-- Whether an ObjectSync has an instance after an operation. -/
theorem Memory.exec_registered (memory : Memory) (op : MemoryOp) (o : ObjectSyncRef) :
    ((memory.exec op).2.instances o).isSome =
      registeredBy o (memory.instances o).isSome (.memory op) := by
  cases op with
  | getInstance id =>
    simp only [exec, registeredBy]
    split <;> rfl
  | removeInstance id =>
    simp only [exec, registeredBy, discard_instances, Function.update_apply]
    by_cases same : o = id
    · simp [same]
    · simp [same, Ne.symm same]
  | insertInstance id inst =>
    simp only [exec, registeredBy, discard_instances, Function.update_idem, Function.update_apply]
    by_cases same : o = id
    · simp [same]
    · simp [same, Ne.symm same]
  | dropInstance id inst =>
    simp only [exec, registeredBy, release_instances]
  | upgradeOrNew id gvk =>
    simp only [exec, registeredBy]
    split <;> rfl
  | register id controller src => rfl
  | lookup controller src => rfl

/-- An answered call is what an attempt expects of it. -/
theorem SourceChange.seen {before after : SourceChange} {call : Call} {reply : Reply call}
    (covered : before.Invariant o tracked)
    (answered : (attempts o tracked (CleansUp tracked)).answers () before call reply after) :
    (resumption o tracked).answers (before.progress o) call reply (after.progress o) := by
  obtain ⟨served, fine, cleaned⟩ := answered
  refine ⟨System.answersBy_honest served, fine, ?_, ?_⟩
  · unfold Shows
    split
    · rename_i sync patch written
      rintro rfl
      obtain ⟨current, found, same⟩ := (Faulty.syncPatched served.1).status.2 written rfl
      unfold Covered
      rw [ObjectSync.destinationList_eq_of_status same]
      exact covered current found
    · rename_i id found
      rintro rfl
      have replied : (before.system.memory.exec (.getInstance id)).1 = found :=
        congrArg Prod.fst served.1
      rw [← replied, Memory.exec_getInstance]
      rfl
    · trivial
  · unfold progress
    rw [cleaned]
    congr 1
    cases call with
    | memory op =>
      have executed : (before.system.memory.exec op).2 = after.system.memory :=
        congrArg Prod.snd served.1
      rw [← executed]
      exact Memory.exec_registered ..
    | api request => rw [served.2]; rfl
    | namespaces => rw [(served : after.system = before.system)]; rfl
    | clock => rw [(served : after.system = before.system)]; rfl

/-- A call that publishes nothing before the cleanup keeps the invariant. -/
theorem SourceChange.Invariant.answered {before after : SourceChange} {call : Call}
    {reply : Reply call} (covered : before.Invariant o tracked)
    (answered : (attempts o tracked (CleansUp tracked)).answers () before call reply after)
    (guaranteed : Publishes call → tracked ⊆ before.cleaned) : after.Invariant o tracked := by
  obtain ⟨served, -, cleaned⟩ := answered
  have grown : before.cleaned ⊆ after.cleaned := by
    rw [cleaned]
    exact subset_cleanedBy before.cleaned call reply
  have still (same : after.system.server.syncs o.name = before.system.server.syncs o.name) :
      after.Invariant o tracked := by
    intro sync found key member
    rw [same] at found
    exact (covered sync found key member).imp id fun done => grown done
  cases call with
  | api request =>
    by_cases target : request.syncTarget = some o.name
    · cases request with
      | replaceSyncStatus name body =>
        intro sync found key member
        exact .inr (grown (guaranteed trivial member))
      | jsonPatchSync name patch =>
        obtain rfl : name = o.name := Option.some.inj target
        intro sync found key member
        obtain ⟨current, was, same⟩ := (Faulty.syncPatched served.1).status.1 sync found
        rw [ObjectSync.destinationList_eq_of_status same]
        exact (covered current was key member).imp id fun done => grown done
      | _ => cases target
    · exact still ((Faulty.effect served.1).syncs_eq target)
  | memory op => exact still (by rw [served.2])
  | namespaces => exact still (by rw [(served : after.system = before.system)])
  | clock => exact still (by rw [(served : after.system = before.system)])

/-- Every attempt keeps its part of the discipline. -/
theorem attemptDiscipline_kept : (attemptDiscipline o tracked).Kept := by
  rintro ⟨⟩ before program after covered ready ⟨sync, found, rfl, rfl⟩
  refine ⟨covered, fun _ _ => rfl, ?_⟩
  have of := ObjectSyncModifications.of_new (after.system.server.syncNamed found).ofSync
  have holds := @wp_check_resumes o tracked (after.progress o) (.new sync) of
    (covered sync found) ready
  refine wp_mono ?_ ?_ ?_ ?_ (wp_view ((attemptDiscipline o tracked).contract ())
    (SourceChange.progress o) ?_ ?_ holds)
  · exact fun _ _ moves => moves
  · exact fun _ _ _ _ answered => answered
  · intro first call reply second answered guaranteed
    exact ⟨answered.1.answered answered.2 guaranteed, fun other different =>
      absurd rfl different, guaranteed⟩
  · exact fun _ _ kept => kept
  · exact fun _ _ moves => moves.1
  · exact fun first call reply second answered => SourceChange.seen answered.1 answered.2

/-- **Source changes.** When the reads and deletions by which an attempt cleans up do not fail, then
in every sequence of attempts, whatever else fails in them, the ObjectSync is registered anew only
after every destination that it tracked has been deleted. -/
theorem registers_after_cleanup
    {start pool : Pool Unit Call Reply SourceChange
      (ObjectSyncModifications × Except ControllerError Unit)}
    (idle : start.running () = none)
    (registered : (start.world.system.memory.instances o).isSome)
    (tracks : ∀ sync, start.world.system.server.syncs o.name = some sync →
      ∀ key ∈ tracked, key ∈ sync.destinationList.map (·.key))
    (reach : (attempts o tracked (CleansUp tracked)).Reach start pool)
    {id : ObjectSyncRef} {controller : ControllerId} {src : SourceRef}
    (registers : pool.pending () = some (.memory (.register id controller src))) :
    ∀ key ∈ tracked, key ∈ pool.world.cleaned := by
  have initially : (attemptDiscipline o tracked).Holds start := by
    refine ⟨fun sync found key member => .inl (tracks sync found key member), ?_, ?_⟩
    · intro _ _ unregistered
      have registered' : (start.world.progress o).registered = true := registered
      rw [registered'] at unregistered
      cases unregistered
    · intro _ program running
      rw [idle] at running
      cases running
  have holds := initially.reach attemptDiscipline_kept reach
  obtain ⟨resume, running⟩ := Pool.exists_resume registers
  let reply := pool.world.system.memory.exec (.register id controller src)
  have answered : (attempts o tracked (CleansUp tracked)).answers () pool.world
      (.memory (.register id controller src)) reply.1
      ⟨⟨pool.world.system.server, reply.2⟩, pool.world.cleaned⟩ := ⟨⟨rfl, rfl⟩, trivial, rfl⟩
  exact fun key member => holds.ensured running answered trivial member

end Attempts

/-- A server that serves every request lets an attempt clean up. -/
theorem Served.cleansUp {maker : Option ObjectSyncRef} {server after : Server}
    {request : ApiRequest} {reply : Except KubeError (ApiValue request)}
    (served : Served maker server request reply after) (tracked cleaned : List ObjectKey) :
    CleansUp tracked cleaned (.api request) reply := by
  obtain ⟨choice, eq⟩ := served
  cases request with
  | get api name =>
    simp only [Server.serve] at eq
    split at eq
    · obtain ⟨rfl, -⟩ := Prod.mk.inj eq
      exact .inl rfl
    · obtain ⟨rfl, -⟩ := Prod.mk.inj eq
      trivial
  | delete api name =>
    simp only [Server.serve] at eq
    split at eq
    · obtain ⟨rfl, -⟩ := Prod.mk.inj eq
      exact .inl rfl
    · obtain ⟨rfl, -⟩ := Prod.mk.inj eq
      exact .inl rfl
  | _ => trivial

namespace SourceChange

/-- Answer all calls of an attempt, with nothing failing. -/
def answer (resourceVersion : String) : Handler Call Reply SourceChange :=
  fun state call =>
    let (reply, system) :=
      state.system.answer (some settingsRef) ⟨"u", resourceVersion, 0, []⟩ [] "now" call
    (reply, ⟨system, cleanedBy state.cleaned call reply⟩)

/-- Answer the calls of the attempt, but refuse all requests. -/
def refuse (resourceVersion : String) : Handler Call Reply SourceChange
  | state, .api _ => (.error (.api 500 "internal error"), state)
  | state, other => answer resourceVersion state other

/-- The call reads the status of an ObjectSync. -/
def readsStatus : Call → Bool
  | .api (.getSyncStatus _) => true
  | _ => false

/-- Answers without a failure are possible. -/
theorem answer_allowed (tracked : List ObjectKey) (resourceVersion : String)
    (state : SourceChange) (call : Call) :
    (attempts settingsRef tracked (CleansUp tracked)).answers () state call
      (answer resourceVersion state call).1 (answer resourceVersion state call).2 := by
  have served := System.answer_allowed (some settingsRef) ⟨"u", resourceVersion, 0, []⟩ [] "now"
    state.system call
  refine ⟨System.answersBy_mono (fun _ _ _ _ => .served) served, ?_, rfl⟩
  cases call with
  | api request => exact Served.cleansUp served.1 tracked state.cleaned
  | _ => trivial

/-- Any request may be refused, where that does not keep an attempt from cleaning up. -/
theorem refuse_allowed {tracked : List ObjectKey}
    {fine : List ObjectKey → (call : Call) → Reply call → Prop} (resourceVersion : String)
    (state : SourceChange) (call : Call)
    (permitted : fine state.cleaned call (refuse resourceVersion state call).1) :
    (attempts settingsRef tracked fine).answers () state call (refuse resourceVersion state call).1
      (refuse resourceVersion state call).2 := by
  cases call with
  | api request =>
    refine ⟨⟨.refused (by decide), rfl⟩, permitted, ?_⟩
    cases request <;> rfl
  | memory op => exact ⟨⟨rfl, rfl⟩, permitted, rfl⟩
  | namespaces => exact ⟨rfl, permitted, rfl⟩
  | clock => exact ⟨rfl, permitted, rfl⟩

end SourceChange

/-- The pools of attempts to check one ObjectSync. -/
abbrev AttemptPool := Pool Unit Call Reply SourceChange
  (ObjectSyncModifications × Except ControllerError Unit)

/-- The ObjectSync after its source was edited. -/
def editedSync : ObjectSync :=
  { trackedSync with
    spec :=
      { trackedSync.spec with source := { trackedSync.spec.source with name := "other" } } }

namespace AttemptPool

/-- The ObjectSync is registered with its former source, whose copy exists. -/
def fresh : AttemptPool :=
  ⟨⟨⟨(Server.empty.putSync settingsRef.name (some editedSync)
      (by rintro _ ⟨⟩; exact ⟨rfl, rfl⟩)).put settingsCopy (some settingsCopied)
      @settingsCopied_named, registeredOnce.world.system.memory⟩, []⟩, fun _ => none⟩

/-- The pool after an attempt has started. -/
def check (pool : AttemptPool) : AttemptPool :=
  pool.set () (some (ObjectSyncController.check
    (.new ((pool.world.system.server.syncs settingsRef.name).getD editedSync)))) pool.world

/-- The pool after some calls of the attempt are answered. -/
def answered (pool : AttemptPool) (resourceVersion : String) (count : Nat) : AttemptPool :=
  pool.calls () (SourceChange.answer resourceVersion) count

/-- The pool after a call of the attempt was refused. -/
def refused (pool : AttemptPool) (resourceVersion : String) : AttemptPool :=
  pool.calls () (SourceChange.refuse resourceVersion) 1

/-- The pool after the attempt has ended. -/
def ended (pool : AttemptPool) : AttemptPool := pool.set () none pool.world

end AttemptPool

/-- The first attempt cannot read the copy; the second one is about to register the ObjectSync. -/
def changeForgotten : AttemptPool :=
  ((AttemptPool.fresh.check.answered "3" 3).refused "3" |>.answered "3" 1).ended.check.answered "4"
    3

/-- The first attempt cannot write the status after it has cleaned up; the second one is about to
register the ObjectSync. -/
def changeResumed : AttemptPool :=
  ((AttemptPool.fresh.check.answered "3" 7).refused "3" |>.answered "3" 1).ended.check.answered "4"
    3

section Schedules

variable {tracked : List ObjectKey} {fine : List ObjectKey → (call : Call) → Reply call → Prop}
  {pool : AttemptPool}

/-- An attempt may start from the current ObjectSync. -/
theorem AttemptPool.reach_check (idle : pool.running () = none)
    (found : (pool.world.system.server.syncs settingsRef.name).isSome) :
    (attempts settingsRef tracked fine).Reach pool pool.check := by
  obtain ⟨sync, found⟩ := Option.isSome_iff_exists.mp found
  have step : (attempts settingsRef tracked fine).Step pool pool.check := by
    refine .start () idle ⟨sync, found, ?_, rfl⟩
    rw [found]
    rfl
  exact .single step

/-- An attempt may end. -/
theorem AttemptPool.reach_ended (done : (pool.result ()).isSome) :
    (attempts settingsRef tracked fine).Reach pool pool.ended := by
  obtain ⟨value, done⟩ := Option.isSome_iff_exists.mp done
  have step : (attempts settingsRef tracked fine).Step pool pool.ended :=
    .finish () (Pool.running_of_result done) rfl
  exact .single step

end Schedules

/-- The second attempt registers the ObjectSync while the copy of the former source exists. -/
theorem changeForgotten_registers :
    (attempts settingsRef [settingsCopy] fun _ _ _ => True).Reach AttemptPool.fresh
      changeForgotten ∧
      changeForgotten.pending () =
        some (.memory (.register settingsRef 1 (SourceRef.ofSync editedSync))) ∧
      settingsCopy ∉ changeForgotten.world.cleaned ∧
      changeForgotten.world.system.server.LiveCopy settingsRef settingsCopy := by
  have answers (pool : AttemptPool) (resourceVersion : String) (count : Nat) :
      (attempts settingsRef [settingsCopy] fun _ _ _ => True).Reach pool
        (pool.answered resourceVersion count) := by
    refine Rules.reach_calls (fun state call => ?_) pool count
    have allowed := SourceChange.answer_allowed [settingsCopy] resourceVersion state call
    exact ⟨allowed.1, trivial, allowed.2.2⟩
  have refuses (pool : AttemptPool) :
      (attempts settingsRef [settingsCopy] fun _ _ _ => True).Reach pool (pool.refused "3") :=
    Rules.reach_calls (fun state call => SourceChange.refuse_allowed "3" state call trivial) pool 1
  refine ⟨?_, by decide +kernel, by decide +kernel, by decide +kernel⟩
  have started := @AttemptPool.reach_check [settingsCopy] (fun _ _ _ => True) AttemptPool.fresh rfl
    (by decide +kernel)
  have first := ((started.trans (answers _ "3" 3)).trans (refuses _)).trans (answers _ "3" 1)
  have second := (first.trans (AttemptPool.reach_ended (by decide +kernel))).trans
    (AttemptPool.reach_check rfl (by decide +kernel))
  exact second.trans (answers _ "4" 3)

/-- In the other case the second attempt registers it after the copy was deleted. -/
theorem changeResumed_cleaned :
    changeResumed.pending () =
        some (.memory (.register settingsRef 1 (SourceRef.ofSync editedSync))) ∧
      ∀ key ∈ [settingsCopy], key ∈ changeResumed.world.cleaned := by
  have answers (pool : AttemptPool) (resourceVersion : String) (count : Nat) :
      (attempts settingsRef [settingsCopy] (CleansUp [settingsCopy])).Reach pool
        (pool.answered resourceVersion count) :=
    Rules.reach_calls (SourceChange.answer_allowed [settingsCopy] resourceVersion) pool count
  have refuses (pool : AttemptPool) (pass : pool.callsPass () (SourceChange.refuse "3")
      (fun _ call => SourceChange.readsStatus call) 1) :
      (attempts settingsRef [settingsCopy] (CleansUp [settingsCopy])).Reach pool
        (pool.refused "3") := by
    refine Rules.reach_calls_of_pass (fun state call passes => ?_) pool 1 pass
    refine SourceChange.refuse_allowed "3" state call ?_
    cases call with
    | api request =>
      cases request with
      | getSyncStatus sync => trivial
      | _ => exact absurd passes Bool.false_ne_true
    | _ => exact absurd passes Bool.false_ne_true
  have registers : changeResumed.pending () =
      some (.memory (.register settingsRef 1 (SourceRef.ofSync editedSync))) := by decide +kernel
  refine ⟨registers, @registers_after_cleanup settingsRef [settingsCopy] AttemptPool.fresh _ rfl
    (by decide +kernel) ?_ ?_ _ _ _ registers⟩
  · intro sync found key member
    have current : AttemptPool.fresh.world.system.server.syncs settingsRef.name =
      some editedSync := by decide +kernel
    rw [← Option.some.inj (current.symm.trans found)]
    exact member
  · have started := @AttemptPool.reach_check [settingsCopy] (CleansUp [settingsCopy])
      AttemptPool.fresh rfl (by decide +kernel)
    have first := ((started.trans (answers _ "3" 7)).trans (refuses _ (by decide +kernel))).trans
      (answers _ "3" 1)
    have second := (first.trans (AttemptPool.reach_ended (by decide +kernel))).trans
      (AttemptPool.reach_check rfl (by decide +kernel))
    exact second.trans (answers _ "4" 3)

end ObjectSyncer
