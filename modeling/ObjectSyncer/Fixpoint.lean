import ObjectSyncer.Coexistence

/-!
# Nothing left to do

After the runs of resource controllers have converged, further runs for the same source objects
only look: however they are interleaved, and as long as others leave their footprints alone, nothing
is written any more.
-/
namespace ObjectSyncer

open Interaction Interaction.Program Server

/-- A call that reads changes nothing. -/
theorem Call.reads_still {maker : Option ObjectSyncRef} {before after : Server} {asked : Call}
    {reply : Reply asked} (reads : asked.reads = true)
    (answered : answersBy (Served maker) before asked reply after) : after = before := by
  cases asked with
  | api request =>
    obtain ⟨choice, served⟩ := answered
    have effect : (before.serve maker choice request).2 = before := by
      cases request with
      | get api name =>
        simp only [serve]
        split <;> rfl
      | getSync sync =>
        simp only [serve]
        split <;> rfl
      | getSyncStatus sync =>
        simp only [serve]
        split <;> rfl
      | discoverGroup group =>
        simp only [serve]
        split <;> rfl
      | _ => cases reads
    rw [served] at effect
    exact effect
  | _ => exact answered

namespace ResourceControllerImpl

/-- Nothing is left to do for an ObjectSync: its entries are those of the expected destinations,
which are different objects and do not terminate, and all of them are current. -/
structure Quiet (controller : ResourceControllerImpl) (revision : ObjectRevision)
    (sync : ObjectSync) (cache : List Namespace) (server : Server) : Prop where
  recorded : ∃ recorded, sync.statusDestinations = some recorded ∧
    (recorded.Pairwise fun left right => left.le right = true) ∧
    (recorded.map (·.target)).Perm
      ((expectedDestinations sync cache).map controller.expectedStatus) ∧
    ∀ d ∈ recorded, server.Current revision d ∧ ∀ stored, server.objects d.key = some stored →
      stored.object.metadata.terminating = false
  distinct : ((expectedDestinations sync cache).map fun target => (target.1, target.2.1)).Nodup

/-- Whether something is left to do can be seen in the footprint of a run. -/
theorem Quiet.of_same {self : ResourceControllerImpl} {revision : ObjectRevision}
    {o : ObjectSyncRef} {sync : ObjectSync} {cache : List Namespace} {server after : Server}
    (quiet : self.Quiet revision sync cache server)
    (same : (self.footprint o sync cache).Same server after) :
    self.Quiet revision sync cache after := by
  obtain ⟨recorded, tracked, ordered, perm, each⟩ := quiet.recorded
  refine ⟨⟨recorded, tracked, ordered, perm, fun d member => ?_⟩, quiet.distinct⟩
  have touched : d.key ∈ self.touchedKeys sync cache := by
    have listed : sync.destinationList = recorded := ObjectSync.destinationList_of_tracked tracked
    refine List.mem_append_left _ ?_
    rw [listed]
    exact List.mem_map_of_mem member
  have unchanged : after.objects d.key = server.objects d.key := same.objects _ touched
  obtain ⟨current, live⟩ := each d member
  exact ⟨current.of_eq unchanged, fun stored found => live stored (unchanged.symm.trans found)⟩

end ResourceControllerImpl

open ResourceControllerImpl

namespace Reconciliation

section Quiet

variable {run : Reconciliation} {footprint inner : Footprint} {server start : Server}

/-- A run for an ObjectSync for which nothing is left to do only looks, in company. -/
theorem wp_reconcileSource_quiet {o : ObjectSyncRef} {sync : ObjectSync} {source : DynamicObject}
    (identity : ObjectSyncRef.ofSync sync = o)
    (quiet : run.controller.Quiet source.metadata.revision sync run.cache server)
    (inside : (run.controller.footprint o sync run.cache).Inside footprint) :
    (run.controller.reconcileSource (.new sync) source).wp
      ((run.observing footprint).under (some o))
      (fun _ _ => True) server := by
  obtain ⟨recorded, tracked, ordered, perm, each⟩ := quiet.recorded
  have keys := nodup_keys_of_targets run.controller quiet.distinct
  have watched := @wp_reconcileSource_watching (some o) run.cache server run.controller sync source
    recorded tracked ordered perm keys (fun d member => (each d member).1)
    fun d member => (each d member).2
  have shape := @requests_reconcileSource_footprint run.controller o sync run.cache identity source
  have related : ((run.observing footprint).under (some o)).Shadows (watching (some o) run.cache)
      (run.controller.footprint o sync run.cache).Admits
      (run.controller.footprint o sync run.cache).Same := by
    refine ⟨fun same moves => ⟨_, rfl, same.trans (moves.mono inside)⟩, ?_⟩
    intro shadow world asked reply after same admits answered
    cases asked with
    | api request =>
      obtain ⟨choice, served⟩ := answered.1
      obtain ⟨agree, later⟩ := Footprint.serve_same (some o) choice admits same
      rw [served] at agree later
      exact ⟨(shadow.serve (some o) choice request).2,
        ⟨⟨choice, Prod.ext agree rfl⟩, trivial, trivial⟩, later⟩
    | _ =>
      have still : after = world := answered.1
      subst still
      exact ⟨shadow, ⟨rfl, answered.2.1, trivial⟩, same⟩
  refine wp_imp (fun _ _ _ => trivial) (wp_shadow related
    (fun _ _ _ _ answered => informed_of_served answered.1 answered.2.1) shape ?_ watched
    (.refl _ server))
  intro _ _ before asked reply after reads answered
  refine ⟨?_, Call.reads_still reads answered.1⟩
  cases asked with
  | memory op => cases reads
  | _ => exact reads

/-- The loop over ObjectSyncs for which nothing is left to do only looks. -/
theorem wp_reconcileAll_quiet {source : DynamicObject} (todo : List ObjectSync)
    (quiet : ∀ sync ∈ todo,
      run.controller.Quiet source.metadata.revision sync run.cache start)
    (inside : ∀ sync ∈ todo,
      (run.controller.footprint (.ofSync sync) sync run.cache).Inside footprint)
    (same : footprint.Same start server) :
    (run.controller.reconcileAll source (todo.map .new)).wp (run.observing footprint)
      (fun _ after => footprint.Same start after) server := by
  induction todo generalizing server with
  | nil => exact same
  | cons sync rest ih =>
    have here := inside sync List.mem_cons_self
    have single := wp_reconcileSource_quiet rfl
      ((quiet sync List.mem_cons_self).of_same (same.mono here)) here
    rw [List.map_cons, reconcileAll, wp_bind]
    refine wp_imp ?_ (wp_guaranteed ?_ ?_ ((wp_label _ _).mpr single) same)
    · rintro value after ⟨same, -⟩
      exact ih (fun other member => quiet other (List.mem_cons_of_mem _ member))
        (fun other member => inside other (List.mem_cons_of_mem _ member)) same
    · exact fun _ _ same moves => same.trans moves
    · rintro before asked reply after same - ⟨-, rfl⟩
      exact same

/-- Nothing is left to do for a source that carries the finalizer. -/
structure Quiet (run : Reconciliation) (server : Server) : Prop where
  admitted : run.controller.isSourceNamespace run.ref.name.namespace_ = true
  registered : run.refs ≠ []
  live : run.object.metadata.terminating = false
  carries : finalizer ∈ run.object.metadata.finalizerList
  due : ∀ o sync, run.Due server o sync →
    run.controller.Quiet run.object.metadata.revision sync run.cache server

/-- A run of `reconcile` that has nothing left to do only looks. -/
theorem wp_reconcile_quiet (quiet : run.Quiet start)
    (same : (run.footprint start).Same start server) :
    (run.controller.reconcile run.object).wp (run.observing (run.footprint start))
      (fun action after => action = .requeue fullReconcileIntervalSecs ∧
        (run.footprint start).Same start after) server := by
  unfold reconcile
  dsimp only
  rw [wp_bind, wp_label]
  refine wp_imp ?_ (wp_lookup_observing quiet.admitted quiet.registered
    (fun o member => ⟨o, member, rfl⟩) same)
  rintro _ middle ⟨rfl, same⟩
  have live : (ensureGvk run.object run.controller.gvk).metadata.terminating = false := quiet.live
  have carries : finalizer ∈ (ensureGvk run.object run.controller.gvk).metadata.finalizerList :=
    quiet.carries
  dsimp only
  rw [if_neg (Bool.eq_false_iff.mp live)]
  unfold addFinalizerIfMissing
  rw [if_pos carries, pure_eq, wp_bind, wp_label, wp_done]
  dsimp only
  rw [wp_bind]
  refine wp_imp (fun _ _ same => ⟨rfl, same⟩) (wp_reconcileAll_quiet (run.dueSyncs start run.refs)
    (fun sync member => quiet.due _ sync (mem_dueSyncs.mp member)) (fun sync member => ?_) same)
  have due := mem_dueSyncs.mp member
  exact ⟨fun key touched => .inr ⟨_, sync, due, touched⟩,
    fun name same => ⟨_, due.registered, same.symm⟩⟩

/-- A run that has ended leaves nothing to do, if the source carried the finalizer and all expected
destinations of one ObjectSync are different objects. -/
theorem Achieved.quiet {contents : Contents} (prepared : run.Prepared contents start)
    (achieved : run.Achieved start server)
    (carries : finalizer ∈ run.object.metadata.finalizerList)
    (distinct : ∀ o sync, run.Due start o sync →
      ((expectedDestinations sync run.cache).map fun target => (target.1, target.2.1)).Nodup) :
    run.Quiet server where
  admitted := prepared.admitted
  registered := prepared.registered
  live := prepared.live
  carries := carries
  due := by
    intro o sync' due'
    -- The ObjectSync was to be synchronized before.
    have before : ∃ sync, run.Due start o sync := by
      by_contra none
      have notDue : ∀ sync, ¬run.Due start o sync := not_exists.mp none
      have same := achieved.others o due'.registered notDue
      exact notDue sync' ⟨due'.registered, same.symm.trans due'.found, due'.current⟩
    obtain ⟨sync, due⟩ := before
    have upToDate := achieved.upToDate o sync due
    obtain ⟨found', found, only, recorded, tracked, targets, current⟩ :=
      (upToDate.current (distinct o sync due)).persisted
    obtain rfl : sync' = found' := Option.some.inj (due'.found.symm.trans found)
    have expected := expectedDestinations_congr only.spec only.namespace_ run.cache
    have perm : (recorded.map (·.target)).Perm
        ((expectedDestinations sync run.cache).map run.controller.expectedStatus) := by
      rw [targets]
      exact sortDestinations_perm _
    have ordered : recorded.Pairwise fun left right => left.le right = true := by
      have sorted := pairwise_sortDestinations
        ((expectedDestinations sync run.cache).map run.controller.expectedStatus)
      rw [sortedTargets] at targets
      rw [← targets, List.pairwise_map] at sorted
      exact sorted
    refine ⟨⟨recorded, tracked, ordered, expected ▸ perm, fun d member => ⟨current d member, ?_⟩⟩,
      expected ▸ distinct o sync due⟩
    intro stored stored_
    obtain ⟨target, wanted, designates⟩ :=
      List.mem_map.mp (perm.mem_iff.mp (List.mem_map_of_mem (f := (·.target)) member))
    obtain ⟨inPlace, -, -⟩ := upToDate.converged
    obtain ⟨copy, found, live, -⟩ := inPlace target wanted
    have key : (run.controller.expectedStatus target).key = d.key := by
      rw [designates, DestinationStatus.target_key]
    rw [key, stored_] at found
    exact Option.some.inj found ▸ live

end Quiet

end Reconciliation

section Fixpoint

variable {Thread : Type}

/-- Each thread makes runs of `reconcile` of its own, one after the other. Meanwhile others leave
the footprints of all runs alone. -/
def repetition (runs : Thread → Reconciliation) (start : Server) :
    Rules Thread (Option ObjectSyncRef × Call) (fun call => Reply call.2) Server Action where
  starts thread world program after :=
    program = (runs thread).controller.reconcile (runs thread).object ∧ after = world
  answers thread before call reply after := answersBy (Served call.1) before call.2 reply after ∧
    Cached (runs thread).cache call.2 reply ∧ (runs thread).Registers call.2 reply
  ends _ before _ after := after = before
  moves before after := ∀ thread, ((runs thread).footprint start).Same before after

/-- Looking keeps every footprint. -/
theorem Reconciliation.footprint_refl (runs : Thread → Reconciliation) (start : Server)
    (thread : Thread) (world : Server) : ((runs thread).footprint start).Same world world :=
  .refl _ _

/-- What keeps a footprint twice keeps it. -/
theorem Reconciliation.footprint_trans (runs : Thread → Reconciliation) (start : Server)
    {thread : Thread} {first second third : Server}
    (earlier : ((runs thread).footprint start).Same first second)
    (later : ((runs thread).footprint start).Same second third) :
    ((runs thread).footprint start).Same first third :=
  earlier.trans later

/-- All runs only look, and all footprints stay as they were. -/
def repetitionDiscipline (runs : Thread → Reconciliation) (start : Server) :
    Discipline (repetition runs start) where
  invariant world := ∀ thread, ((runs thread).footprint start).Same start world
  rely thread := ((runs thread).footprint start).Same
  ensures _ before call _ after := call.2.looks = true ∧ after = before
  idle _ _ := True
  post _ action _ := action = .requeue fullReconcileIntervalSecs
  rely_refl := Reconciliation.footprint_refl runs start
  rely_trans := @Reconciliation.footprint_trans Thread runs start
  idle_stable _ _ _ _ := trivial
  post_stable _ _ post := post
  ends still _ ended := by
    cases ended
    exact ⟨still, trivial, fun _ _ => .refl _ _⟩
  moves still moved := ⟨fun thread => (still thread).trans (moved thread), moved⟩

/-- Runs that have nothing left to do keep the discipline. -/
theorem repetitionDiscipline_kept {runs : Thread → Reconciliation} {start : Server}
    (quiet : ∀ thread, (runs thread).Quiet start) : (repetitionDiscipline runs start).Kept := by
  rintro thread before _ _ still - ⟨rfl, rfl⟩
  refine ⟨still, fun other _ => .refl _ _, ?_⟩
  refine wp_mono ?_ ?_ ?_ ?_ (Reconciliation.wp_reconcile_quiet (quiet thread) (still thread))
  · exact fun _ _ moves => moves.1
  · exact fun _ _ _ _ answered => answered.2
  · rintro world call reply after answered ⟨looks, rfl⟩
    exact ⟨answered.1, fun _ _ => .refl _ _, looks, rfl⟩
  · exact fun _ _ ended => ended.1

/-- **Reconciliation comes to rest.** After the runs of `reconcile` for some sources have ended, in
whatever order their calls were answered, any further runs for the same source objects, in any order
again, only look and change nothing. -/
theorem reconciles_rest [DecidableEq Thread] {contents : Contents} {runs : Thread → Reconciliation}
    {pool pool' pool'' : Pool Thread (Option ObjectSyncRef × Call) (fun call => Reply call.2) Server
      Action}
    (prepared : ∀ thread, (runs thread).Prepared contents pool.world)
    (apart : ∀ thread other, thread ≠ other →
      ((runs thread).footprint pool.world).Apart ((runs other).footprint pool.world))
    (carries : ∀ thread, finalizer ∈ (runs thread).object.metadata.finalizerList)
    (distinct : ∀ thread o sync, (runs thread).Due pool.world o sync →
      ((expectedDestinations sync (runs thread).cache).map
        fun target => (target.1, target.2.1)).Nodup)
    (determined : pool.world.Determined contents) (settled : pool.world.Settled)
    (idle : ∀ thread, pool.running thread = none)
    (reach : (coexistence contents runs pool.world).Reach pool pool')
    (done : ∀ thread, (pool'.result thread).isSome)
    (further : (repetition runs pool'.world).Reach ⟨pool'.world, fun _ => none⟩ pool'') :
    (∀ thread, ((runs thread).footprint pool'.world).Same pool'.world pool''.world) ∧
      ∀ thread call resume reply after, pool''.running thread = some (.call call resume) →
        (repetition runs pool'.world).answers thread pool''.world call reply after →
          call.2.looks = true ∧ after = pool''.world := by
  have holds := coexistence_holds prepared apart determined settled idle reach
  have quiet (thread : Thread) : (runs thread).Quiet pool'.world := by
    obtain ⟨action, ended⟩ := Option.isSome_iff_exists.mp (done thread)
    have achieved := (holds.running thread _ (Pool.running_of_result ended)).2
    exact achieved.quiet (prepared thread) (carries thread) (distinct thread)
  have start : (repetitionDiscipline runs pool'.world).Holds ⟨pool'.world, fun _ => none⟩ :=
    ⟨fun thread => .refl _ _, fun _ _ => trivial, nofun⟩
  have rests := start.reach (repetitionDiscipline_kept quiet) further
  exact ⟨rests.world, fun thread call resume reply after running answered =>
    rests.ensured running answered⟩

end Fixpoint

/-- The start of the runs that repeat those of `markedPool`, which have ended. -/
def restingStart :
    Pool Bool (Option ObjectSyncRef × Call) (fun call => Reply call.2) Server Action :=
  ⟨markedPool.world, fun _ => none⟩

/-- The repeated runs in turns, of which the second one has not ended yet. -/
def restingPool :
    Pool Bool (Option ObjectSyncRef × Call) (fun call => Reply call.2) Server Action :=
  restingStart |> markedStarted true |> markedStarted false |> markedCalls false 2 |>
    markedCalls true 20

/-- The schedule of the repeated runs is an interleaving. -/
theorem resting_reach :
    (repetition markedRuns markedPool.world).Reach restingStart restingPool := by
  have calls (thread : Bool) (count : Nat) (pool : Pool Bool (Option ObjectSyncRef × Call)
      (fun call => Reply call.2) Server Action) :
      (repetition markedRuns markedPool.world).Reach pool (markedCalls thread count pool) :=
    Rules.reach_calls (fun world asked => (markedRuns thread).answered _ world asked) pool count
  have started : (repetition markedRuns markedPool.world).Reach restingStart
      (restingStart |> markedStarted true |> markedStarted false) :=
    .head (.start true rfl ⟨rfl, rfl⟩) (.head (.start false rfl ⟨rfl, rfl⟩) .refl)
  exact (started.trans (calls false 2 _)).trans (calls true 20 _)

/-- The run that has not ended looks next, and the other one has changed nothing. -/
theorem restingPool_rests :
    (restingPool.result false = none ∧ ¬∃ call resume,
      restingPool.running false = some (.call call resume) ∧ call.2.looks = false) ∧
      ((markedRuns true).footprint markedPool.world).Same markedPool.world restingPool.world := by
  have done (thread : Bool) : (markedPool.result thread).isSome := by
    cases thread <;> decide +kernel
  have distinct (thread : Bool) (o : ObjectSyncRef) (sync : ObjectSync)
      (due : (markedRuns thread).Due markedServer o sync) :
      ((expectedDestinations sync settingsNamespaces).map
        fun target => (target.1, target.2.1)).Nodup := by
    obtain ⟨-, rfl⟩ := marked_due due
    cases thread <;> decide +kernel
  have rests := @reconciles_rest _ _ _ _ markedStart markedPool restingPool marked_prepared
    (fun _ _ => marked_apart) (fun _ => List.mem_singleton_self _) distinct markedServer_steady.1
    markedServer_steady.2 (fun _ => rfl) marked_reach done resting_reach
  refine ⟨⟨by decide +kernel, ?_⟩, rests.1 true⟩
  rintro ⟨call, resume, running, writes⟩
  have looks := (rests.2 false call resume _ _ running ((markedRuns false).answered
    ⟨"u", "2", 0, []⟩ restingPool.world call)).1
  rw [writes] at looks
  cases looks

end ObjectSyncer
