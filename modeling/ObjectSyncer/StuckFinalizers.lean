import ObjectSyncer.DependedSources
import ObjectSyncer.ServedRuns

/-!
# Finalizers that nobody removes

A source keeps the finalizer of a resource controller until the deletion of an ObjectSync releases
it, or a resource controller of its kind finds that nobody refers to it. A run of `check` that moves
to another kind and a run of `delete` may end the last resource controller of a kind while its
objects carry the finalizer still. As long as none does, every finalizer can be removed.
-/
namespace ObjectSyncer

open Interaction Interaction.Program

/-- A resource controller of a kind is alive. -/
def Memory.Watches (memory : Memory) (gvk : GroupVersionKind) : Prop :=
  ∃ controller, memory.Alive controller ∧ memory.kind controller = some gvk

/-- An ObjectSync designates an object as its source, or is registered for the kind for which the
object was marked. -/
def System.Tends (system : System) (entry : GroupVersionKind × ObjectKey) (o : ObjectSyncRef) :
    Prop :=
  system.server.SourceOf entry.2 o.name ∨ system.memory.RegisteredWith entry.1 o

/-- Every object that was marked as a source and is the source of no ObjectSync any more lacks the
finalizer, or a resource controller of its kind is still alive. -/
def Cluster.Releasable (cluster : Cluster) : Prop :=
  ∀ gvk key, (gvk, key) ∈ cluster.placed →
    (∀ name, ¬cluster.system.server.SourceOf key name) →
      ¬cluster.system.server.CarriesFinalizer key ∨ cluster.system.memory.Watches gvk

/-- A run leaves no marked object behind. -/
def Cluster.Retains (cluster : Cluster) : Run → Prop
  -- `check` moves to another kind: what was marked for the old one is deleted as a destination, or
  -- is a source still, or another ObjectSync is registered for the old kind.
  | .check o => ∀ sync inst gvk, cluster.system.server.syncs o.name = some sync →
    cluster.system.memory.instances o = some inst →
    cluster.system.server.discovered sync.spec.source = some gvk → inst.gvk ≠ gvk →
    ∀ key, (inst.gvk, key) ∈ cluster.placed → (∃ d ∈ sync.destinationList, d.key = key) ∨
      (∃ name, cluster.system.server.SourceOf key name) ∨
        ∃ other, other ≠ o ∧ cluster.system.memory.RegisteredWith inst.gvk other
  -- `delete` releases the destinations and the source; another ObjectSync tends all other objects.
  | .delete o => ∀ sync, cluster.system.server.syncs o.name = some sync →
    ∀ entry ∈ cluster.placed, (∃ d ∈ sync.destinationList, d.key = entry.2) ∨
      (∃ gvk, cluster.system.server.discovered sync.spec.source = some gvk ∧
        DynamicApi.key ⟨gvk, sync.sourceNamespace.getD ""⟩ sync.sourceName = entry.2) ∨
        ∃ other, other ≠ o ∧ cluster.system.Tends entry other
  | .reconcile .. => True

/-- Users take the last ObjectSync away from a marked object only while another one is registered
for its kind. -/
structure Cluster.EditRetains (before after : Cluster) : Prop where
  /-- The server has removed what users have left to be removed. -/
  present : after.system.server.SyncsPresent
  retained : ∀ gvk key, (gvk, key) ∈ after.placed →
    (∃ name, before.system.server.SourceOf key name) →
      (∃ name, after.system.server.SourceOf key name) ∨
        ∃ o, before.system.memory.RegisteredWith gvk o

/-- What holds between any two runs: only instances refer to resource controllers, and every marked
object carries the finalizer. -/
structure Cluster.Sound (cluster : Cluster) : Prop where
  counted : cluster.system.memory.Counted
    (references cluster.system.memory fun _ => Locals.none)
  present : cluster.system.server.SyncsPresent
  marked : ∀ entry ∈ cluster.placed, cluster.system.server.CarriesFinalizer entry.2

/-- Every marked object is tended by an ObjectSync. -/
def Cluster.Tended (cluster : Cluster) : Prop :=
  ∀ entry ∈ cluster.placed, ∃ o, cluster.system.Tends entry o

section Sequences

variable {α : Type} {start before after : Cluster} {o : ObjectSyncRef} {sync : ObjectSync}
  {cache : List Namespace}

/-- What a run is known to leave, it leaves. -/
theorem meets_run {program : LabelledAsync α} {post : α → Cluster → Prop}
    (returned : Returns Eq (Cluster.answers cache) (program >>= fun _ => pure ()) before () after)
    (holds : program.wp (serving cache) post before) : ∃ value, post value after := by
  have whole : (program >>= fun _ => pure ()).wp (serving cache)
      (fun _ after => ∃ value, post value after) before := by
    rw [wp_bind]
    exact wp_imp (fun value _ kept => ⟨value, kept⟩) holds
  exact returned.meets whole

/-- What a program on behalf of an ObjectSync is known to leave, its run leaves. -/
theorem meets_labelled {program : Async α} {post : α → Cluster → Prop}
    {maker : Option ObjectSyncRef}
    (returned : Returns Eq (Cluster.answers cache) (program.label maker >>= fun _ => pure ()) before
      () after)
    (holds : program.wp ((serving cache).under maker) post before) : ∃ value, post value after :=
  meets_run returned ((wp_label program before).mpr holds)

/-- What is marked after a call carries the finalizer. -/
theorem of_mem_marksAfter {placed : List (GroupVersionKind × ObjectKey)} {server : Server}
    {entry : GroupVersionKind × ObjectKey} (member : entry ∈ marksAfter placed server) :
    entry ∈ placed ∧ server.CarriesFinalizer entry.2 :=
  ⟨(List.mem_filter.mp member).1, of_decide_eq_true (List.mem_filter.mp member).2⟩

/-- After a run all marked objects carry the finalizer. -/
theorem wp_marked {program : LabelledAsync α}
    (marked : ∀ entry ∈ before.placed, before.system.server.CarriesFinalizer entry.2) :
    program.wp (serving cache)
      (fun _ after => ∀ entry ∈ after.placed, after.system.server.CarriesFinalizer entry.2)
      before := by
  refine wp_invariant program ?_ ?_ marked
  · intro world moved kept same
    exact same ▸ kept
  · intro world call reply next _ answered
    refine ⟨trivial, fun entry member => ?_⟩
    rw [answered.2.2.2] at member
    exact (of_mem_marksAfter member).2

/-- A run for an ObjectSync marks nothing. -/
theorem wp_unmarking {program : Async α} :
    program.wp ((serving cache).under (some o)) (fun _ after => after.placed ⊆ before.placed)
      before := by
  refine wp_invariant program ?_ ?_ (List.Subset.refl _)
  · intro world moved kept same
    exact same ▸ kept
  · intro world call reply next kept answered
    refine ⟨trivial, fun entry member => kept ?_⟩
    rw [answered.2.2.2] at member
    exact (List.mem_append.mp (of_mem_marksAfter member).1).resolve_right List.not_mem_nil

/-- A registration is kept with the entry of `instances`. -/
theorem Memory.RegisteredWith.of_eq {memory memory' : Memory} {gvk : GroupVersionKind}
    (registered : memory.RegisteredWith gvk o) (same : memory'.instances o = memory.instances o) :
    memory'.RegisteredWith gvk o := by
  obtain ⟨inst, there, kind⟩ := registered
  exact ⟨inst, same.trans there, kind⟩

/-- What tends an object still does so when it keeps its source and its registration. -/
theorem System.Tends.kept {system system' : System} {entry : GroupVersionKind × ObjectKey}
    (tends : system.Tends entry o) (keeps : system.server.KeepsSources system'.server)
    (same : system'.memory.instances o = system.memory.instances o) : system'.Tends entry o :=
  tends.imp (fun source => source.kept keeps) fun registered => registered.of_eq same

/-- An object that lacks the finalizer does not carry it. -/
theorem Server.Lacks.not_carries {server : Server} {key : ObjectKey} (lacks : server.Lacks key) :
    ¬server.CarriesFinalizer key := by
  rintro ⟨stored, found, listed⟩
  exact lacks stored found listed

/-- Counts that are exact before a run for an ObjectSync are exact after it, and it leaves the
registrations of the others. -/
theorem counted_after {program : Async α}
    (returned : Returns Eq (Cluster.answers cache) (program.label (some o) >>= fun _ => pure ())
      before () after)
    (locals : program.wp (localRun o) (fun _ last => Locals.none = last) Locals.none)
    (counted : before.system.memory.Counted
      (references before.system.memory fun _ => Locals.none)) :
    after.system.memory.Counted (references after.system.memory fun _ => Locals.none) ∧
      ∀ other, other ≠ o →
        after.system.memory.instances other = before.system.memory.instances other := by
  rw [← Locals.only_none o] at counted
  obtain ⟨value, last, rfl, counted', others⟩ := meets_labelled returned (wp_counted locals counted)
  rw [Locals.only_none] at counted'
  exact ⟨counted', others⟩

/-- The run of an ObjectSync that is stored works on it. -/
theorem of_stored (found : before.system.server.syncs o.name = some sync) :
    (ObjectSyncModifications.new sync).Of o :=
  ObjectSyncModifications.of_new (before.system.server.syncNamed found).ofSync

/-- Every run keeps what holds between runs. -/
theorem Cluster.Sound.run {run : Run} {program : LabelledAsync Unit} (sound : before.Sound)
    (starts : run.Starts before program)
    (returned : Returns Eq (Cluster.answers cache) program before () after) : after.Sound := by
  have marked := returned.meets (wp_marked sound.marked)
  cases starts with
  | check found =>
    obtain ⟨counted, -⟩ := counted_after returned (wp_check (of_stored found)) sound.counted
    obtain ⟨-, checked⟩ := meets_labelled returned (wp_check_serving found sound.present)
    exact ⟨counted, checked.present, marked⟩
  | delete found =>
    obtain ⟨counted, -⟩ := counted_after returned (wp_delete_locals (of_stored found)) sound.counted
    obtain ⟨-, retired⟩ := meets_labelled returned (wp_delete_serving found sound.present)
    exact ⟨counted, retired.present, marked⟩
  | reconcile kind alive =>
    obtain ⟨-, memory, present, -⟩ :=
      meets_run returned (wp_reconcile_serving _ _ sound.present)
    exact ⟨by rw [memory]; exact sound.counted, present, marked⟩

/-- Every edit that leaves no ObjectSync to be removed leaves a cluster sound. -/
theorem Cluster.Sound.edit (sound : before.Sound) (edited : Edited before after)
    (present : after.system.server.SyncsPresent) : after.Sound := by
  refine ⟨by rw [edited.memory]; exact sound.counted, present, fun entry member => ?_⟩
  rw [edited.placed] at member
  exact (of_mem_marksAfter member).2

/-- A cluster is sound between the runs of any sequence from a controller that has just started. -/
theorem Sequence.sound {permits : Cluster → Run → Prop} {edits : Cluster → Cluster → Prop}
    (empty : start.system.memory = Memory.empty) (unmarked : start.placed = [])
    (present : start.system.server.SyncsPresent)
    (leaves : ∀ before after, edits before after → after.system.server.SyncsPresent)
    (sequence : Sequence permits edits start after) : after.Sound := by
  induction sequence with
  | start =>
    refine ⟨?_, present, ?_⟩
    · rw [empty]
      exact Memory.counted_empty _ fun _ => rfl
    · rw [unmarked]
      exact fun _ member => absurd member List.not_mem_nil
  | edit _ edited retains ih => exact ih.edit edited (leaves _ _ retains)
  | run _ starts _ returned ih => exact ih.run starts returned

/-- A run of `check` that leaves nothing behind keeps everything tended. -/
theorem Cluster.Tended.check (tended : before.Tended) (sound : before.Sound) (sound' : after.Sound)
    (found : before.system.server.syncs o.name = some sync) (retains : before.Retains (.check o))
    (returned : Returns Eq (Cluster.answers cache)
      ((ObjectSyncController.check (.new sync)).label (some o) >>= fun _ => pure ()) before ()
      after) : after.Tended := by
  obtain ⟨-, others⟩ := counted_after returned (wp_check (of_stored found)) sound.counted
  obtain ⟨-, checked⟩ := meets_labelled returned (wp_check_serving found sound.present)
  obtain ⟨-, fewer⟩ := meets_labelled returned wp_unmarking
  intro entry member
  obtain ⟨other, tends⟩ := tended entry (fewer member)
  by_cases apart : other = o
  · subst apart
    rcases tends with source | registered
    · exact ⟨other, .inl (source.kept checked.keeps)⟩
    · rcases checked.registered with same | moved
      · exact ⟨other, .inr (registered.of_eq same)⟩
      · obtain ⟨inst, there, kind⟩ := registered
        obtain ⟨gvk, known, registered'⟩ := moved
        by_cases stays : inst.gvk = gvk
        · refine ⟨other, .inr ?_⟩
          rw [← kind, stays]
          exact registered'
        · -- The ObjectSync has left the kind of the object.
          have member' : (inst.gvk, entry.2) ∈ before.placed := by
            rw [kind]
            exact fewer member
          rcases retains sync inst gvk found there known stays entry.2 member' with
            deleted | source | registered
          · obtain ⟨d, tracked, same⟩ := deleted
            have lacks := checked.moved inst gvk there known stays d tracked
            rw [same] at lacks
            exact absurd (sound'.marked entry member) lacks.not_carries
          · obtain ⟨name, source⟩ := source
            exact ⟨⟨name⟩, .inl (source.kept checked.keeps)⟩
          · obtain ⟨another, apart, registered⟩ := registered
            rw [kind] at registered
            exact ⟨another, .inr (registered.of_eq (others another apart))⟩
  · exact ⟨other, tends.kept checked.keeps (others other apart)⟩

/-- A run of `delete` that leaves nothing behind keeps everything tended. -/
theorem Cluster.Tended.delete (sound : before.Sound) (sound' : after.Sound)
    (found : before.system.server.syncs o.name = some sync) (retains : before.Retains (.delete o))
    (returned : Returns Eq (Cluster.answers cache)
      ((ObjectSyncController.delete (.new sync)).label (some o) >>= fun _ => pure ()) before ()
      after) : after.Tended := by
  obtain ⟨-, others⟩ := counted_after returned (wp_delete_locals (of_stored found)) sound.counted
  obtain ⟨-, retired⟩ := meets_labelled returned (wp_delete_serving found sound.present)
  obtain ⟨-, fewer⟩ := meets_labelled returned wp_unmarking
  intro entry member
  rcases retains sync found entry (fewer member) with deleted | released | tends
  · obtain ⟨d, tracked, same⟩ := deleted
    have lacks := retired.destinations d tracked
    rw [same] at lacks
    exact absurd (sound'.marked entry member) lacks.not_carries
  · obtain ⟨gvk, known, same⟩ := released
    have lacks := retired.source gvk known
    rw [same] at lacks
    exact absurd (sound'.marked entry member) lacks.not_carries
  · obtain ⟨other, apart, tends⟩ := tends
    refine ⟨other, tends.imp ?_ fun registered => registered.of_eq (others other apart)⟩
    rintro ⟨stored, there, designates⟩
    refine ⟨stored, ?_, designates⟩
    have names : other.name ≠ o.name := fun same => apart (congrArg ObjectSyncRef.mk same)
    rw [retired.others other.name names]
    exact there

/-- A run of `reconcile` keeps everything tended. -/
theorem Cluster.Tended.reconcile {controller : ResourceControllerImpl} {object : DynamicObject}
    (tended : before.Tended) (sound : before.Sound)
    (kind : before.system.memory.kind controller.sources = some controller.gvk)
    (alive : before.system.memory.Alive controller.sources)
    (returned : Returns Eq (Cluster.answers cache)
      (controller.reconcile object >>= fun _ => pure ()) before () after) : after.Tended := by
  obtain ⟨-, memory, -, keeps, placed⟩ :=
    meets_run returned (wp_reconcile_serving controller object sound.present)
  intro entry member
  rcases placed entry member with before' | marked
  · obtain ⟨other, tends⟩ := tended entry before'
    exact ⟨other, tends.kept keeps (by rw [memory])⟩
  · -- The resource controller that marks it lives on a registration.
    obtain ⟨id, held, ⟨slot, refers⟩, -, same⟩ := sound.counted.exists_refers kind alive
    cases slot with
    | entry =>
      obtain ⟨inst, there, rfl⟩ := Option.map_eq_some_iff.mp refers
      refine ⟨id, .inr ⟨inst, ?_, ?_⟩⟩
      · rw [memory]
        exact there
      · rw [marked]
        exact same
    | active => cases refers
    | adding => cases refers

/-- An edit that leaves nothing behind keeps everything tended. -/
theorem Cluster.Tended.edit (tended : before.Tended) (edited : Edited before after)
    (retains : before.EditRetains after) : after.Tended := by
  intro entry member
  have former := member
  rw [edited.placed] at former
  obtain ⟨other, source | registered⟩ := tended entry (of_mem_marksAfter former).1
  · rcases retains.retained entry.1 entry.2 member ⟨other.name, source⟩ with source | registered
    · obtain ⟨name, source⟩ := source
      exact ⟨⟨name⟩, .inl source⟩
    · obtain ⟨another, registered⟩ := registered
      exact ⟨another, .inr (registered.of_eq (by rw [edited.memory]))⟩
  · exact ⟨other, .inr (registered.of_eq (by rw [edited.memory]))⟩

/-- Between runs and edits that leave nothing behind everything is tended. -/
theorem Sequence.tended (empty : start.system.memory = Memory.empty) (unmarked : start.placed = [])
    (present : start.system.server.SyncsPresent)
    (sequence : Sequence Cluster.Retains Cluster.EditRetains start after) : after.Tended := by
  have sound {cluster : Cluster}
      (sequence : Sequence Cluster.Retains Cluster.EditRetains start cluster) : cluster.Sound :=
    sequence.sound empty unmarked present fun _ _ retains => retains.present
  induction sequence with
  | start =>
    unfold Cluster.Tended
    rw [unmarked]
    exact fun _ member => absurd member List.not_mem_nil
  | edit _ edited retains ih => exact ih.edit edited retains
  | run sequence starts retains returned ih =>
    have before := sound sequence
    have after := before.run starts returned
    cases starts with
    | check found => exact ih.check before after found retains returned
    | delete found => exact .delete before after found retains returned
    | reconcile kind alive => exact ih.reconcile before kind alive returned

/-- Where everything is tended, what is the source of no ObjectSync has a live resource controller.
-/
theorem Cluster.Tended.releasable (tended : before.Tended) (sound : before.Sound) :
    before.Releasable := by
  intro gvk key member sourceless
  obtain ⟨other, source | registered⟩ := tended (gvk, key) member
  · exact absurd source (sourceless other.name)
  · obtain ⟨inst, there, rfl⟩ := registered
    have refers : Memory.Refers (references before.system.memory fun _ => Locals.none) other
        inst.held := ⟨.entry, by rw [references, there]; rfl⟩
    have listed := sound.counted.listed_of_refers refers
    exact .inr ⟨inst.resourceController, listed.1, listed.2.1⟩

/-- **No stuck finalizer.** In every sequence of runs and edits from a controller that has just
started, in which no run that leaves a kind and no edit leaves a marked object behind: what is the
source of no ObjectSync any more lacks the finalizer, or a resource controller of its kind is still
alive. -/
theorem marked_sources_releasable (empty : start.system.memory = Memory.empty)
    (unmarked : start.placed = []) (present : start.system.server.SyncsPresent)
    (sequence : Sequence Cluster.Retains Cluster.EditRetains start after) : after.Releasable :=
  (sequence.tended empty unmarked present).releasable
    (sequence.sound empty unmarked present fun _ _ retains => retains.present)

end Sequences

/-- No ObjectSync but one is stored, and it is not to be removed. -/
def Server.Lone (server : Server) (o : ObjectSyncRef) : Prop :=
  ∀ name sync, server.syncs name = some sync → name = o.name ∧ sync.metadata.gone = false

section Lone

variable {o : ObjectSyncRef} {cluster : Cluster}

/-- A run leaves no other ObjectSync. -/
theorem Cluster.after_lone (lone : cluster.system.server.Lone o) (run : Run)
    (resourceVersion : String) : (cluster.after run resourceVersion).system.server.Lone o := by
  have kept : (run.program cluster).wp (serving cluster.cache)
      (fun _ after => after.system.server.Lone o) cluster := by
    refine wp_invariant _ ?_ ?_ lone
    · intro world moved kept same
      exact same ▸ kept
    · intro world call reply after kept answered
      refine ⟨trivial, fun name sync found => ?_⟩
      obtain ⟨maker, call⟩ := call
      have served : System.answersBy (Served maker) world.system call reply after.system :=
        answered.1
      cases call with
      | api request =>
        obtain ⟨⟨former, was⟩, same | remains⟩ :=
          (Faulty.effect (.served served.1)).of_syncs found
        · exact kept name sync same
        · exact ⟨(kept name former was).1, remains⟩
      | memory op =>
        rw [served.2] at found
        exact kept name sync found
      | namespaces =>
        have same : after.system = world.system := served
        rw [same] at found
        exact kept name sync found
      | clock =>
        have same : after.system = world.system := served
        rw [same] at found
        exact kept name sync found
  have returned : Returns Eq (Cluster.answers cluster.cache) (run.program cluster) cluster ()
      (cluster.after run resourceVersion) :=
    returns_run (fun _ => rfl)
      (fun world call => Cluster.answer_allowed _ (versioned resourceVersion) world call) _ cluster
  have ended := returned.meets kept
  exact ended

/-- An ObjectSync after its source was changed. -/
def ObjectSync.withSource (sync : ObjectSync) (change : SourceObject → SourceObject) : ObjectSync :=
  { sync with spec := { sync.spec with source := change sync.spec.source } }

/-- A user changes what an ObjectSync designates as its source. -/
def Cluster.editSource (cluster : Cluster) (o : ObjectSyncRef)
    (change : SourceObject → SourceObject) : Cluster :=
  let server := cluster.system.server.writeSync o.name (·.withSource change) fun _ => ⟨rfl, rfl⟩
  ⟨⟨server, cluster.system.memory⟩, cluster.cache, marksAfter cluster.placed server⟩

/-- Changing the source of an ObjectSync is an edit. -/
theorem Cluster.editSource_edited (cluster : Cluster) (o : ObjectSyncRef)
    (change : SourceObject → SourceObject) : Edited cluster (cluster.editSource o change) :=
  ⟨rfl, rfl⟩

/-- The edit leaves no other ObjectSync. -/
theorem Cluster.editSource_lone (lone : cluster.system.server.Lone o)
    (change : SourceObject → SourceObject) :
    (cluster.editSource o change).system.server.Lone o := by
  intro name sync found
  obtain ⟨⟨former, was⟩, same | remains⟩ :=
    @Server.of_writeSync _ name o.name (·.withSource change) (fun _ => ⟨rfl, rfl⟩) sync found
  · exact lone name sync same
  · exact ⟨(lone name former was).1, remains⟩

end Lone

/-- A server that knows config maps and secrets, with an ObjectSync and its source. -/
def settingsKinds : Server :=
  { settingsSourced with
    apis := fun _ => some ⟨[(⟨"", "v1", "ConfigMap"⟩, .namespaced),
      (⟨"", "v1", "Secret"⟩, .namespaced)]⟩ }

/-- The ObjectSync has been registered, and its source has been marked. -/
def settingsMarked : Cluster :=
  ((Cluster.restarted settingsKinds).after (.check settingsRef) "2").after
    (.reconcile configMaps settingsSource) "3"

/-- The ObjectSync has moved to another config map. -/
def settingsRenamed : Cluster :=
  (settingsMarked.editSource settingsRef fun source => { source with name := "other" }).after
    (.check settingsRef) "4"

/-- The ObjectSync has moved to a secret. -/
def settingsLeft : Cluster :=
  (settingsMarked.editSource settingsRef fun source => { source with kind := "Secret" }).after
    (.check settingsRef) "4"

/-- The server of the settings stores no ObjectSync but theirs. -/
theorem settingsKinds_lone : settingsKinds.Lone settingsRef := by
  intro name sync found
  by_cases same : name = settingsRef.name
  · subst same
    have stored : some settingsSync = some sync := found
    cases stored
    exact ⟨rfl, rfl⟩
  · have none : settingsKinds.syncs name = none := Function.update_of_ne same ..
    have absent : settingsKinds.syncs name = some sync := found
    rw [none] at absent
    cases absent

/-- The runs for the settings leave no other ObjectSync. -/
theorem settingsMarked_lone : settingsMarked.system.server.Lone settingsRef :=
  Cluster.after_lone (Cluster.after_lone settingsKinds_lone _ _) _ _

/-- The controller has started on a server that stores nothing to be removed. -/
theorem settingsKinds_present : settingsKinds.SyncsPresent :=
  fun name sync found => (settingsKinds_lone name sync found).2

/-- The config map that has been marked. -/
def settingsMark : GroupVersionKind × ObjectKey :=
  (configMaps.gvk, ⟨"", "ConfigMap", "default", "settings"⟩)

section Reached

variable {permits : Cluster → Run → Prop} {edits : Cluster → Cluster → Prop}

/-- Registering the ObjectSync and marking its source is a sequence, when both runs are permitted.
-/
theorem settingsMarked_reached
    (checks : permits (.restarted settingsKinds) (.check settingsRef))
    (reconciles : ∀ cluster, permits cluster (.reconcile configMaps settingsSource)) :
    Sequence permits edits (.restarted settingsKinds) settingsMarked :=
  (Sequence.start.after (by decide +kernel) checks "2").after (by decide +kernel) (reconciles _) "3"

/-- Moving to another source continues it, when the edit and the run are permitted. -/
theorem settingsMarked_moved {change : SourceObject → SourceObject}
    (marked : Sequence permits edits (.restarted settingsKinds) settingsMarked)
    (edited : edits settingsMarked (settingsMarked.editSource settingsRef change))
    (able : (Run.check settingsRef).canStart (settingsMarked.editSource settingsRef change) = true)
    (checks : permits (settingsMarked.editSource settingsRef change) (.check settingsRef)) :
    Sequence permits edits (.restarted settingsKinds)
      ((settingsMarked.editSource settingsRef change).after (.check settingsRef) "4") :=
  (marked.edit (settingsMarked.editSource_edited settingsRef change) edited).after able checks "4"

end Reached

/-- A sequence in which nothing is left behind, as the ObjectSync stays with its kind. -/
theorem settingsRenamed_releasable :
    settingsMark ∈ settingsRenamed.placed ∧ settingsRenamed.Releasable := by
  have checks : (Cluster.restarted settingsKinds).Retains (.check settingsRef) := by
    intro sync inst gvk found there
    have absent : none = some inst := there
    cases absent
  have marked : settingsMarked.placed = [settingsMark] := by decide +kernel
  have registered : (settingsMarked.system.memory.instances settingsRef).map (·.gvk) =
      some configMaps.gvk := by decide +kernel
  have edited : settingsMarked.EditRetains
      (settingsMarked.editSource settingsRef fun source => { source with name := "other" }) := by
    refine ⟨fun name sync found => ?_, fun gvk key member _ => .inr ⟨settingsRef, ?_⟩⟩
    · exact (Cluster.editSource_lone settingsMarked_lone _ name sync found).2
    · have former := (of_mem_marksAfter member).1
      rw [marked, List.mem_singleton] at former
      rw [(Prod.mk.inj former).1]
      exact Option.map_eq_some_iff.mp registered
  have stays : (settingsMarked.editSource settingsRef fun source =>
      { source with name := "other" }).Retains (.check settingsRef) := by
    intro sync inst gvk found there known moved
    have same : ((settingsMarked.editSource settingsRef fun source =>
        { source with name := "other" }).system.server.syncs settingsRef.name).bind
          (fun sync => (settingsMarked.editSource settingsRef fun source =>
            { source with name := "other" }).system.server.discovered sync.spec.source) =
        some configMaps.gvk := by decide +kernel
    have there' : settingsMarked.system.memory.instances settingsRef = some inst := there
    rw [found, Option.bind_some, known] at same
    rw [there', Option.map_some] at registered
    exact absurd ((Option.some.inj registered).trans (Option.some.inj same).symm) moved
  exact ⟨by decide +kernel, marked_sources_releasable rfl rfl settingsKinds_present
    (settingsMarked_moved (settingsMarked_reached checks fun _ => trivial) edited
      (by decide +kernel) stays)⟩

/-- The ObjectSync was the last one registered for its kind, so that the config map keeps the
finalizer and no resource controller is left to remove it. -/
theorem settingsLeft_stuck :
    ¬∀ start after : Cluster, start.system.memory = Memory.empty → start.placed = [] →
      start.system.server.SyncsPresent →
      Sequence (fun _ _ => True) (fun _ after => after.system.server.SyncsPresent) start after →
        after.Releasable := by
  intro promised
  have edited := Cluster.editSource_lone settingsMarked_lone
    fun source => { source with kind := "Secret" }
  have reached : Sequence (fun _ _ => True) (fun _ after => after.system.server.SyncsPresent)
      (.restarted settingsKinds) settingsLeft :=
    settingsMarked_moved (settingsMarked_reached trivial fun _ => trivial)
      (fun name sync found => (edited name sync found).2) (by decide +kernel) trivial
  have sourceless (name : NamespacedName) :
      ¬settingsLeft.system.server.SourceOf settingsMark.2 name := by
    rintro ⟨sync, found, designates⟩
    have only := (Cluster.after_lone edited (.check settingsRef) "4" name sync found).1
    rw [only] at found
    have secret : (settingsLeft.system.server.syncs settingsRef.name).map (·.sourceKey) =
        some ⟨"", "Secret", "default", "settings"⟩ := by decide +kernel
    rw [found, Option.map_some, designates] at secret
    exact absurd secret (by decide)
  have releasable := promised _ _ rfl rfl settingsKinds_present reached
  rcases releasable settingsMark.1 settingsMark.2 (by decide +kernel)
    sourceless with lacks | watches
  · exact lacks (by decide +kernel)
  · obtain ⟨controller, alive, kind⟩ := watches
    have sound := reached.sound rfl rfl settingsKinds_present fun _ _ present => present
    have current := sound.counted.current controller _ kind alive
    have first : settingsLeft.system.memory.resourceControllers settingsMark.1 = some 0 := by
      decide +kernel
    rw [first] at current
    rw [← Option.some.inj current] at alive
    exact absurd alive (by decide +kernel)

end ObjectSyncer
