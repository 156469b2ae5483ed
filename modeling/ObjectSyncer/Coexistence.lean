import ObjectSyncer.Convergence
import ObjectSyncer.Footprint
import ObjectSyncer.Interaction.Pool
import ObjectSyncer.Quiescence

/-!
# Reconciliations side by side

Runs of resource controllers for different sources, interleaved call by call with each other and
with everybody who leaves their footprints alone. Each of them converges: the source carries the
finalizer, and all ObjectSyncs that copy it have their destinations in place.
-/
namespace ObjectSyncer

open Interaction Interaction.Program Server

namespace ResourceControllerImpl

/-- What a run for an ObjectSync sees and touches. -/
def footprint (self : ResourceControllerImpl) (o : ObjectSyncRef) (sync : ObjectSync)
    (cache : List Namespace) : Footprint where
  keys := (· ∈ self.touchedKeys sync cache)
  syncs := (· = o.name)

/-- ObjectSyncs of the same specification in the same namespace have the same expected destinations.
-/
theorem expectedDestinations_congr {sync sync' : ObjectSync} (spec : sync'.spec = sync.spec)
    (namespace_ : sync'.metadata.namespace_ = sync.metadata.namespace_) (cache : List Namespace) :
    expectedDestinations sync' cache = expectedDestinations sync cache := by
  have applies (d : Destination) (name : String) :
      d.appliesTo sync' name = d.appliesTo sync name := by
    simp only [Destination.appliesTo, spec, namespace_]
  have expands : expand sync' cache = expand sync cache := by
    funext d
    simp only [expand, applies]
  rw [expectedDestinations, expectedDestinations, spec, expands]

/-- A run for an ObjectSync removes destinations that it has recorded, and creates and updates those
that it expects. -/
theorem requests_reconcileSource_entries {allowed : Call → Prop} (self : ResourceControllerImpl)
    {event : ObjectSyncModifications} {cache : List Namespace} (source : DynamicObject)
    (namespaces : allowed .namespaces) (clock : allowed .clock)
    (removals : ∀ d ∈ event.modified.destinationList, ∀ request, d.Removal request →
      allowed (.api request))
    (upserts : ∀ target ∈ expectedDestinations event.modified cache, ∀ request,
      Upsert (self.namespacedApi target.1) target.2.1 request → allowed (.api request))
    (writes : ∀ event' : ObjectSyncModifications, event'.address = event.address → ∀ request,
      event'.StatusWrite request → allowed (.api request)) :
    (self.reconcileSource event source).wp (.requests (Informed cache) allowed) (fun _ _ => True)
      () := by
  unfold reconcileSource
  rw [wp_namespaces]
  intro _ _ cache' _ answered
  have same : cache' = cache := answered.2
  subst same
  refine ⟨namespaces, ?_⟩
  have designates := fun d => @exists_target_of_mem_expected self
    (expectedDestinations event.modified cache') event.modified.destinationList d
  have recorded := fun d => @mem_recorded_of_mem_stale self
    (expectedDestinations event.modified cache') event.modified.destinationList d
  generalize self.splitDestinations (expectedDestinations event.modified cache')
    event.modified.destinationList = split_ at designates recorded ⊢
  obtain ⟨expected, stale⟩ := split_
  dsimp only at designates recorded ⊢
  rw [wp_bind]
  refine wp_imp (fun result _ sublist => ?_) (wp_informed (requests_deleteDestinations stale
    fun d member request removal => removals d (recorded d member) request removal))
  cases result with
  | error e => trivial
  | ok staleRemnants =>
    dsimp only
    rw [wp_bind]
    refine wp_imp (fun value _ echoed => ?_)
      (wp_informed (ObjectSyncModifications.requests_replaceStatus _ (writes _ rfl)))
    obtain ⟨event', result⟩ := value
    cases result with
    | error e => trivial
    | ok =>
      refine wp_informed (self.requests_syncDestinations event' source staleRemnants _ ?_ clock
        fun other same request write => writes other (same.trans echoed.2) request write)
      -- The entries tracked now are the expected ones and the remnants.
      intro d member current request upsert
      rw [ObjectSync.destinationList_eq_of_status echoed.1] at member
      obtain ⟨target, wanted, same⟩ := designates d (mem_of_not_isRemnant member current)
      have namespace_ : target.1 = d.namespace_ := congrArg (·.namespace_) same
      have name : target.2.1 = d.name := congrArg (·.name) same
      rw [← namespace_, ← name] at upsert
      exact upserts target wanted request upsert

/-- A run for an ObjectSync stays in its footprint. -/
theorem requests_reconcileSource_footprint (self : ResourceControllerImpl) {o : ObjectSyncRef}
    {sync : ObjectSync} {cache : List Namespace} (identity : ObjectSyncRef.ofSync sync = o)
    (source : DynamicObject) :
    (self.reconcileSource (.new sync) source).wp
      (.requests (Informed cache) (self.footprint o sync cache).Admits) (fun _ _ => True) () := by
  have address : (ObjectSyncModifications.new sync).address = o.name :=
    congrArg ObjectSyncRef.name identity
  apply requests_reconcileSource_entries self source trivial trivial
  · intro d member request removal
    exact removal.admitted (List.mem_append_left _ (List.mem_map_of_mem member))
  · intro target wanted request upsert
    exact upsert.admitted (List.mem_append_right _ (List.mem_map_of_mem wanted))
  · intro event' same request write
    exact write.admitted (same.trans address)

/-- Whether a run has converged can be seen in its footprint. -/
theorem Converged.of_same {self : ResourceControllerImpl} {o : ObjectSyncRef} {sync : ObjectSync}
    {cache : List Namespace} {template : Fields} {server after : Server}
    (converged : Converged self o sync cache template server)
    (same : (self.footprint o sync cache).Same server after) :
    Converged self o sync cache template after := by
  obtain ⟨inPlace, deleted, listed⟩ := converged
  refine ⟨fun target member => ?_, fun d member other => ?_, ?_⟩
  · obtain ⟨stored, found, there⟩ := inPlace target member
    exact ⟨stored, (same.objects _ (List.mem_append_right _ (List.mem_map_of_mem member))).trans
      found, there⟩
  · rw [same.objects _ (List.mem_append_left _ (List.mem_map_of_mem member))]
    exact deleted d member other
  · rw [same.syncs _ rfl]
    exact listed

/-- What a run for an ObjectSync achieves: it converges and, if the expected destinations are
different objects, records the revisions of all of them and of the source. -/
structure UpToDate (controller : ResourceControllerImpl) (o : ObjectSyncRef) (sync : ObjectSync)
    (cache : List Namespace) (template : Fields) (revision : ObjectRevision) (server : Server) :
    Prop where
  converged : Converged controller o sync cache template server
  current : ((expectedDestinations sync cache).map fun target => (target.1, target.2.1)).Nodup →
    AllCurrent o revision (controller.sortedTargets sync cache) sync server

/-- What a run for an ObjectSync has achieved can be seen in its footprint. -/
theorem UpToDate.of_same {self : ResourceControllerImpl} {o : ObjectSyncRef} {sync : ObjectSync}
    {cache : List Namespace} {template : Fields} {revision : ObjectRevision} {server after : Server}
    (upToDate : self.UpToDate o sync cache template revision server)
    (same : (self.footprint o sync cache).Same server after) :
    self.UpToDate o sync cache template revision after := by
  refine ⟨upToDate.converged.of_same same, fun distinct => ?_⟩
  obtain ⟨sync', found, only, destinations, tracked, targets, current⟩ :=
    (upToDate.current distinct).persisted
  refine ⟨sync', (same.syncs _ rfl).trans found, only, destinations, tracked, targets, ?_⟩
  intro d member
  -- The entry is for an expected destination, which the run touches.
  have expected : d.target ∈ self.sortedTargets sync cache :=
    targets ▸ List.mem_map_of_mem member
  obtain ⟨target, wanted, designates⟩ :=
    List.mem_map.mp ((sortDestinations_perm _).mem_iff.mp expected)
  have key : d.key = (self.expectedStatus target).key := by
    rw [designates, DestinationStatus.target_key]
  refine (current d member).of_eq (same.objects _ ?_)
  rw [key]
  exact List.mem_append_right _ (List.mem_map_of_mem wanted)

/-- What a run for an ObjectSync starts from: the ObjectSync is there, its records are truthful, and
nobody else has finalizers on what the run touches. -/
structure Prepared (controller : ResourceControllerImpl) (contents : Contents) (ref : SourceRef)
    (o : ObjectSyncRef) (sync : ObjectSync) (cache : List Namespace) (server : Server) : Prop where
  found : server.syncs o.name = some sync
  present : sync.metadata.gone = false
  truthful : sync.Truthful contents (contents.template controller ref)
  owned : server.Owned (controller.touchedKeys sync cache)

/-- Whether a run is prepared can be seen in its footprint. -/
theorem Prepared.of_same {self : ResourceControllerImpl} {contents : Contents} {ref : SourceRef}
    {o : ObjectSyncRef} {sync : ObjectSync} {cache : List Namespace} {server after : Server}
    (prepared : self.Prepared contents ref o sync cache server)
    (same : (self.footprint o sync cache).Same server after) :
    self.Prepared contents ref o sync cache after := by
  refine ⟨(same.syncs _ rfl).trans prepared.found, prepared.present, prepared.truthful, ?_⟩
  intro key member stored found
  rw [same.objects key member] at found
  exact prepared.owned key member stored found

/-- A run in company converges, and records revisions. -/
theorem wp_reconcileSource_company (self : ResourceControllerImpl) {contents : Contents}
    {ref : SourceRef} {o : ObjectSyncRef} {sync : ObjectSync} {source : DynamicObject}
    {cache : List Namespace} {server : Server}
    (prepared : self.Prepared contents ref o sync cache server)
    (named : SourceRef.ofObject source = ref)
    (template : source.fields.copied ref = contents.template self ref source.metadata.revision)
    (determined : server.Determined contents) (settled : server.Settled) :
    (self.reconcileSource (.new sync) source).wp
      (company (self.footprint o sync cache) (some o) cache contents) (fun value after =>
        after.Settled ∧ value.2 = .ok () ∧ self.UpToDate o sync cache (source.fields.copied ref)
          source.metadata.revision after) server := by
  have fields : (sourceTemplate source).fields.fitted =
      contents.template self ref source.metadata.revision := by
    rw [sourceTemplate_fields, named, template]
  have identity : ObjectSyncRef.ofSync sync = o := (server.syncNamed prepared.found).ofSync
  have undisturbed := @wp_reconcileSource_alone (some o) cache contents
    (contents.template self ref) server o source self sync prepared.found prepared.present
    prepared.truthful fields ⟨determined, settled, prepared.owned⟩
  have recording : (self.reconcileSource (.new sync) source).wp
      (alone (some o) cache (·.Determined contents)) (fun _ after =>
        ((expectedDestinations sync cache).map fun target => (target.1, target.2.1)).Nodup →
          AllCurrent o source.metadata.revision (self.sortedTargets sync cache) sync after)
      server := by
    by_cases distinct : ((expectedDestinations sync cache).map
        fun target => (target.1, target.2.1)).Nodup
    · exact wp_imp (fun _ _ current _ => current) (self.wp_reconcileSource_current prepared.found
        prepared.present (nodup_keys_of_targets self distinct))
    · exact wp_imp (fun _ _ _ distinct' => absurd distinct' distinct) undisturbed
  refine wp_imp ?_ (wp_company (self.requests_reconcileSource_footprint identity source)
    (wp_mono ?_ ?_ ?_ (fun _ _ => id) (wp_and undisturbed recording)) determined settled)
  · rintro value after ⟨settled, shadow, same, ⟨ok, converged⟩, current⟩
    rw [template]
    exact ⟨settled, ok, UpToDate.of_same ⟨converged, current⟩ same⟩
  · exact fun _ _ => id
  · exact fun _ _ _ _ => id
  · exact fun _ _ _ _ _ both => both.1

end ResourceControllerImpl

open ResourceControllerImpl

/-! ## One source -/

/-- A call that only looks, at the server or in the registry. -/
def Call.looks : Call → Bool
  | .memory (.lookup _ _) => true
  | asked => asked.reads

/-- A run of `reconcile`: the controller, the object as it is in its cache, the namespaces that it
knows, and the ObjectSyncs that are registered for the object. -/
structure Reconciliation where
  controller : ResourceControllerImpl
  object : DynamicObject
  cache : List Namespace
  refs : List ObjectSyncRef

namespace Reconciliation

/-- The source that a run reconciles. -/
def ref (run : Reconciliation) : SourceRef := .ofObject run.object

/-- The key of the source that a run reconciles. -/
def sourceKey (run : Reconciliation) : ObjectKey := run.controller.sourceKey run.ref

/-- An ObjectSync is to be synchronized: it is registered, and still copies the source. -/
structure Due (run : Reconciliation) (server : Server) (o : ObjectSyncRef) (sync : ObjectSync) :
    Prop where
  registered : o ∈ run.refs
  found : server.syncs o.name = some sync
  current : SourceRef.ofSync sync = run.ref

/-- All ObjectSyncs that are to be synchronized. -/
def dueSyncs (run : Reconciliation) (server : Server) (refs : List ObjectSyncRef) :
    List ObjectSync :=
  refs.filterMap fun o =>
    (server.syncs o.name).filter fun sync => decide (SourceRef.ofSync sync = run.ref)

/-- What the run sees and touches: the source, the registered ObjectSyncs, and the destinations of
those that are to be synchronized. -/
def footprint (run : Reconciliation) (server : Server) : Footprint where
  keys key := key = run.sourceKey ∨
    ∃ o sync, run.Due server o sync ∧ key ∈ run.controller.touchedKeys sync run.cache
  syncs name := ∃ o ∈ run.refs, o.name = name

/-- What the run starts from. -/
structure Prepared (run : Reconciliation) (contents : Contents) (server : Server) : Prop where
  admitted : run.controller.isSourceNamespace run.ref.name.namespace_ = true
  registered : run.refs ≠ []
  once : run.refs.Nodup
  named : run.object.metadata.name = some run.ref.name.name
  live : run.object.metadata.terminating = false
  revision : SourceRevision contents run.controller run.ref run.object
  stored : ∃ stored, server.objects run.sourceKey = some stored ∧
    (finalizer ∈ run.object.metadata.finalizerList →
      finalizer ∈ stored.object.metadata.finalizerList)
  due : ∀ o sync, run.Due server o sync →
    run.controller.Prepared contents run.ref o sync run.cache server ∧
      run.sourceKey ∉ run.controller.touchedKeys sync run.cache
  apart : ∀ o sync o' sync', run.Due server o sync → run.Due server o' sync' → o ≠ o' →
    (run.controller.footprint o sync run.cache).Apart (run.controller.footprint o' sync' run.cache)

/-- What the run achieves. ObjectSyncs that are registered and not to be synchronized stay as they
are. -/
structure Achieved (run : Reconciliation) (start after : Server) : Prop where
  protected_ : ∃ stored, after.objects run.sourceKey = some stored ∧
    finalizer ∈ stored.object.metadata.finalizerList
  upToDate : ∀ o sync, run.Due start o sync → run.controller.UpToDate o sync run.cache
    (run.object.fields.copied run.ref) run.object.metadata.revision after
  others : ∀ o ∈ run.refs, (∀ sync, ¬run.Due start o sync) →
    after.syncs o.name = start.syncs o.name

/-- What the registry tells of the ObjectSyncs of the object. -/
def Registers (run : Reconciliation) : (call : Call) → Reply call → Prop
  | .memory (.lookup controller src), refs =>
    controller = run.controller.sources → src = run.ref → refs = some run.refs
  | _, _ => True

/-- How the calls of the run are answered: every request is served, and revisions determine the
fields of objects. -/
def answers (run : Reconciliation) (contents : Contents) :
    Answers (Option ObjectSyncRef × Call) (fun call => Reply call.2) Server :=
  fun before call reply after => answersBy (Served call.1) before call.2 reply after ∧
    Cached run.cache call.2 reply ∧ run.Registers call.2 reply ∧ after.Determined contents

/-- Others leave a footprint alone, and a part of the run leaves what is apart from its own. -/
@[reducible] def contract (run : Reconciliation) (footprint inner : Footprint)
    (contents : Contents) :
    Contract (Option ObjectSyncRef × Call) (fun call => Reply call.2) Server where
  rely := fun before after => footprint.Same before after ∧
    after.Determined contents ∧ after.Settled
  answers := run.answers contents
  guarantee := fun before _ _ after => after.Settled ∧
    ∀ other, inner.Apart other → other.Same before after

section Run

variable {run : Reconciliation} {footprint inner : Footprint} {contents : Contents} {α : Type}
  {server start : Server}

/-- A part of the run in company of the rest. -/
theorem wp_inside {name : Option ObjectSyncRef} {program : Async α} {post : α → Server → Prop}
    (inside : inner.Inside footprint)
    (holds : program.wp (company inner name run.cache contents) post server) :
    (program.label name).wp (run.contract footprint inner contents) post server := by
  rw [wp_label]
  refine wp_mono ?_ ?_ ?_ (fun _ _ => id) holds
  · exact fun _ _ moves => ⟨moves.1.mono inside, moves.2⟩
  · exact fun _ _ _ _ answered => ⟨answered.1, answered.2.1, answered.2.2.2⟩
  · exact fun _ _ _ _ _ left => left

/-- A part of the run leaves what is apart from a larger footprint. -/
theorem wp_widen {outer : Footprint} {program : LabelledAsync α} {post : α → Server → Prop}
    (inside : inner.Inside outer)
    (holds : program.wp (run.contract footprint inner contents) post server) :
    program.wp (run.contract footprint outer contents) post server := by
  refine wp_mono ?_ ?_ ?_ (fun _ _ => id) holds
  · exact fun _ _ moves => moves
  · exact fun _ _ _ _ answered => answered
  · exact fun _ _ _ _ _ left => ⟨left.1, fun other apart => left.2 other (apart.mono inside)⟩

/-- A part of a run keeps what neither others nor its own calls can change. -/
theorem wp_aside {holds : Server → Prop} {program : LabelledAsync α} {post : α → Server → Prop}
    (moves : ∀ before after, footprint.Same before after → holds before → holds after)
    (leaves : ∀ before after, (∀ other, inner.Apart other → other.Same before after) →
      holds before → holds after)
    (achieves : program.wp (run.contract footprint inner contents) post server)
    (determined : server.Determined contents) (begins : holds server) :
    program.wp (run.contract footprint inner contents)
      (fun value after => (after.Determined contents ∧ holds after) ∧ post value after) server := by
  refine wp_guaranteed ?_ ?_ achieves ⟨determined, begins⟩
  · rintro before moved ⟨-, holds⟩ ⟨same, determined, -⟩
    exact ⟨determined, moves before moved same holds⟩
  · rintro before call reply after ⟨-, holds⟩ answered ⟨-, left⟩
    exact ⟨answered.2.2.2, leaves before after left holds⟩

/-- The loop over the ObjectSyncs does this for each of them, and keeps what can be seen in a
footprint apart from theirs. -/
theorem wp_reconcileAll_company {source : DynamicObject} {kept : Footprint}
    {holds : Server → Prop}
    (seen : ∀ before after, kept.Same before after → holds before → holds after)
    (keptInside : kept.Inside footprint) (todo : List ObjectSync)
    (named : SourceRef.ofObject source = run.ref)
    (template : source.fields.copied run.ref =
      contents.template run.controller run.ref source.metadata.revision)
    (prepared : ∀ sync ∈ todo,
      run.controller.Prepared contents run.ref (.ofSync sync) sync run.cache
      server)
    (inside : ∀ sync ∈ todo,
      (run.controller.footprint (.ofSync sync) sync run.cache).Inside footprint)
    (keptApart : ∀ sync ∈ todo,
      (run.controller.footprint (.ofSync sync) sync run.cache).Apart kept)
    (apart : todo.Pairwise fun sync sync' =>
      (run.controller.footprint (.ofSync sync) sync run.cache).Apart
        (run.controller.footprint (.ofSync sync') sync' run.cache))
    (determined : server.Determined contents) (settled : server.Settled) (begins : holds server) :
    (run.controller.reconcileAll source (todo.map .new)).wp
      (run.contract footprint footprint contents)
      (fun _ after => holds after ∧ ∀ sync ∈ todo, run.controller.UpToDate (.ofSync sync) sync
        run.cache (source.fields.copied run.ref) source.metadata.revision after) server := by
  induction todo generalizing server kept holds with
  | nil => exact ⟨begins, fun sync member => absurd member List.not_mem_nil⟩
  | cons sync rest ih =>
    obtain ⟨first, later⟩ := List.pairwise_cons.mp apart
    have single := wp_inside (inside sync List.mem_cons_self)
      (run.controller.wp_reconcileSource_company (prepared sync List.mem_cons_self) named template
        determined settled)
    -- The run for one ObjectSync sees nothing of what is kept and of the other ObjectSyncs.
    have aside := @wp_aside run footprint _ contents _ server (fun after => holds after ∧
        ∀ other ∈ rest,
          run.controller.Prepared contents run.ref (.ofSync other) other run.cache after)
      _ _ ?_ ?_ single determined
      ⟨begins, fun other member => prepared other (List.mem_cons_of_mem _ member)⟩
    · rw [List.map_cons, reconcileAll, wp_bind]
      refine wp_imp ?_ (wp_widen (inside sync List.mem_cons_self) aside)
      rintro value middle ⟨⟨determined, holds_, others⟩, settled, -, converged⟩
      refine wp_imp ?_ (@ih middle
        (kept.union (run.controller.footprint (.ofSync sync) sync run.cache))
        (fun after => holds after ∧ run.controller.UpToDate (.ofSync sync) sync run.cache
          (source.fields.copied run.ref) source.metadata.revision after) ?_ ?_ others
        (fun other member => inside other (List.mem_cons_of_mem _ member)) ?_ later
          determined settled
        ⟨holds_, converged⟩)
      · rintro _ after ⟨⟨holds_, converged⟩, all⟩
        exact ⟨holds_, List.forall_mem_cons.mpr ⟨converged, all⟩⟩
      · rintro before after same ⟨holds_, converged⟩
        exact ⟨seen before after same.of_union.1 holds_, converged.of_same same.of_union.2⟩
      · exact keptInside.union (inside sync List.mem_cons_self)
      · exact fun other member => (keptApart other (List.mem_cons_of_mem _ member)).union
          (first other member).symm
    · rintro before after same ⟨holds_, others⟩
      exact ⟨seen before after (same.mono keptInside) holds_, fun other member =>
        (others other member).of_same (same.mono (inside other (List.mem_cons_of_mem _ member)))⟩
    · rintro before after left ⟨holds_, others⟩
      exact ⟨seen before after (left kept (keptApart sync List.mem_cons_self)) holds_,
        fun other member => (others other member).of_same (left _ (first other member))⟩

/-- Others leave a footprint alone, every request is served, and the run only looks. -/
@[reducible] def observing (run : Reconciliation) (footprint : Footprint) :
    Contract (Option ObjectSyncRef × Call) (fun call => Reply call.2) Server where
  rely := footprint.Same
  answers := fun before call reply after => answersBy (Served call.1) before call.2 reply after ∧
    Cached run.cache call.2 reply ∧ run.Registers call.2 reply
  guarantee := fun before call _ after => call.2.looks = true ∧ after = before

/-- The ObjectSyncs that are to be synchronized are fetched. -/
theorem wp_fetchObjectSyncs_observing (refs : List ObjectSyncRef)
    (listed : ∀ o ∈ refs, footprint.syncs o.name) (same : footprint.Same start server) :
    (fetchObjectSyncs run.ref refs).wp ((run.observing footprint).under none)
      (fun objs after => objs = (run.dueSyncs start refs).map .new ∧ footprint.Same start after)
      server := by
  induction refs generalizing server with
  | nil => exact ⟨rfl, same⟩
  | cons o rest ih =>
    have further := fun server => @ih server fun other member =>
      listed other (List.mem_cons_of_mem _ member)
    rw [fetchObjectSyncs, wp_bind]
    unfold getObjectSync
    rw [wp_api]
    intro moved moves reply after answered
    have same' := same.trans moves
    have known : moved.syncs o.name = start.syncs o.name :=
      same'.syncs _ (listed o List.mem_cons_self)
    obtain ⟨choice, served⟩ := answered.1
    simp only [serve, known] at served
    have due : run.dueSyncs start (o :: rest) = ((start.syncs o.name).filter fun sync =>
        decide (SourceRef.ofSync sync = run.ref)).toList ++ run.dueSyncs start rest := by
      unfold dueSyncs
      rw [List.filterMap_cons]
      cases (start.syncs o.name).filter fun sync => decide (SourceRef.ofSync sync = run.ref) <;> rfl
    cases found : start.syncs o.name with
    | none =>
      rw [found] at served due
      obtain ⟨rfl, rfl⟩ := Prod.mk.inj served
      refine ⟨⟨rfl, rfl⟩, ?_⟩
      rw [due]
      exact further moved same'
    | some sync =>
      rw [found] at served due
      obtain ⟨rfl, rfl⟩ := Prod.mk.inj served
      refine ⟨⟨rfl, rfl⟩, ?_⟩
      dsimp only
      rw [pure_eq, wp_done]
      dsimp only
      have modified : (ObjectSyncModifications.new sync).modified = sync := rfl
      rw [modified]
      by_cases current : SourceRef.ofSync sync = run.ref
      · rw [if_pos current, wp_bind]
        refine wp_imp ?_ (further moved same')
        rintro objs later ⟨rfl, same⟩
        refine ⟨?_, same⟩
        rw [due, Option.filter_some, decide_eq_true current]
        rfl
      · rw [if_neg current]
        refine wp_imp ?_ (further moved same')
        rintro objs later ⟨rfl, same⟩
        refine ⟨?_, same⟩
        rw [due, Option.filter_some, decide_eq_false current]
        rfl

/-- The registered ObjectSyncs are looked up and fetched. -/
theorem wp_lookup_observing
    (admitted : run.controller.isSourceNamespace run.ref.name.namespace_ = true)
    (registered : run.refs ≠ []) (listed : ∀ o ∈ run.refs, footprint.syncs o.name)
    (same : footprint.Same start server) :
    (run.controller.lookupObjectSyncsForSource run.ref).wp ((run.observing footprint).under none)
      (fun objs after => objs = some ((run.dueSyncs start run.refs).map .new) ∧
        footprint.Same start after) server := by
  unfold lookupObjectSyncsForSource
  rw [if_pos admitted, wp_memory]
  intro moved moves reply after answered
  have unchanged : after = moved := answered.1
  subst unchanged
  have known : reply = some run.refs := answered.2.2 rfl rfl
  refine ⟨⟨rfl, rfl⟩, ?_⟩
  rw [known]
  dsimp only
  rw [if_neg (by simpa using registered), wp_bind]
  refine wp_imp ?_ (wp_fetchObjectSyncs_observing run.refs listed (same.trans moves))
  rintro objs later ⟨rfl, same⟩
  exact ⟨rfl, same⟩

/-- A part of the run that only looks, in company. -/
theorem wp_observed {maker : Option ObjectSyncRef} {program : Async α} {post : α → Server → Prop}
    (holds : program.wp ((run.observing footprint).under maker) post server)
    (determined : server.Determined contents) (settled : server.Settled) :
    program.wp ((run.contract footprint inner contents).under maker)
      (fun value after => (after.Determined contents ∧ after.Settled) ∧
        post value after) server := by
  have observed : program.wp
      { (run.contract footprint inner contents).under maker with
        guarantee := ((run.observing footprint).under maker).guarantee } post server := by
    refine wp_mono ?_ ?_ ?_ (fun _ _ => id) holds
    · exact fun _ _ moves => moves.1
    · exact fun _ _ _ _ answered => ⟨answered.1, answered.2.1, answered.2.2.1⟩
    · exact fun _ _ _ _ _ => id
  refine wp_mono ?_ ?_ ?_ (fun _ _ => id) (@wp_throughout _ _ _ _ _ _ _
    (fun after => after.Determined contents ∧ after.Settled) _ ?_ ?_ observed ⟨determined, settled⟩)
  · exact fun _ _ => id
  · exact fun _ _ _ _ => id
  · rintro before call reply after - ⟨-, ⟨-, rfl⟩, settled⟩
    exact ⟨settled.2, fun other _ => .refl other _⟩
  · exact fun _ _ _ moves => ⟨moves.2.1, moves.2.2⟩
  · rintro before call reply after known - ⟨-, rfl⟩
    exact known

/-- The server as it is in a footprint, when nothing has happened there. -/
structure Still (footprint : Footprint) (contents : Contents) (start server : Server) : Prop where
  same : footprint.Same start server
  determined : server.Determined contents
  settled : server.Settled

/-- The source of a run is stored with the finalizer. -/
def Protected (run : Reconciliation) (server : Server) : Prop :=
  ∃ stored, server.objects run.sourceKey = some stored ∧
    finalizer ∈ stored.object.metadata.finalizerList

/-- The footprint of the source. -/
def sourceFootprint (run : Reconciliation) : Footprint where
  keys := (· = run.sourceKey)
  syncs _ := False

/-- The footprint of the ObjectSyncs that are registered and not to be synchronized. -/
def idleFootprint (run : Reconciliation) (start : Server) : Footprint where
  keys _ := False
  syncs name := ∃ o ∈ run.refs, o.name = name ∧ ∀ sync, ¬run.Due start o sync

/-- Undisturbed, the source gets the finalizer, unless it has it. -/
theorem wp_addFinalizer_alone {maker : Option ObjectSyncRef} {possible : Server → Prop}
    {source : DynamicObject} (named : source.metadata.name = some run.ref.name.name)
    (stored : ∃ stored, server.objects run.sourceKey = some stored ∧
      (finalizer ∈ source.metadata.finalizerList →
        finalizer ∈ stored.object.metadata.finalizerList)) :
    (addFinalizerIfMissing (run.controller.namespacedApi run.ref.name.namespace_) source
      finalizer).wp (alone maker run.cache possible)
      (fun value after => (value.1 = source ∨
          value.1 = source.withFinalizers (source.metadata.finalizerList ++ [finalizer])) ∧
        run.Protected after) server := by
  obtain ⟨stored, found, current⟩ := stored
  unfold addFinalizerIfMissing
  by_cases carries : finalizer ∈ source.metadata.finalizerList
  · rw [if_pos carries]
    exact ⟨.inl rfl, stored, found, current carries⟩
  · rw [if_neg carries]
    dsimp only
    have target : (run.controller.namespacedApi run.ref.name.namespace_).key
        (finalizerPatch source finalizer).metadata.nameAny = run.sourceKey := by
      have name : (finalizerPatch source finalizer).metadata.nameAny = run.ref.name.name := by
        rw [ObjectMeta.nameAny, finalizerPatch, named]
        rfl
      rw [name]
      rfl
    have served (choice : Choice) : server.serve maker choice
        (.apply (run.controller.namespacedApi run.ref.name.namespace_)
          (finalizerPatch source finalizer).metadata.nameAny (finalizerPatch source finalizer)) =
        (.ok (choice.applied stored.object (finalizerPatch source finalizer)),
          server.write run.sourceKey (choice.applied · (finalizerPatch source finalizer))
            fun _ => ⟨rfl, rfl⟩) := by
      have noConflict : (finalizerPatch source finalizer).metadata.conflicts
          stored.object.metadata = false := rfl
      simp only [serve, target, found, noConflict, Bool.false_eq_true, if_false]
    refine wp_served served fun choice _ => ?_
    have added := Choice.applied_carries_finalizer choice stored.object
      (finalizerPatch source finalizer) rfl
    exact ⟨.inr rfl, _, write_finalized _ found added, added⟩

/-- In company, the source gets the finalizer, unless it has it. -/
theorem wp_addFinalizer_company {source : DynamicObject}
    (named : source.metadata.name = some run.ref.name.name)
    (stored : ∃ stored, server.objects run.sourceKey = some stored ∧
      (finalizer ∈ source.metadata.finalizerList →
        finalizer ∈ stored.object.metadata.finalizerList))
    (determined : server.Determined contents) (settled : server.Settled) :
    (addFinalizerIfMissing (run.controller.namespacedApi run.ref.name.namespace_) source
      finalizer).wp (company run.sourceFootprint none run.cache contents)
      (fun value after => after.Settled ∧ (value.1 = source ∨
          value.1 = source.withFinalizers (source.metadata.finalizerList ++ [finalizer])) ∧
        run.Protected after) server := by
  have name : (finalizerPatch source finalizer).metadata.nameAny = run.ref.name.name := by
    rw [ObjectMeta.nameAny, finalizerPatch, named]
    rfl
  have shape := @wp_informed _ run.cache _ run.sourceFootprint.Admits (fun _ _ => True)
    (requests_addFinalizerIfMissing _ source finalizer (by
      show run.sourceFootprint.keys _
      rw [name]
      rfl))
  refine wp_imp ?_ (wp_company shape (wp_addFinalizer_alone named stored) determined settled)
  rintro value after ⟨settled, shadow, same, source_, stored, found, carries⟩
  exact ⟨settled, source_, stored, (same.objects _ rfl).trans found, carries⟩

/-- The ObjectSyncs that are to be synchronized are those that are due. -/
theorem mem_dueSyncs {sync : ObjectSync} :
    sync ∈ run.dueSyncs start run.refs ↔ run.Due start (.ofSync sync) sync := by
  unfold dueSyncs
  rw [List.mem_filterMap]
  constructor
  · rintro ⟨o, registered, found⟩
    obtain ⟨found, current⟩ := Option.filter_eq_some_iff.mp found
    have identity := (start.syncNamed found).ofSync
    rw [identity]
    exact ⟨registered, found, of_decide_eq_true current⟩
  · intro due
    exact ⟨_, due.registered, Option.filter_eq_some_iff.mpr ⟨due.found, decide_eq_true due.current⟩⟩

/-- The ObjectSyncs that a run is to synchronize have footprints apart from each other. -/
theorem pairwise_dueSyncs (prepared : run.Prepared contents start) :
    (run.dueSyncs start run.refs).Pairwise fun sync sync' =>
      (run.controller.footprint (.ofSync sync) sync run.cache).Apart
        (run.controller.footprint (.ofSync sync') sync' run.cache) := by
  have distinct : (run.dueSyncs start run.refs).Pairwise fun sync sync' =>
      ObjectSyncRef.ofSync sync ≠ .ofSync sync' := by
    refine List.Pairwise.filterMap _ ?_ prepared.once
    intro o o' different sync found sync' found'
    rw [(start.syncNamed (Option.filter_eq_some_iff.mp found).1).ofSync,
      (start.syncNamed (Option.filter_eq_some_iff.mp found').1).ofSync]
    exact different
  refine List.Pairwise.imp_of_mem ?_ distinct
  intro sync sync' member member' different
  exact prepared.apart _ sync _ sync' (mem_dueSyncs.mp member) (mem_dueSyncs.mp member') different

/-- A run of `reconcile` in company converges. -/
theorem wp_reconcile_company (prepared : run.Prepared contents start)
    (still : Still (run.footprint start) contents start server) :
    (run.controller.reconcile run.object).wp
      (run.contract (run.footprint start) (run.footprint start) contents)
      (fun action after => action = .requeue fullReconcileIntervalSecs ∧ run.Achieved start after)
      server := by
  unfold reconcile
  dsimp only
  rw [wp_bind, wp_label]
  refine wp_imp ?_ (wp_observed (wp_lookup_observing prepared.admitted prepared.registered
    (fun o member => ⟨o, member, rfl⟩) still.same) still.determined still.settled)
  rintro _ middle ⟨⟨determined, settled⟩, rfl, same⟩
  have still : Still (run.footprint start) contents start middle := ⟨same, determined, settled⟩
  have due (sync : ObjectSync) (member : sync ∈ run.dueSyncs start run.refs) :=
    mem_dueSyncs.mp member
  have inside (sync : ObjectSync) (member : sync ∈ run.dueSyncs start run.refs) :
      (run.controller.footprint (.ofSync sync) sync run.cache).Inside (run.footprint start) :=
    ⟨fun key touched => .inr ⟨_, sync, due sync member, touched⟩,
      fun name same => ⟨_, (due sync member).registered, same.symm⟩⟩
  have apart (sync : ObjectSync) (member : sync ∈ run.dueSyncs start run.refs) :
      run.sourceFootprint.Apart (run.controller.footprint (.ofSync sync) sync run.cache) := by
    refine ⟨?_, fun _ impossible => impossible.elim⟩
    rintro _ rfl
    exact (prepared.due _ sync (due sync member)).2
  have sourceInside : run.sourceFootprint.Inside (run.footprint start) :=
    ⟨fun _ => .inl, fun _ impossible => impossible.elim⟩
  have idleInside : (run.idleFootprint start).Inside (run.footprint start) :=
    ⟨fun _ impossible => impossible.elim, fun _ ⟨o, registered, named, _⟩ => ⟨o, registered, named⟩⟩
  have idleApart (sync : ObjectSync) (member : sync ∈ run.dueSyncs start run.refs) :
      (run.controller.footprint (.ofSync sync) sync run.cache).Apart (run.idleFootprint start) := by
    refine ⟨fun _ _ impossible => impossible.elim, ?_⟩
    rintro name same ⟨⟨other⟩, -, named, idle⟩
    have other : other = (ObjectSyncRef.ofSync sync).name := named.trans same
    exact idle sync (other ▸ due sync member)
  have unchanged : middle.objects run.sourceKey = start.objects run.sourceKey :=
    still.same.objects _ (.inl rfl)
  have adding := wp_inside sourceInside (@wp_addFinalizer_company run contents middle
    (ensureGvk run.object run.controller.gvk) prepared.named
    (by rw [unchanged]; exact prepared.stored) still.determined still.settled)
  have aside := @wp_aside run (run.footprint start) _ contents _ middle (fun after =>
      (∀ sync ∈ run.dueSyncs start run.refs, run.controller.Prepared contents run.ref (.ofSync sync)
        sync run.cache after) ∧ (run.idleFootprint start).Same start after) _ _ ?_ ?_ adding
    still.determined ?_
  · have live : (ensureGvk run.object run.controller.gvk).metadata.terminating = false :=
      prepared.live
    dsimp only
    rw [if_neg (Bool.eq_false_iff.mp live), wp_bind]
    refine wp_imp ?_ (wp_widen sourceInside aside)
    rintro ⟨source, result⟩ later ⟨⟨determined, others, idle⟩, settled, shape, protected_⟩
    have same : SourceRef.ofObject source = run.ref ∧
        source.fields.copied run.ref = run.object.fields.copied run.ref ∧
        source.metadata.revision = run.object.metadata.revision := by
      rcases shape with rfl | rfl <;> exact ⟨rfl, rfl, rfl⟩
    obtain ⟨named, copied, revision⟩ := same
    have template : source.fields.copied run.ref =
        contents.template run.controller run.ref source.metadata.revision := by
      rw [copied, revision, Contents.template, prepared.revision.fields]
    dsimp only
    rw [wp_bind]
    refine wp_imp ?_ (@wp_reconcileAll_company run (run.footprint start) contents later source
      (run.sourceFootprint.union (run.idleFootprint start))
      (fun after => run.Protected after ∧ (run.idleFootprint start).Same start after) ?_
      (sourceInside.union idleInside) _ named template others inside
      (fun sync member => (apart sync member).symm.union (idleApart sync member))
      (pairwise_dueSyncs prepared) determined settled ⟨protected_, idle⟩)
    · rintro _ after ⟨⟨protected_, idle⟩, upToDate⟩
      refine ⟨rfl, protected_, fun o sync due => ?_, fun o registered notDue =>
        idle.syncs _ ⟨o, registered, rfl, notDue⟩⟩
      have identity := (start.syncNamed due.found).ofSync
      rw [← copied, ← revision]
      have all := upToDate sync (mem_dueSyncs.mpr (identity.symm ▸ due))
      rw [identity] at all
      exact all
    · rintro before after same ⟨⟨stored, found, carries⟩, idle⟩
      exact ⟨⟨stored, (same.of_union.1.objects _ rfl).trans found, carries⟩,
        idle.trans same.of_union.2⟩
  · rintro before after same ⟨others, idle⟩
    exact ⟨fun sync member => (others sync member).of_same (same.mono (inside sync member)),
      idle.trans (same.mono idleInside)⟩
  · rintro before after left ⟨others, idle⟩
    exact ⟨fun sync member => (others sync member).of_same (left _ (apart sync member)),
      idle.trans (left _
        ⟨fun _ _ impossible => impossible.elim, fun _ impossible => impossible.elim⟩)⟩
  · exact ⟨fun sync member =>
      (prepared.due _ sync (due sync member)).1.of_same (still.same.mono (inside sync member)),
      still.same.mono idleInside⟩

/-- What the run has achieved can be seen in its footprint. -/
theorem Achieved.of_same {after : Server} (achieved : run.Achieved start server)
    (same : (run.footprint start).Same server after) : run.Achieved start after := by
  obtain ⟨stored, found, carries⟩ := achieved.protected_
  refine ⟨⟨stored, (same.objects _ (.inl rfl)).trans found, carries⟩, fun o sync due => ?_,
    fun o registered notDue => ?_⟩
  · exact (achieved.upToDate o sync due).of_same
      (same.mono ⟨fun key touched => .inr ⟨o, sync, due, touched⟩,
        fun name same => ⟨o, due.registered, same.symm⟩⟩)
  · exact (same.syncs _ ⟨o, registered, rfl⟩).trans (achieved.others o registered notDue)

end Run

end Reconciliation

/-! ## All sources -/

section Coexistence

variable {Thread : Type}

/-- Each thread makes a run of `reconcile` of its own. Meanwhile others leave the footprints of all
runs alone. -/
def coexistence (contents : Contents) (runs : Thread → Reconciliation) (start : Server) :
    Rules Thread (Option ObjectSyncRef × Call) (fun call => Reply call.2) Server Action where
  starts thread world program after :=
    program = (runs thread).controller.reconcile (runs thread).object ∧ after = world
  answers thread := (runs thread).answers contents
  ends _ _ _ _ := False
  moves before after := after.Determined contents ∧ after.Settled ∧
    ∀ thread, ((runs thread).footprint start).Same before after

/-- All runs leave the footprints of the others alone, and achieve what they are for. -/
def coexistenceDiscipline (contents : Contents) (runs : Thread → Reconciliation) (start : Server) :
    Discipline (coexistence contents runs start) where
  invariant world := world.Determined contents ∧ world.Settled
  rely thread := ((runs thread).footprint start).Same
  ensures _ _ _ _ _ := True
  idle thread world := ((runs thread).footprint start).Same start world
  post thread action world := action = .requeue fullReconcileIntervalSecs ∧
    (runs thread).Achieved start world
  rely_refl _ := .refl _
  rely_trans first second := first.trans second
  idle_stable _ _ same idle := idle.trans same
  post_stable same _ post := ⟨post.1, post.2.of_same same⟩
  ends _ _ ended := ended.elim
  moves _ moved := ⟨⟨moved.1, moved.2.1⟩, moved.2.2⟩

/-- Prepared runs with footprints apart from each other keep the discipline. -/
theorem coexistenceDiscipline_kept {contents : Contents} {runs : Thread → Reconciliation}
    {start : Server} (prepared : ∀ thread, (runs thread).Prepared contents start)
    (apart : ∀ thread other, thread ≠ other →
      ((runs thread).footprint start).Apart ((runs other).footprint start)) :
    (coexistenceDiscipline contents runs start).Kept := by
  rintro thread before _ _ invariant idle ⟨rfl, rfl⟩
  refine ⟨invariant, fun other _ => .refl _ _, ?_⟩
  refine wp_mono ?_ ?_ ?_ (fun _ _ => id)
    (Reconciliation.wp_reconcile_company (prepared thread) ⟨idle, invariant.1, invariant.2⟩)
  · exact fun _ _ moves => ⟨moves.1, moves.2⟩
  · exact fun _ _ _ _ answered => answered.2
  · intro before call reply after answered left
    exact ⟨⟨answered.2.2.2.2, left.1⟩, fun other different =>
      left.2 _ (apart thread other different.symm), trivial⟩

/-- From a state in which nobody runs, every interleaving keeps the discipline of coexistence. -/
theorem coexistence_holds [DecidableEq Thread] {contents : Contents}
    {runs : Thread → Reconciliation} {pool pool' : Pool Thread (Option ObjectSyncRef × Call)
      (fun call => Reply call.2) Server Action}
    (prepared : ∀ thread, (runs thread).Prepared contents pool.world)
    (apart : ∀ thread other, thread ≠ other →
      ((runs thread).footprint pool.world).Apart ((runs other).footprint pool.world))
    (determined : pool.world.Determined contents) (settled : pool.world.Settled)
    (idle : ∀ thread, pool.running thread = none)
    (reach : (coexistence contents runs pool.world).Reach pool pool') :
    (coexistenceDiscipline contents runs pool.world).Holds pool' := by
  have start : (coexistenceDiscipline contents runs pool.world).Holds pool := by
    refine ⟨⟨determined, settled⟩, fun thread _ => .refl _ _, fun thread program running => ?_⟩
    rw [idle thread] at running
    cases running
  exact start.reach (coexistenceDiscipline_kept prepared apart) reach

/-- **Reconciliations coexist.** However the runs of `reconcile` for sources with footprints apart
from each other are interleaved, and whatever everybody else does elsewhere: each run that has ended
has put the finalizer on its source, and has converged for every ObjectSync that copies it. -/
theorem reconciles_coexist [DecidableEq Thread] {contents : Contents}
    {runs : Thread → Reconciliation} {pool pool' : Pool Thread (Option ObjectSyncRef × Call)
      (fun call => Reply call.2) Server Action}
    (prepared : ∀ thread, (runs thread).Prepared contents pool.world)
    (apart : ∀ thread other, thread ≠ other →
      ((runs thread).footprint pool.world).Apart ((runs other).footprint pool.world))
    (determined : pool.world.Determined contents) (settled : pool.world.Settled)
    (idle : ∀ thread, pool.running thread = none)
    (reach : (coexistence contents runs pool.world).Reach pool pool')
    {thread : Thread} {action : Action} (done : pool'.result thread = some action) :
    action = .requeue fullReconcileIntervalSecs ∧
      (runs thread).Achieved pool.world pool'.world := by
  have holds := coexistence_holds prepared apart determined settled idle reach
  exact holds.running thread _ (Pool.running_of_result done)

end Coexistence

/-- Answer all calls of a run for given choices of the server. -/
def Reconciliation.answer (run : Reconciliation) (choice : Choice) :
    Handler (Option ObjectSyncRef × Call) (fun call => Reply call.2) Server
  | server, (_, .memory (.lookup _ _)) => (some run.refs, server)
  | server, (maker, asked) => server.answer maker choice run.cache "now" asked

/-- Whether an answer leaves the target of its request with given fields. -/
def Reconciliation.answersSteadily (run : Reconciliation) (fields : ObjectKey → Fields)
    (choice : Choice) (server : Server) (call : Option ObjectSyncRef × Call) : Bool :=
  match call.2 with
  | .api request => request.target.all fun key =>
    ((run.answer choice server call).2.objects key).all fun stored =>
      stored.object.fields = fields key
  | _ => true

/-- The answers to the calls of a run serve its requests, and are those of its cache and its
registry. -/
theorem Reconciliation.answered (run : Reconciliation) (choice : Choice) (server : Server)
    (call : Option ObjectSyncRef × Call) :
    answersBy (Served call.1) server call.2 (run.answer choice server call).1
        (run.answer choice server call).2 ∧
      Cached run.cache call.2 (run.answer choice server call).1 ∧
      run.Registers call.2 (run.answer choice server call).1 := by
  obtain ⟨maker, call⟩ := call
  cases call with
  | api request => exact ⟨⟨choice, rfl⟩, trivial, trivial⟩
  | memory op =>
    cases op with
    | lookup controller src => exact ⟨rfl, trivial, fun _ _ => rfl⟩
    | _ => exact ⟨rfl, trivial, trivial⟩
  | namespaces => exact ⟨rfl, rfl, trivial⟩
  | clock => exact ⟨rfl, trivial, trivial⟩

/-- Answers that leave all objects with given fields are allowed where every revision has these
fields. -/
theorem Reconciliation.answer_allowed {run : Reconciliation} {fields : ObjectKey → Fields}
    {choice : Choice} {server : Server} {call : Option ObjectSyncRef × Call}
    (steady_ : server.Steady fields)
    (steadily : run.answersSteadily fields choice server call = true) :
    run.answers (steady fields) server call (run.answer choice server call).1
        (run.answer choice server call).2 ∧
      (run.answer choice server call).2.Steady fields := by
  obtain ⟨served, cached, registers⟩ := run.answered choice server call
  suffices kept : (run.answer choice server call).2.Steady fields from
    ⟨⟨served, cached, registers, kept.1⟩, kept⟩
  obtain ⟨maker, call⟩ := call
  cases call with
  | api request =>
    have effect := server.serve_effect maker choice request
    refine ⟨fun key stored found => ?_, effect.settled steady_.2⟩
    by_cases target : request.target = some key
    · change (request.target.all _) = true at steadily
      rw [target, Option.all_some] at steadily
      change ((server.serve maker choice request).2.objects key).all _ = true at steadily
      have stored_ : (server.serve maker choice request).2.objects key = some stored := found
      rw [stored_, Option.all_some] at steadily
      exact of_decide_eq_true steadily
    · exact steady_.1 key stored ((effect.objects_eq target).symm.trans found)
  | memory op => cases op <;> exact steady_
  | namespaces => exact steady_
  | clock => exact steady_

/-- A source that carries the finalizer. -/
def markedSource (name : String) : DynamicObject :=
  ⟨none, { name := some name, namespace_ := some "default", finalizers := some [finalizer] }, []⟩

/-- An ObjectSync that copies a marked source to the namespace `team`. -/
def markedSync (name : String) : ObjectSync where
  metadata := { (markedSource name).metadata with resourceVersion := some "1" }
  spec := ⟨⟨"", none, "ConfigMap", name, none⟩, [⟨none, "team", none⟩]⟩
  status := none

/-- Add a source and its ObjectSync to a server. -/
def Server.withMarked (server : Server) (name : String) : Server :=
  (server.put ⟨"", "ConfigMap", "default", name⟩ (some ⟨markedSource name, none⟩)
    (by rintro _ ⟨⟩; exact ⟨rfl, rfl⟩)).putSync ⟨name, "default"⟩ (some (markedSync name))
    (by rintro _ ⟨⟩; exact ⟨rfl, rfl⟩)

/-- Two sources with an ObjectSync each. -/
def markedServer : Server := (Server.empty.withMarked "flags").withMarked "settings"

/-- The names of the sources of two runs. -/
def markedName : Bool → String
  | true => "flags"
  | false => "settings"

/-- A run for each of the sources. -/
def markedRuns (thread : Bool) : Reconciliation :=
  ⟨configMaps, markedSource (markedName thread), settingsNamespaces,
    [⟨⟨markedName thread, "default"⟩⟩]⟩

/-- The fields of everything that is stored while the runs for the marked sources are made. -/
def markedFields (key : ObjectKey) : Fields :=
  if key.namespace_ = "default" then (markedSource key.name).fields
  else (markedSource key.name).fields.copied ⟨⟨key.name, "default"⟩⟩

/-- The pool in which no run for the marked sources has started. -/
def markedStart :
    Pool Bool (Option ObjectSyncRef × Call) (fun call => Reply call.2) Server Action :=
  ⟨markedServer, fun _ => none⟩

/-- The pool after a thread has started its run. -/
def markedStarted (thread : Bool)
    (pool : Pool Bool (Option ObjectSyncRef × Call) (fun call => Reply call.2) Server Action) :
    Pool Bool (Option ObjectSyncRef × Call) (fun call => Reply call.2) Server Action :=
  pool.set thread (some ((markedRuns thread).controller.reconcile (markedRuns thread).object))
    pool.world

/-- The pool after some calls of a thread. -/
def markedCalls (thread : Bool) (count : Nat)
    (pool : Pool Bool (Option ObjectSyncRef × Call) (fun call => Reply call.2) Server Action) :
    Pool Bool (Option ObjectSyncRef × Call) (fun call => Reply call.2) Server Action :=
  pool.calls thread ((markedRuns thread).answer ⟨"u", "2", 0, []⟩) count

/-- The runs for both marked sources in turns, until they have ended. -/
def markedPool : Pool Bool (Option ObjectSyncRef × Call) (fun call => Reply call.2) Server Action :=
  markedStart |> markedStarted true |> markedStarted false |> markedCalls true 5 |>
    markedCalls false 8 |> markedCalls true 20 |> markedCalls false 20

/-- A run touches only the copy in the namespace `team`. -/
theorem marked_touched (thread : Bool) : ∀ key ∈ configMaps.touchedKeys
    (markedSync (markedName thread)) settingsNamespaces,
    key.namespace_ = "team" ∧ key.name = markedName thread := by
  cases thread <;> decide +kernel

/-- The source and the ObjectSync of each run are stored. -/
theorem marked_stored (thread : Bool) :
    markedServer.objects (markedRuns thread).sourceKey =
        some ⟨markedSource (markedName thread), none⟩ ∧
      markedServer.syncs ⟨markedName thread, "default"⟩ =
        some (markedSync (markedName thread)) := by
  cases thread <;> exact ⟨rfl, rfl⟩

/-- No objects are stored but the sources of the runs. -/
theorem marked_only {key : ObjectKey} {stored : Stored}
    (found : markedServer.objects key = some stored) :
    ∃ thread, key = (markedRuns thread).sourceKey ∧
      stored = ⟨markedSource (markedName thread), none⟩ := by
  by_cases settings : key = (markedRuns false).sourceKey
  · subst settings
    exact ⟨false, rfl, Option.some.inj (found.symm.trans (marked_stored false).1)⟩
  · have flags : key = (markedRuns true).sourceKey := by
      by_contra other
      have nothing : markedServer.objects key = none :=
        (Function.update_of_ne settings ..).trans (Function.update_of_ne other ..)
      rw [nothing] at found
      cases found
    subst flags
    exact ⟨true, rfl, Option.some.inj (found.symm.trans (marked_stored true).1)⟩

/-- All objects that the server of the marked sources stores have the same fields. -/
theorem markedServer_steady : markedServer.Steady markedFields := by
  constructor
  · intro key stored found
    obtain ⟨thread, rfl, rfl⟩ := marked_only found
    cases thread <;> rfl
  · intro key stored found
    obtain ⟨thread, rfl, rfl⟩ := marked_only found
    rfl

/-- An ObjectSync that is due is the one of the run. -/
theorem marked_due {thread : Bool} {o : ObjectSyncRef} {sync : ObjectSync}
    (due : (markedRuns thread).Due markedServer o sync) :
    o = ⟨⟨markedName thread, "default"⟩⟩ ∧ sync = markedSync (markedName thread) := by
  have same := List.mem_singleton.mp due.registered
  subst same
  exact ⟨rfl, Option.some.inj (due.found.symm.trans (marked_stored thread).2)⟩

/-- Whatever a run touches has the name of its source. -/
theorem marked_footprint (thread : Bool) :
    (∀ key, ((markedRuns thread).footprint markedServer).keys key → key.name = markedName thread) ∧
      ∀ name, ((markedRuns thread).footprint markedServer).syncs name →
        name.name = markedName thread := by
  constructor
  · rintro key (rfl | ⟨o, sync, due, touched⟩)
    · cases thread <;> rfl
    · obtain ⟨-, rfl⟩ := marked_due due
      exact (marked_touched thread key touched).2
  · rintro name ⟨o, member, rfl⟩
    rw [List.mem_singleton.mp member]

/-- The runs for the marked sources are prepared. -/
theorem marked_prepared (thread : Bool) :
    (markedRuns thread).Prepared (steady markedFields) markedServer where
  admitted := by cases thread <;> rfl
  registered := List.cons_ne_nil _ _
  once := List.nodup_singleton _
  named := rfl
  live := rfl
  revision := ⟨rfl, by cases thread <;> rfl⟩
  stored := ⟨_, (marked_stored thread).1, id⟩
  due := by
    intro o sync due
    obtain ⟨rfl, rfl⟩ := marked_due due
    refine ⟨⟨due.found, rfl, fun d member => absurd member List.not_mem_nil, ?_⟩, fun touched => ?_⟩
    · intro key touched stored found
      obtain ⟨other, rfl, rfl⟩ := marked_only found
      exact absurd (marked_touched thread _ touched).1 (by cases other <;> decide)
    · exact absurd (marked_touched thread _ touched).1 (by cases thread <;> decide)
  apart := by
    intro o sync o' sync' due due' different
    exact absurd ((marked_due due).1.trans (marked_due due').1.symm) different

/-- The footprints of the runs for different marked sources are apart. -/
theorem marked_apart {thread other : Bool} (different : thread ≠ other) :
    ((markedRuns thread).footprint markedServer).Apart
      ((markedRuns other).footprint markedServer) := by
  have names : markedName thread ≠ markedName other := by
    revert different
    cases thread <;> cases other <;> decide
  constructor
  · intro key touched touched'
    exact names (((marked_footprint thread).1 key touched).symm.trans
      ((marked_footprint other).1 key touched'))
  · intro name seen seen'
    exact names (((marked_footprint thread).2 name seen).symm.trans
      ((marked_footprint other).2 name seen'))

/-- The schedule of the runs for the marked sources is an interleaving. -/
theorem marked_reach : (coexistence (steady markedFields) markedRuns markedServer).Reach markedStart
    markedPool := by
  have calls (thread : Bool) (pool : Pool Bool (Option ObjectSyncRef × Call)
      (fun call => Reply call.2) Server Action)
        (kept : pool.world.Steady markedFields) (count : Nat)
      (pass : pool.callsPass thread ((markedRuns thread).answer ⟨"u", "2", 0, []⟩)
        ((markedRuns thread).answersSteadily markedFields ⟨"u", "2", 0, []⟩) count) :=
    @Rules.reach_calls_kept _ _ _ _ _ _
      (coexistence (steady markedFields) markedRuns markedServer) _
      _ _ _ (fun _ _ kept steadily => Reconciliation.answer_allowed kept steadily) pool kept count
      pass
  have first := calls true (markedStart |> markedStarted true |> markedStarted false)
    markedServer_steady 5 (by decide +kernel)
  have second := calls false _ first.2 8 (by decide +kernel)
  have third := calls true _ second.2 20 (by decide +kernel)
  have fourth := calls false _ third.2 20 (by decide +kernel)
  exact .head (.start true rfl ⟨rfl, rfl⟩) (.head (.start false rfl ⟨rfl, rfl⟩)
    (((first.1.trans second.1).trans third.1).trans fourth.1))

/-- The runs for both marked sources end, and have converged. -/
theorem markedPool_achieved :
    (markedPool.result true = some (.requeue fullReconcileIntervalSecs) ∧
        (markedRuns true).Achieved markedServer markedPool.world) ∧
      markedPool.result false = some (.requeue fullReconcileIntervalSecs) ∧
        (markedRuns false).Achieved markedServer markedPool.world := by
  have ended (thread : Bool) :
      markedPool.result thread = some (.requeue fullReconcileIntervalSecs) := by
    cases thread <;> decide +kernel
  have achieved (thread : Bool) := @reconciles_coexist _ _ _ _ markedStart _ marked_prepared
    (fun _ _ => marked_apart) markedServer_steady.1 markedServer_steady.2
      (fun _ => rfl) marked_reach
    thread _ (ended thread)
  exact ⟨⟨ended true, (achieved true).2⟩, ended false, (achieved false).2⟩

end ObjectSyncer
