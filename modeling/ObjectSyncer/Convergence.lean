import ObjectSyncer.History
import ObjectSyncer.Undisturbed

/-!
# Convergence

After any history of runs and edits, one run of `reconcile_source` that nobody disturbs puts every
expected destination in place, deletes all others, and persists the list of the expected ones.
-/
namespace ObjectSyncer

open Interaction Interaction.Program Server

/-- A destination exists, does not terminate, and is what its strategy is to achieve. -/
def Server.InPlace (server : Server) (template : Fields) (d : DestinationStatus) : Prop :=
  ∃ stored, server.objects d.key = some stored ∧ stored.object.metadata.terminating = false ∧
    stored.object.fields.Matches template d.effectiveStrategy

/-- The objects of some keys have no finalizers of others. -/
def Server.Owned (server : Server) (keys : List ObjectKey) : Prop :=
  ∀ key ∈ keys, ∀ stored, server.objects key = some stored →
    ∀ f ∈ stored.object.metadata.finalizerList, f = finalizer

/-- What is assumed of the server: revisions determine fields, terminating objects without
finalizers are gone, and the objects of some keys have no finalizers of others. -/
structure Ready (contents : Contents) (keys : List ObjectKey) (server : Server) : Prop where
  determined : server.Determined contents
  settled : server.Settled
  owned : server.Owned keys

/-- A server that stores the same objects is as ready. -/
theorem Ready.of_objects {contents : Contents} {keys : List ObjectKey} {before after : Server}
    (ready : Ready contents keys before) (same : after.objects = before.objects) :
    Ready contents keys after := by
  refine ⟨fun key stored there => ?_, fun key stored there => ?_, fun key member stored there => ?_⟩
  · exact ready.determined key stored (same ▸ there)
  · exact ready.settled key stored (same ▸ there)
  · exact ready.owned key member stored (same ▸ there)

/-- Clearing some objects adds no finalizers to any. -/
theorem Ready.clears {contents : Contents} {keys cleared : List ObjectKey} {before after : Server}
    (ready : Ready contents keys before) (clears : Clears cleared before after)
    (determined : after.Determined contents) (settled : after.Settled) :
    Ready contents keys after := by
  refine ⟨determined, settled, fun key member stored there => ?_⟩
  by_cases deleted : key ∈ cleared
  · obtain ⟨old, was, fewer⟩ := (clears.cleared key deleted).shrinks stored there
    exact fun f listed => ready.owned key member old was f (fewer listed)
  · rw [clears.agree.objects key deleted] at there
    exact ready.owned key member stored there

/-- A destination was put in place, and no other one was put out of place. -/
structure Upserted (contents : Contents) (keys : List ObjectKey) (template : Fields)
    (d : DestinationStatus) (before after : Server) : Prop where
  agree : Agree (· = d.key) before after
  ready : Ready contents keys after
  inPlace : after.InPlace template d
  keeps : ∀ other, before.InPlace template other → after.InPlace template other

section Upserted

variable {contents : Contents} {keys : List ObjectKey} {template : Fields} {d : DestinationStatus}
  {server after : Server}

/-- Whether a destination is in place depends on its object and its strategy. -/
theorem Server.InPlace.of_target {d' : DestinationStatus} (inPlace : server.InPlace template d)
    (same : d'.target = d.target) : server.InPlace template d' := by
  have key : d'.target.key = d.target.key := congrArg DestinationStatus.key same
  have strategy : d'.target.effectiveStrategy = d.target.effectiveStrategy :=
    congrArg DestinationStatus.effectiveStrategy same
  obtain ⟨stored, found, live, matches_⟩ := inPlace
  refine ⟨stored, (congrArg server.objects key).trans found, live, ?_⟩
  show stored.object.fields.Matches template d'.target.effectiveStrategy
  rw [strategy]
  exact matches_

/-- An object that is what its strategy is to achieve puts its destination in place. -/
theorem upserted_of_stored {new : Stored} (ready : Ready contents keys server)
    (agree : Agree (· = d.key) server after) (determined : after.Determined contents)
    (settled : after.Settled) (found : after.objects d.key = some new)
    (live : new.object.metadata.terminating = false)
    (own : ∀ f ∈ new.object.metadata.finalizerList, f = finalizer)
    (matches_ : new.object.fields.Matches template d.effectiveStrategy)
    (kept : ∀ other : DestinationStatus, other.key = d.key → server.InPlace template other →
      new.object.fields.Matches template other.effectiveStrategy) :
    Upserted contents keys template d server after := by
  refine ⟨agree, ⟨determined, settled, ?_⟩, ⟨new, found, live, matches_⟩, ?_⟩
  · intro key member stored found'
    by_cases same : key = d.key
    · rw [same, found] at found'
      rw [← Option.some.inj found']
      exact own
    · rw [agree.objects key same] at found'
      exact ready.owned key member stored found'
  · intro other inPlace
    by_cases same : other.key = d.key
    · refine ⟨new, same ▸ found, live, kept other same inPlace⟩
    · obtain ⟨stored, found', live', matches'⟩ := inPlace
      exact ⟨stored, (agree.objects other.key same).trans found', live', matches'⟩

/-- An object that does not terminate stays when it is written. -/
theorem Server.write_live {key : ObjectKey} {stored : Stored}
    {change : DynamicObject → DynamicObject}
    (keeps : ∀ object, (change object).metadata.name = object.metadata.name ∧
      (change object).metadata.namespace_ = object.metadata.namespace_)
    (found : server.objects key = some stored)
    (live : (change stored.object).metadata.terminating = false) :
    (server.write key change keeps).objects key =
      some { stored with object := change stored.object } := by
  rw [write_objects, Function.update_self, found, Option.bind_some]
  unfold Stored.settled
  refine if_neg fun gone => ?_
  have terminating := (Bool.and_eq_true_iff.mp gone).1
  rw [live] at terminating
  cases terminating

end Upserted

/-! ## One destination -/

namespace ResourceControllerImpl

/-- A template with the revision of an object does not conflict with it. -/
theorem conflicts_withRevision (template current : DynamicObject) :
    (withRevision template current.metadata.revision).metadata.conflicts current.metadata =
      false := by
  simp [ObjectMeta.conflicts, withRevision, ObjectMeta.revision]

section Upsert

variable {maker : Option ObjectSyncRef} {cache : List Namespace} {contents : Contents}
  {copies : ObjectRevision → Fields} {srcVersion : ObjectRevision} {keys : List ObjectKey}
  {api : DynamicApi} {d : DestinationStatus} {state : UpsertState} {server : Server}
  {stored : Stored}

/-- The finalizers of a fitted template. -/
theorem Upserting.finalizers {template : DynamicObject}
    (upserting : Upserting contents copies srcVersion api d template) :
    template.metadata.finalizers = some [finalizer] := by
  have fields := congrArg Fields.finalizers upserting.fields
  rw [← upserting.fitted] at fields
  exact fields

/-- A fitted template has no owners. -/
theorem Upserting.unowned {template : DynamicObject}
    (upserting : Upserting contents copies srcVersion api d template) :
    template.fields.ownerReferences = none := by
  rw [upserting.fields, ← upserting.fitted]
  rfl

/-- What an attempt leaves for the next destination, when its destination is in place. -/
structure Done (contents : Contents) (keys : List ObjectKey) (template : Fields)
    (d : DestinationStatus) (server : Server) (value : DestinationStatus × UpsertState)
    (after : Server) : Prop where
  upserted : Upserted contents keys template d server after
  target : value.1.target = d.target
  fields : value.2.template.fields = template

/-- An object that does not terminate is updated, or its recorded revisions are truthful. -/
theorem wp_updateExisting_alone
    (upserting : Upserting contents copies srcVersion api d state.template)
    (ready : Ready contents keys server) (member : d.key ∈ keys)
    (found : server.objects d.key = some stored)
    (live : stored.object.metadata.terminating = false) :
    (updateExisting api srcVersion stored.object d state).wp
      (alone maker cache (·.Determined contents)) (fun value after =>
        Done contents keys (copies srcVersion) d server (value.1, value.2.1) after ∧
          value.2.2 = .break_) server := by
  unfold updateExisting
  dsimp only
  have fitting := upserting.withRevision stored.object.metadata.revision
  have noConflict := conflicts_withRevision state.template stored.object
  generalize body_ : withRevision state.template stored.object.metadata.revision = body at *
  by_cases stale : some stored.object.metadata.revision ≠ d.syncedVersion ∨
      some srcVersion ≠ d.sourceVersion
  · rw [if_pos stale]
    cases strategy : d.effectiveStrategy with
    | apply =>
      dsimp only
      have served (choice : Choice) : server.serve maker choice (.apply api d.name body) =
          (.ok (choice.applied stored.object body),
            server.write d.key (choice.applied · body) fun _ => ⟨rfl, rfl⟩) := by
        simp only [serve, upserting.designates, found, noConflict, Bool.false_eq_true, if_false]
      refine wp_served served fun choice determined => ?_
      have effect := server.serve_effect maker choice (.apply api d.name body)
      rw [served choice] at effect
      refine ⟨⟨upserted_of_stored ready ⟨fun key other => Function.update_of_ne other .., rfl, rfl⟩
        determined (effect.settled ready.settled) (write_live _ found live) live ?_ ?_ ?_, rfl,
        fitting.fields⟩, rfl⟩
      · intro f listed
        have merged : f ∈ (choice.applied stored.object body).metadata.finalizers.getD [] := listed
        unfold Choice.applied at merged
        rw [fitting.finalizers] at merged
        rcases List.mem_append.mp merged with former | added
        · exact ready.owned d.key member stored found f former
        · exact List.mem_singleton.mp (List.mem_filter.mp added).1
      · rw [← fitting.fields, strategy]
        exact choice.applied_carries stored.object fitting.unowned
      · intro other same inPlace
        obtain ⟨stored', found', -, matches_⟩ := inPlace
        rw [same, found] at found'
        obtain rfl := Option.some.inj found'
        rw [← fitting.fields] at matches_ ⊢
        exact choice.applied_matches fitting.unowned matches_
    | replace =>
      dsimp only
      have served (choice : Choice) : server.serve maker choice (.replace api d.name body) =
          (.ok (choice.replaced stored.object body),
            server.write d.key (choice.replaced · body) fun _ => ⟨rfl, rfl⟩) := by
        simp only [serve, upserting.designates, found, noConflict, Bool.false_eq_true, if_false]
      refine wp_served served fun choice determined => ?_
      have effect := server.serve_effect maker choice (.replace api d.name body)
      rw [served choice] at effect
      have same : (choice.replaced stored.object body).fields = copies srcVersion :=
        fitting.fields
      refine ⟨⟨upserted_of_stored ready ⟨fun key other => Function.update_of_ne other .., rfl, rfl⟩
        determined (effect.settled ready.settled) (write_live _ found live) live ?_ ?_ ?_, rfl,
        fitting.fields⟩, rfl⟩
      · intro f listed
        have replaced : f ∈ body.metadata.finalizers.getD [] := listed
        rw [fitting.finalizers] at replaced
        exact List.mem_singleton.mp replaced
      · rw [same]
        exact .refl _ _
      · intro other _ _
        rw [same]
        exact .refl _ _
  · rw [if_neg stale]
    obtain ⟨current, unchanged⟩ := not_or.mp stale
    have truth := upserting.truthful _ _ (not_not.mp current).symm (not_not.mp unchanged).symm
    rw [← ready.determined d.key stored found] at truth
    refine ⟨⟨upserted_of_stored ready (.refl _ _) ready.determined ready.settled found live
      (ready.owned d.key member stored found) truth ?_, rfl, upserting.fields⟩, rfl⟩
    intro other same inPlace
    obtain ⟨stored', found', -, matches_⟩ := inPlace
    rw [same, found] at found'
    obtain rfl := Option.some.inj found'
    exact matches_

/-- An object that does not exist is created. -/
theorem wp_createMissing_alone
    (upserting : Upserting contents copies srcVersion api d state.template)
    (ready : Ready contents keys server) (absent : server.objects d.key = none) :
    (createMissing api srcVersion d state).wp (alone maker cache (·.Determined contents))
      (fun value after =>
        Done contents keys (copies srcVersion) d server (value.1, value.2.1) after ∧
        value.2.2 = .break_) server := by
  unfold createMissing
  have designates : api.key state.template.metadata.nameAny = d.key := by
    rw [upserting.named, upserting.designates]
  have served (choice : Choice) : server.serve maker choice (.create api state.template) =
      (.ok (choice.created api.namespace_ state.template.metadata.nameAny state.template),
        (server.create maker choice api state.template.metadata.nameAny state.template).2) := by
    simp only [serve, designates, absent]
    rfl
  refine wp_served served fun choice determined => ?_
  have effect := server.serve_effect maker choice (.create api state.template)
  rw [served choice] at effect
  have created : (server.create maker choice api state.template.metadata.nameAny
      state.template).2.objects d.key =
      some ⟨choice.created api.namespace_ state.template.metadata.nameAny state.template,
        maker⟩ := by
    rw [create_objects, designates, Function.update_self]
  have same : (choice.created api.namespace_ state.template.metadata.nameAny
      state.template).fields = copies srcVersion := upserting.fields
  refine ⟨⟨upserted_of_stored ready ⟨fun key other => ?_, rfl, rfl⟩ determined
    (effect.settled ready.settled) created rfl ?_ ?_ ?_, rfl, upserting.fields⟩, rfl⟩
  · rw [create_objects, designates, Function.update_of_ne other]
  · intro f listed
    have body : f ∈ state.template.metadata.finalizers.getD [] := listed
    rw [upserting.finalizers] at body
    exact List.mem_singleton.mp body
  · rw [same]
    exact .refl _ _
  · intro other _ _
    rw [same]
    exact .refl _ _

/-- An attempt puts its destination in place, unless there is a terminating object. -/
theorem wp_upsertAttempt_alone
    (upserting : Upserting contents copies srcVersion api d state.template)
    (ready : Ready contents keys server) (member : d.key ∈ keys)
    (live : ∀ stored, server.objects d.key = some stored →
      stored.object.metadata.terminating = false) :
    (upsertAttempt api srcVersion d state).wp (alone maker cache (·.Determined contents))
      (fun value after =>
        Done contents keys (copies srcVersion) d server (value.1, value.2.1) after ∧
        value.2.2 = .break_) server := by
  unfold upsertAttempt
  have reset := upserting.withRevision ⟨none, none⟩
  dsimp only
  cases found : server.objects d.key with
  | none =>
    have served (choice : Choice) : server.serve maker choice (.get api d.name) =
        (.error (.api 404 "not found"), server) := by
      simp only [serve, upserting.designates, found]
    refine wp_served served fun choice _ => ?_
    exact wp_createMissing_alone reset ready found
  | some stored =>
    have served (choice : Choice) : server.serve maker choice (.get api d.name) =
        (.ok stored.object, server) := by
      simp only [serve, upserting.designates, found]
    refine wp_served served fun choice _ => ?_
    dsimp only
    rw [live stored found, if_neg Bool.false_ne_true]
    exact wp_updateExisting_alone reset ready member found (live stored found)

/-- A terminating object is released by an attempt, and disappears. -/
theorem wp_upsertAttempt_terminating
    (upserting : Upserting contents copies srcVersion api d state.template)
    (ready : Ready contents keys server) (member : d.key ∈ keys)
    (found : server.objects d.key = some stored)
    (terminating : stored.object.metadata.terminating = true) :
    (upsertAttempt api srcVersion d state).wp (alone maker cache (·.Determined contents))
      (fun value after => value.1 = d ∧ value.2.2 = .continue_ ∧
        Upserting contents copies srcVersion api d value.2.1.template ∧
        Agree (· = d.key) server after ∧ Ready contents keys after ∧
        after.objects d.key = none) server := by
  unfold upsertAttempt
  have reset := upserting.withRevision ⟨none, none⟩
  have served (choice : Choice) : server.serve maker choice (.get api d.name) =
      (.ok stored.object, server) := by
    simp only [serve, upserting.designates, found]
  dsimp only
  refine wp_served served fun choice _ => ?_
  dsimp only
  rw [terminating, if_pos rfl, wp_bind]
  have own := ready.owned d.key member stored found
  -- It has not gone yet, so the finalizer is there, and nothing else is.
  have carries : finalizer ∈ stored.object.metadata.finalizerList := by
    cases listed : stored.object.metadata.finalizerList with
    | nil =>
      have present := ready.settled d.key stored found
      rw [ObjectMeta.gone, terminating, listed] at present
      cases present
    | cons f rest =>
      rw [listed] at own
      rw [own f List.mem_cons_self]
      exact List.mem_cons_self
  have named : stored.object.metadata.nameAny = d.name := by
    rw [ObjectMeta.nameAny, (server.named found).1]
    rfl
  have found' : server.objects (api.key d.name) = some stored := upserting.designates ▸ found
  have possible := @wp_alone maker cache (·.Determined contents) server _
    (removeFinalizer api stored.object finalizer) ready.determined ready.settled
  have removed := wp_and (wp_removeFinalizer_alone named found' rfl) possible
  refine wp_mono ?_ ?_ ?_ ?_ removed
  · exact fun _ _ same => same
  · exact fun _ _ _ _ answered => answered
  · exact fun _ _ _ _ _ _ => trivial
  · rintro ⟨source, result⟩ after ⟨⟨told, agree, released, -⟩, determined, settled⟩
    obtain rfl : result = .ok true := told.trans (congrArg Except.ok (decide_eq_true carries))
    have gone := (released carries).gone terminating own
    rw [upserting.designates] at agree gone
    refine ⟨rfl, rfl, reset, agree, ⟨determined, settled, fun key listed stored' there => ?_⟩, gone⟩
    by_cases same : key = d.key
    · rw [same, gone] at there
      cases there
    · rw [agree.objects key same] at there
      exact ready.owned key listed stored' there

/-- The attempts put their destination in place. -/
theorem wp_upsertLoop_alone
    (upserting : Upserting contents copies srcVersion api d state.template)
    (ready : Ready contents keys server) (member : d.key ∈ keys) :
    (upsertLoop api srcVersion 3 d state).wp (alone maker cache (·.Determined contents))
      (fun value after => Done contents keys (copies srcVersion) d server value after) server := by
  have finish {state : UpsertState} {attempts : Nat} {server : Server}
      (upserting : Upserting contents copies srcVersion api d state.template)
      (ready : Ready contents keys server)
      (live : ∀ stored, server.objects d.key = some stored →
        stored.object.metadata.terminating = false) :
      (upsertLoop api srcVersion (attempts + 1) d state).wp
        (alone maker cache (·.Determined contents))
        (fun value after => Done contents keys (copies srcVersion) d server value after)
        server := by
    rw [upsertLoop, wp_bind]
    refine wp_imp ?_ (wp_upsertAttempt_alone upserting ready member live)
    rintro ⟨d', state', flow⟩ after ⟨done, rfl⟩
    exact done
  by_cases waiting : ∃ stored, server.objects d.key = some stored ∧
      stored.object.metadata.terminating = true
  · obtain ⟨stored, found, terminating⟩ := waiting
    rw [upsertLoop, wp_bind]
    refine wp_imp ?_ (wp_upsertAttempt_terminating upserting ready member found terminating)
    rintro ⟨d', state', flow⟩ middle ⟨rfl, rfl, upserting', agree, ready', gone⟩
    refine wp_imp ?_ (finish upserting' ready' ?_)
    · intro value after done
      refine ⟨⟨agree.trans done.upserted.agree, done.upserted.ready, done.upserted.inPlace, ?_⟩,
        done.target, done.fields⟩
      intro other inPlace
      refine done.upserted.keeps other ?_
      obtain ⟨stored', found', live, matches_⟩ := inPlace
      by_cases same : other.key = d'.key
      · rw [same, found] at found'
        rw [← Option.some.inj found', terminating] at live
        cases live
      · exact ⟨stored', (agree.objects other.key same).trans found', live, matches_⟩
    · intro stored' found'
      rw [gone] at found'
      cases found'
  · refine finish upserting ready fun stored found => ?_
    exact Bool.eq_false_iff.mpr fun terminating => waiting ⟨stored, found, terminating⟩

/-- All destinations of a list were put in place, and no others out of place. -/
structure UpsertedAll (contents : Contents) (keys : List ObjectKey) (template : Fields)
    (destinations : List DestinationStatus) (before after : Server) : Prop where
  agree : Agree (· ∈ destinations.map (·.key)) before after
  ready : Ready contents keys after
  inPlace : ∀ d ∈ destinations, after.InPlace template d
  keeps : ∀ other, before.InPlace template other → after.InPlace template other

/-- The loop over the destinations puts them in place. -/
theorem wp_upsertEach_alone (self : ResourceControllerImpl) (destinations : List DestinationStatus)
    (truthful : ∀ d ∈ destinations, d.Truthful contents copies)
    (designates : ∀ d ∈ destinations, (self.namespacedApi d.namespace_).key d.name = d.key)
    (fields : state.template.fields.fitted = copies srcVersion)
    (ready : Ready contents keys server) (members : ∀ d ∈ destinations, d.key ∈ keys) :
    (self.upsertEach srcVersion [] destinations state).wp
      (alone maker cache (·.Determined contents)) (fun value after =>
        value.1.map (·.target) = destinations.map (·.target) ∧
          UpsertedAll contents keys (copies srcVersion) destinations server after) server := by
  induction destinations generalizing state server with
  | nil =>
    exact ⟨rfl, .refl _ _, ready, fun d member => absurd member List.not_mem_nil, fun _ => id⟩
  | cons d rest ih =>
    have fitted : (copies srcVersion).fitted = copies srcVersion := by
      rw [← fields]
      rfl
    have upserting : Upserting contents copies srcVersion (self.namespacedApi d.namespace_) d
        (fitTemplate state.template d) :=
      ⟨truthful d List.mem_cons_self, designates d List.mem_cons_self, rfl, fields, fitted⟩
    rw [upsertEach, if_neg (by simp [isRemnant]), wp_bind]
    refine wp_imp ?_ (wp_upsertLoop_alone upserting ready (members d List.mem_cons_self))
    intro value middle done
    have fields' : value.2.template.fields.fitted = copies srcVersion := by
      rw [done.fields, fitted]
    rw [wp_bind]
    refine wp_imp ?_ (ih (fun other member => truthful other (List.mem_cons_of_mem _ member))
      (fun other member => designates other (List.mem_cons_of_mem _ member)) fields'
      done.upserted.ready fun other member => members other (List.mem_cons_of_mem _ member))
    intro value' after later
    refine ⟨?_, ⟨?_, later.2.ready, ?_, ?_⟩⟩
    · simp only [List.map_cons, done.target, later.1]
    · refine (done.upserted.agree.mono fun key same => ?_).trans
        (later.2.agree.mono fun key member => List.mem_cons_of_mem _ member)
      rw [same]
      exact List.mem_cons_self
    · intro other member
      rcases List.mem_cons.mp member with rfl | member
      · exact later.2.keeps _ done.upserted.inPlace
      · exact later.2.inPlace other member
    · exact fun other inPlace => later.2.keeps other (done.upserted.keeps other inPlace)

/-! ## The run -/

variable {o : ObjectSyncRef} {event : ObjectSyncModifications} {source : DynamicObject}

/-- What the second half of a run achieves. -/
structure Synchronized (o : ObjectSyncRef) (template : Fields)
    (destinations : List DestinationStatus) (before after : Server) : Prop where
  inPlace : ∀ d ∈ destinations, after.InPlace template d
  others : ∀ key, key ∉ destinations.map (·.key) → after.objects key = before.objects key
  listed : ∃ sync, after.syncs o.name = some sync ∧
    sync.destinationList.map (·.target) = destinations.map (·.target)

/-- Steps 3 and 4 of `reconcile_source` put the persisted destinations in place and list them. -/
theorem wp_syncDestinations_alone (self : ResourceControllerImpl) (removedCount : Nat)
    (inStep : InStep o event server) (persisted : event.original.status = event.modified.status)
    (truthful : ∀ d ∈ event.modified.destinationList, d.Truthful contents copies)
    (designates : ∀ d ∈ event.modified.destinationList,
      (self.namespacedApi d.namespace_).key d.name = d.key)
    (fields : (sourceTemplate source).fields.fitted = copies source.metadata.revision)
    (ready : Ready contents keys server)
    (members : ∀ d ∈ event.modified.destinationList, d.key ∈ keys) :
    (self.syncDestinations event source [] removedCount).wp
      (alone maker cache (·.Determined contents)) (fun value after => value.2 = .ok () ∧
        Synchronized o (copies source.metadata.revision) event.modified.destinationList server
          after) server := by
  have listedBefore : event.original.destinationList = event.modified.destinationList :=
    ObjectSync.destinationList_eq_of_status persisted
  unfold syncDestinations
  cases tracked : event.modified.statusDestinations with
  | none =>
    have empty : event.modified.destinationList = [] := by
      rw [ObjectSync.destinationList, tracked, Option.getD_none]
    refine ⟨rfl, ?_, fun _ _ => rfl, event.original, inStep.found, by rw [listedBefore]⟩
    rw [empty]
    exact fun d member => absurd member List.not_mem_nil
  | some destinations =>
    have same : event.modified.destinationList = destinations :=
      ObjectSync.destinationList_of_tracked tracked
    rw [same] at truthful designates members listedBefore ⊢
    unfold upsertDestinations
    dsimp only
    rw [wp_bind, wp_bind]
    refine wp_imp ?_ (@wp_upsertEach_alone maker cache contents copies _ keys
      ⟨sourceTemplate source, false, 0⟩ server self destinations truthful designates fields ready
      members)
    rintro ⟨upserted, state⟩ middle ⟨targets, all⟩
    rw [pure_eq, wp_done]
    dsimp only
    have inStep' : InStep o (event.updateDestinations upserted) middle := by
      have later : InStep o event middle :=
        ⟨all.agree.syncs ▸ inStep.found, inStep.kept, inStep.present⟩
      exact later.modify fun sync => rfl
    split
    · rw [wp_bind]
      refine wp_imp ?_ (wp_updateCondition_alone inStep' _)
      rintro event' _ ⟨rfl, inStep'', -, kept⟩
      refine wp_imp ?_ (wp_replaceStatus_alone inStep'')
      intro value after written
      obtain ⟨ok, write⟩ := written
      refine ⟨ok, ?_, ?_, value.1.original, write.inStep.found, ?_⟩
      · intro d member
        obtain ⟨stored, found, rest⟩ := all.inPlace d member
        exact ⟨stored, write.agree.objects ▸ found, rest⟩
      · intro key other
        rw [write.agree.objects]
        exact all.agree.objects key other
      · have persisted' := ObjectSync.destinationList_eq_of_status write.persisted
        rw [persisted', kept]
        exact targets
    · refine ⟨rfl, all.inPlace, all.agree.objects, event.original, ?_, ?_⟩
      · rw [all.agree.syncs]
        exact inStep.found
      · rw [listedBefore]

/-- What a run is to achieve: all expected destinations are in place, all others that were tracked
are gone, and the persisted destinations are the expected ones. -/
structure Converged (self : ResourceControllerImpl) (o : ObjectSyncRef) (sync : ObjectSync)
    (cache : List Namespace) (template : Fields) (after : Server) : Prop where
  inPlace : ∀ target ∈ expectedDestinations sync cache,
    after.InPlace template (self.expectedStatus target)
  deleted : ∀ d ∈ sync.destinationList,
    (∀ target ∈ expectedDestinations sync cache, d.key ≠ (self.expectedStatus target).key) →
      after.objects d.key = none
  listed : ∃ sync', after.syncs o.name = some sync' ∧ (sync'.destinationList.map (·.target)).Perm
    ((expectedDestinations sync cache).map self.expectedStatus)

/-- The keys that a run may touch. -/
def touchedKeys (self : ResourceControllerImpl) (sync : ObjectSync) (cache : List Namespace) :
    List ObjectKey :=
  sync.destinationList.map (·.key) ++
    (expectedDestinations sync cache).map fun target => (self.expectedStatus target).key

/-- An undisturbed run of `reconcile_source` converges. -/
theorem wp_reconcileSource_alone (self : ResourceControllerImpl) {sync : ObjectSync}
    (found : server.syncs o.name = some sync) (present : sync.metadata.gone = false)
    (truthful : sync.Truthful contents copies)
    (fields : (sourceTemplate source).fields.fitted = copies source.metadata.revision)
    (ready : Ready contents (self.touchedKeys sync cache) server) :
    (self.reconcileSource (.new sync) source).wp (alone maker cache (·.Determined contents))
      (fun value after => value.2 = .ok () ∧
        Converged self o sync cache (copies source.metadata.revision) after) server := by
  unfold reconcileSource
  refine wp_namespaces_alone ?_
  have targets := self.splitDestinations_targets (expectedDestinations sync cache)
    sync.destinationList
  have expectedKeys := self.splitDestinations_expected_keys (expectedDestinations sync cache)
    sync.destinationList
  have stale_ := self.splitDestinations_stale (expectedDestinations sync cache)
    sync.destinationList
  have known := self.splitDestinations_truthful (expectedDestinations sync cache)
    sync.destinationList truthful
  have designates (d : DestinationStatus) := @exists_target_of_mem_expected self
    (expectedDestinations sync cache) sync.destinationList d
  have own := ready.owned
  have modified : (ObjectSyncModifications.new sync).modified = sync := rfl
  rw [modified]
  generalize self.splitDestinations (expectedDestinations sync cache) sync.destinationList =
    split_ at *
  obtain ⟨expected, stale⟩ := split_
  dsimp only at targets expectedKeys stale_ known designates ⊢
  have possible := @wp_alone maker cache (·.Determined contents) server _ (deleteDestinations stale)
    ready.determined ready.settled
  have cleanup := wp_and (wp_deleteDestinations_alone stale) possible
  rw [wp_bind]
  refine wp_mono ?_ ?_ ?_ ?_ cleanup
  · exact fun _ _ same => same
  · exact fun _ _ _ _ answered => answered
  · exact fun _ _ _ _ _ _ => trivial
  rintro result middle ⟨⟨rfl, cleared⟩, determined, settled⟩
  have ready' := ready.clears cleared determined settled
  dsimp only
  rw [wp_bind]
  have inStep : InStep o ((ObjectSyncModifications.new sync).updateDestinations
      (sortDestinations (expected ++ []))) middle := by
    refine InStep.modify ⟨?_, rfl, present⟩ fun sync => rfl
    rw [cleared.agree.syncs]
    exact found
  refine wp_imp ?_ (wp_replaceStatus_alone inStep)
  rintro ⟨event, result⟩ written ⟨ok, write⟩
  obtain rfl : result = .ok () := ok
  have sorted : event.modified.destinationList = sortDestinations (expected ++ []) :=
    ObjectSync.destinationList_eq_of_status write.same
  have wanted (d : DestinationStatus) : d ∈ event.modified.destinationList ↔ d ∈ expected := by
    rw [sorted, (sortDestinations_perm _).mem_iff, List.append_nil]
  have keysOf : ∀ key, key ∈ event.modified.destinationList.map (·.key) ↔
      key ∈ (expectedDestinations sync cache).map fun target =>
        (self.expectedStatus target).key := by
    intro key
    rw [← expectedKeys, List.mem_map, List.mem_map]
    simp only [wanted]
  have objects : written.objects = middle.objects := write.agree.objects
  have readyWritten := ready'.of_objects objects
  dsimp only
  refine wp_imp ?_ (self.wp_syncDestinations_alone _ write.inStep
    (write.persisted.trans write.same.symm) (fun d member => known d ((wanted d).mp member))
    (fun d member => ?_) fields readyWritten fun d member => ?_)
  · rintro value after ⟨ok, synchronized⟩
    refine ⟨ok, ⟨fun target member => ?_, fun d tracked other => ?_, ?_⟩⟩
    · have listed : self.expectedStatus target ∈ expected.map (·.target) := by
        rw [targets]
        exact List.mem_map_of_mem member
      obtain ⟨d, listed, same⟩ := List.mem_map.mp listed
      exact (synchronized.inPlace d ((wanted d).mpr listed)).of_target same.symm
    · have deleted : d ∈ stale := by
        rw [stale_, List.mem_filter]
        exact ⟨tracked, List.all_eq_true.mpr fun target member =>
          decide_eq_true (other target member)⟩
      have gone := (cleared.cleared d.key (List.mem_map_of_mem deleted)).eq_none settled
        (own d.key (List.mem_append_left _ (List.mem_map_of_mem tracked)))
      rw [synchronized.others d.key, objects, gone]
      intro expected_
      obtain ⟨target, member, same⟩ := List.mem_map.mp ((keysOf d.key).mp expected_)
      exact other target member same.symm
    · obtain ⟨sync', found', same⟩ := synchronized.listed
      refine ⟨sync', found', ?_⟩
      rw [same, sorted, ← targets]
      have perm := sortDestinations_perm (expected ++ [])
      rw [List.append_nil] at perm ⊢
      exact perm.map _
  · obtain ⟨target, -, same⟩ := designates d ((wanted d).mp member)
    exact namespacedApi_key same
  · exact List.mem_append_right _ ((keysOf d.key).mp (List.mem_map_of_mem member))

end Upsert

end ResourceControllerImpl

open ResourceControllerImpl

/-- **Convergence after any history.** Whatever runs, edits and failures came before, one run on the
current ObjectSync and its source that nobody disturbs succeeds. It leaves every expected
destination in place, deletes all others that were tracked, and persists the expected ones. -/
theorem reconcileSource_converges {contents : Contents} {self : ResourceControllerImpl}
    {ref : SourceRef} {o : ObjectSyncRef} {server after : Server} {sync : ObjectSync}
    {source : DynamicObject} {cache : List Namespace}
    {value : ObjectSyncModifications × Except ControllerError Unit}
    (reachable : RecordingReachable contents self ref o server)
    (found : server.syncs o.name = some sync) (present : sync.metadata.gone = false)
    (revision : SourceRevision contents self ref source) (settled : server.Settled)
    (owned : server.Owned (self.touchedKeys sync cache))
    (returned : Returns (alone (some o) cache (·.Determined contents)).rely
      (alone (some o) cache (·.Determined contents)).answers
      (self.reconcileSource (.new sync) source) server value after) :
    value.2 = .ok () ∧ Converged self o sync cache (source.fields.copied ref) after := by
  have recorded := recorded_of_reachable reachable
  have template : contents.template self ref source.metadata.revision =
      source.fields.copied ref := by
    rw [Contents.template, revision.fields]
  have fields : (sourceTemplate source).fields.fitted =
      contents.template self ref source.metadata.revision := by
    rw [sourceTemplate_fields, revision.named, template]
  rw [← template]
  exact returned.meets (wp_reconcileSource_alone self found present
    (recorded.truthful sync found) fields ⟨recorded.determined, settled, owned⟩)

/-- Every revision of an object has the same fields. -/
def steady (fields : ObjectKey → Fields) : Contents := fun key _ => fields key

/-- The answers to undisturbed runs that copy the settings. -/
def copyingAnswer (resourceVersion : String) : Handler Call Reply Server :=
  Server.answer (some settingsRef) ⟨"u", resourceVersion, 0, []⟩ settingsNamespaces "now"

/-- Whether an answer leaves the target of its request with given fields. -/
def answersSteadily (fields : ObjectKey → Fields) (resourceVersion : String) (server : Server) :
    Call → Bool
  | .api request => request.target.all fun key =>
    ((copyingAnswer resourceVersion server (.api request)).2.objects key).all fun stored =>
      stored.object.fields = fields key
  | _ => true

/-- All objects have given fields, and none of them waits for nothing. -/
def Server.Steady (fields : ObjectKey → Fields) (server : Server) : Prop :=
  server.Determined (steady fields) ∧ server.Settled

/-- Answers to runs that copy the settings leave all objects with given fields, when they do so for
each. -/
theorem Server.Steady.answer {fields : ObjectKey → Fields} {server : Server}
    (steady : server.Steady fields) {resourceVersion : String} {call : Call}
    (steadily : answersSteadily fields resourceVersion server call = true) :
    (copyingAnswer resourceVersion server call).2.Steady fields := by
  cases call with
  | api request =>
    have effect := server.serve_effect (some settingsRef) ⟨"u", resourceVersion, 0, []⟩ request
    refine ⟨fun key stored found => ?_, effect.settled steady.2⟩
    by_cases target : request.target = some key
    · change (request.target.all _) = true at steadily
      rw [target, Option.all_some, found, Option.all_some] at steadily
      exact of_decide_eq_true steadily
    · have same := effect.objects_eq target
      exact steady.1 key stored (same.symm.trans found)
  | _ => exact steady

/-- The fields of everything that is stored while the settings are copied. -/
def settingsFields (key : ObjectKey) : Fields :=
  if key = configMaps.sourceKey (.ofObject settingsSource) then settingsSource.fields
  else settingsSource.fields.copied (.ofObject settingsSource)

/-- A run that copies the settings, stopped after a number of calls. -/
def settingsCopying (resourceVersion : String) (count : Nat) (sync : ObjectSync) (server : Server) :
    Async (ObjectSyncModifications × Except ControllerError Unit) × Server :=
  (configMaps.reconcileSource (.new sync) settingsSource).runFor (copyingAnswer resourceVersion)
    count server

/-- The server when a run was cut off right after it created the copy. -/
def settingsCut : Server := (settingsCopying "2" 5 settingsSync settingsServer).2

/-- The ObjectSync of the settings as a run that was cut off has left it. -/
def settingsCutSync : ObjectSync := (settingsCut.syncs settingsRef.name).getD settingsSync

/-- The server when another run has followed. -/
def settingsConverged : Server := (settingsCopying "3" 20 settingsCutSync settingsCut).2

/-- The copy has the finalizer of the controller and no other. -/
theorem settings_owned {server : Server} (steady : server.Steady settingsFields) :
    server.Owned (configMaps.touchedKeys settingsCutSync settingsNamespaces) := by
  intro key member stored found f listed
  have copies : ∀ key ∈ configMaps.touchedKeys settingsCutSync settingsNamespaces,
      (settingsFields key).finalizers = some [finalizer] := by decide +kernel
  have same : stored.object.metadata.finalizers = some [finalizer] :=
    (congrArg Fields.finalizers (steady.1 key stored found)).trans (copies key member)
  rw [ObjectMeta.finalizerList, same] at listed
  exact List.mem_singleton.mp listed

/-- After a run that was cut off, the next one puts the copy in place. -/
theorem settingsConverged_converges :
    Converged configMaps settingsRef settingsCutSync settingsNamespaces
      (settingsSource.fields.copied (.ofObject settingsSource)) settingsConverged := by
  have empty : settingsServer.Steady settingsFields := by
    constructor <;> rintro key stored ⟨⟩
  have source : SourceRevision (steady settingsFields) configMaps (.ofObject settingsSource)
      settingsSource := ⟨rfl, by decide +kernel⟩
  have nothing : ∀ sync, settingsServer.syncs settingsRef.name = some sync →
      sync.destinationList = [] := by
    intro sync found
    rw [← Option.some.inj found]
    rfl
  have start : RecordingReachable (steady settingsFields) configMaps (.ofObject settingsSource)
      settingsRef settingsServer := .start empty.1 nothing
  obtain ⟨cut, kept⟩ := @steps_runFor _ _ _ _
    (recording (steady settingsFields) configMaps (.ofObject settingsSource) settingsRef).rely
    (recording (steady settingsFields) configMaps (.ofObject settingsSource) settingsRef).answers
    (copyingAnswer "2") (answersSteadily settingsFields "2") (·.Steady settingsFields)
    (fun _ => .inl rfl)
    (fun server call kept steadily => by
      have next := kept.answer steadily
      exact ⟨⟨server.answer_allowed _ _ _ _ call, next.1⟩, next⟩)
    5 (configMaps.reconcileSource (.new settingsSync) settingsSource) settingsServer empty
    (by decide +kernel)
  have reachable := start.run rfl source cut
  obtain ⟨steps, -⟩ := @steps_runFor _ _ _ _
    (alone (some settingsRef) settingsNamespaces (·.Determined (steady settingsFields))).rely
    (alone (some settingsRef) settingsNamespaces (·.Determined (steady settingsFields))).answers
    (copyingAnswer "3") (answersSteadily settingsFields "3") (·.Steady settingsFields)
    (fun _ => rfl)
    (fun server call kept steadily => by
      have next := kept.answer steadily
      cases call with
      | api request => exact ⟨⟨⟨_, rfl⟩, trivial, next.1⟩, next⟩
      | namespaces => exact ⟨⟨rfl, rfl, next.1⟩, next⟩
      | _ => exact ⟨⟨rfl, trivial, next.1⟩, next⟩)
    20 (configMaps.reconcileSource (.new settingsCutSync) settingsSource) settingsCut kept
    (by decide +kernel)
  obtain ⟨value, finished⟩ :=
    @exists_done _ _ _ (settingsCopying "3" 20 settingsCutSync settingsCut).1
    (by decide +kernel)
  have found : settingsCut.syncs settingsRef.name = some settingsCutSync := by decide +kernel
  have returned := finished ▸ steps
  exact (reconcileSource_converges reachable found (by decide +kernel) source kept.2
    (settings_owned kept) returned).2

end ObjectSyncer
