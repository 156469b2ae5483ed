import ObjectSyncer.DestinationWatch
import ObjectSyncer.ServedRuns

/-!
# Areas of copies

Each ObjectSync has an area of its own that its copies are made in. The functions of both
controllers keep to the areas: whatever is in one is tracked by its ObjectSync, and nobody else has
finalizers on it.
-/
namespace ObjectSyncer

open Interaction Interaction.Program Server

/-- Where the copies of each ObjectSync may be. No two ObjectSyncs share a place. -/
structure Areas where
  holds : ObjectSyncRef → ObjectKey → Prop
  apart : ∀ {o o' key}, holds o key → holds o' key → o = o'

/-- The persisted destinations of an ObjectSync, none when it does not exist. -/
def Server.tracked (server : Server) (o : ObjectSyncRef) : List DestinationStatus :=
  ((server.syncs o.name).map (·.destinationList)).getD []

/-- A list of destinations covers the area of an ObjectSync: it lies there, and lists every object
that is there. -/
structure Areas.Covers (areas : Areas) (o : ObjectSyncRef) (server : Server)
    (destinations : List DestinationStatus) : Prop where
  within : ∀ d ∈ destinations, areas.holds o d.key
  all : ∀ key stored, areas.holds o key → server.objects key = some stored →
    key ∈ destinations.map (·.key)

/-- Everything in an area is tracked, and nobody else has finalizers on it. -/
structure Areas.Tidy (areas : Areas) (server : Server) : Prop where
  covers : ∀ o, areas.Covers o server (server.tracked o)
  owned : ∀ o key stored, areas.holds o key → server.objects key = some stored →
    ∀ f ∈ stored.object.metadata.finalizerList, f = finalizer
  settled : server.Settled
  present : server.SyncsPresent

section Tidy

variable {areas : Areas} {server middle after : Server} {o : ObjectSyncRef} {key : ObjectKey}
  {maker : Option ObjectSyncRef} {cache : List Namespace}

/-- The persisted destinations of an ObjectSync that is there. -/
theorem Server.tracked_of_found {sync : ObjectSync} (found : server.syncs o.name = some sync) :
    server.tracked o = sync.destinationList := by
  simp [Server.tracked, found]

/-- What is persisted depends on the ObjectSync only. -/
theorem Server.tracked_of_eq (same : after.syncs o.name = server.syncs o.name) :
    after.tracked o = server.tracked o := by
  simp [Server.tracked, same]

/-- Where nothing is tracked, nothing is. -/
theorem Areas.Tidy.empty (tidy : areas.Tidy server) (untracked : server.tracked o = [])
    (inside : areas.holds o key) : server.objects key = none := by
  cases found : server.objects key with
  | none => rfl
  | some stored =>
    have listed := (tidy.covers o).all key stored inside found
    rw [untracked] at listed
    cases listed

/-- Objects in the areas are changed to what is tracked and owned. -/
theorem Areas.Tidy.step (tidy : areas.Tidy server) (syncs : after.syncs = server.syncs)
    (settled : after.Settled)
    (objects : ∀ o key stored, areas.holds o key → after.objects key = some stored →
      key ∈ (server.tracked o).map (·.key) ∧
        ∀ f ∈ stored.object.metadata.finalizerList, f = finalizer) : areas.Tidy after := by
  have tracked (o : ObjectSyncRef) : after.tracked o = server.tracked o :=
    Server.tracked_of_eq (congrFun syncs o.name)
  refine ⟨fun o => ⟨?_, ?_⟩, fun o key stored inside found => (objects o key stored inside found).2,
    settled, ?_⟩
  · rw [tracked]
    exact (tidy.covers o).within
  · intro key stored inside found
    rw [tracked]
    exact (objects o key stored inside found).1
  · intro name sync found
    rw [syncs] at found
    exact tidy.present name sync found

/-- Objects in the areas are left alone. -/
theorem Areas.Tidy.elsewhere (tidy : areas.Tidy server) (syncs : after.syncs = server.syncs)
    (settled : after.Settled)
    (same : ∀ o key, areas.holds o key → after.objects key = server.objects key) :
    areas.Tidy after := by
  apply tidy.step syncs settled
  intro o key stored inside found
  rw [same o key inside] at found
  exact ⟨(tidy.covers o).all key stored inside found, tidy.owned o key stored inside found⟩

/-- Removing finalizers from an object leaves the areas tidy. -/
theorem Areas.Tidy.shrunk (tidy : areas.Tidy server) (agree : Agree (· = key) server after)
    (settled : after.Settled) (shrinks : Shrinks key server after) : areas.Tidy after := by
  apply tidy.step agree.syncs settled
  intro o other stored inside found
  by_cases same : other = key
  · subst same
    obtain ⟨old, found', fewer⟩ := shrinks stored found
    exact ⟨(tidy.covers o).all other old inside found',
      fun f member => tidy.owned o other old inside found' f (fewer member)⟩
  · rw [agree.objects other same] at found
    exact ⟨(tidy.covers o).all other stored inside found, tidy.owned o other stored inside found⟩

/-- Destinations that cover an area are persisted. -/
theorem Areas.Tidy.persisted (tidy : areas.Tidy server) (agree : AgreeBut o server after)
    {sync : ObjectSync} (found : after.syncs o.name = some sync)
    (present : sync.metadata.gone = false) (covers : areas.Covers o server sync.destinationList) :
    areas.Tidy after := by
  have objects := agree.objects
  refine ⟨fun o' => ?_, ?_, ?_, ?_⟩
  · by_cases same : o' = o
    · subst same
      rw [Server.tracked_of_found found]
      refine ⟨covers.within, fun key stored inside there => ?_⟩
      rw [objects] at there
      exact covers.all key stored inside there
    · have other : o'.name ≠ o.name := fun names => same (congrArg ObjectSyncRef.mk names)
      rw [Server.tracked_of_eq (agree.syncs o'.name other)]
      refine ⟨(tidy.covers o').within, fun key stored inside there => ?_⟩
      rw [objects] at there
      exact (tidy.covers o').all key stored inside there
  · intro o' key stored inside there
    rw [objects] at there
    exact tidy.owned o' key stored inside there
  · intro key stored there
    rw [objects] at there
    exact tidy.settled key stored there
  · intro name other there
    by_cases same : name = o.name
    · subst same
      rw [found] at there
      rw [← Option.some.inj there]
      exact present
    · rw [agree.syncs name same] at there
      exact tidy.present name other there

/-- What happens to an ObjectSync without tracked destinations is of no matter, as long as none are
tracked. -/
theorem Areas.Tidy.untracked (tidy : areas.Tidy server) (objects : after.objects = server.objects)
    (others : ∀ name, name ≠ o.name → after.syncs name = server.syncs name)
    (before : server.tracked o = []) (now : after.tracked o = []) (present : after.SyncsPresent) :
    areas.Tidy after := by
  have tracked (o' : ObjectSyncRef) : after.tracked o' = server.tracked o' := by
    by_cases same : o' = o
    · rw [same, before, now]
    · exact Server.tracked_of_eq
        (others o'.name fun names => same (congrArg ObjectSyncRef.mk names))
  refine ⟨fun o' => ?_, ?_, ?_, present⟩
  · rw [tracked]
    refine ⟨(tidy.covers o').within, ?_⟩
    rw [objects]
    exact (tidy.covers o').all
  · rw [objects]
    exact tidy.owned
  · unfold Server.Settled
    rw [objects]
    exact tidy.settled

/-- Whatever an undisturbed run does, the server is settled. -/
theorem wp_settled {α : Type} {post : α → Server → Prop} {program : Async α}
    (settled : server.Settled)
    (holds : program.wp (alone maker cache fun _ => True) post server) :
    program.wp (alone maker cache fun _ => True)
      (fun value after => post value after ∧ after.Settled) server := by
  have leaves : program.wp (alone maker cache fun _ => True)
      (fun _ after => True ∧ after.Settled) server := wp_alone program trivial settled
  refine wp_mono ?_ ?_ ?_ ?_ (wp_and holds leaves)
  · exact fun _ _ => id
  · exact fun _ _ _ _ => id
  · exact fun _ _ _ _ _ _ => trivial
  · exact fun _ _ both => ⟨both.1, both.2.2⟩

/-- Releasing an object that was just read leaves everything tidy, and a terminating one in an area
is gone. -/
theorem wp_removeFinalizer_tidy (tidy : areas.Tidy server) {api : DynamicApi} {name : String}
    {source : DynamicObject} {stored : Stored} (named : source.metadata.nameAny = name)
    (found : server.objects (api.key name) = some stored)
    (same : source.metadata.finalizers = stored.object.metadata.finalizers) :
    (removeFinalizer api source finalizer).wp (alone maker cache fun _ => True)
      (fun _ after => areas.Tidy after ∧ after.syncs = server.syncs) server := by
  refine wp_imp ?_ (wp_settled tidy.settled (wp_removeFinalizer_alone named found same))
  rintro value after ⟨⟨-, agree, released, kept⟩, settled⟩
  refine ⟨tidy.shrunk agree settled ?_, agree.syncs⟩
  by_cases carries : finalizer ∈ stored.object.metadata.finalizerList
  · exact ((released carries).lacks found).2
  · rw [kept carries]
    exact .of_eq rfl

/-- Deleting destinations in an area removes their objects. -/
theorem wp_deleteDestinations_tidy (tidy : areas.Tidy server)
    (destinations : List DestinationStatus) (inside : ∀ d ∈ destinations, areas.holds o d.key) :
    (deleteDestinations destinations).wp (alone maker cache fun _ => True)
      (fun result after => result = .ok [] ∧ areas.Tidy after ∧ after.syncs = server.syncs ∧
        ∀ d ∈ destinations, after.objects d.key = none) server := by
  refine wp_imp ?_ (wp_settled tidy.settled (wp_deleteDestinations_alone destinations))
  rintro result after ⟨⟨succeeded, clears⟩, settled⟩
  have gone (d : DestinationStatus) (member : d ∈ destinations) : after.objects d.key = none :=
    (clears.cleared d.key (List.mem_map_of_mem member)).eq_none settled
      fun stored found => tidy.owned o d.key stored (inside d member) found
  refine ⟨succeeded, tidy.step clears.agree.syncs settled ?_, clears.agree.syncs, gone⟩
  intro o' key stored inside' found
  by_cases member : key ∈ destinations.map (·.key)
  · obtain ⟨d, listed, rfl⟩ := List.mem_map.mp member
    rw [gone d listed] at found
    cases found
  · rw [clears.agree.objects key member] at found
    exact ⟨(tidy.covers o').all key stored inside' found,
      tidy.owned o' key stored inside' found⟩

/-! ## Creating and updating -/

/-- A written object lists at most the finalizer and those it had. -/
theorem owned_write {change : DynamicObject → DynamicObject}
    {keeps : ∀ object, (change object).metadata.name = object.metadata.name ∧
      (change object).metadata.namespace_ = object.metadata.namespace_}
    (lists : ∀ object, ∀ f ∈ (change object).metadata.finalizerList,
      f = finalizer ∨ f ∈ object.metadata.finalizerList)
    (own : ∀ stored, server.objects key = some stored →
      ∀ f ∈ stored.object.metadata.finalizerList, f = finalizer)
    (wrote : server.write key change keeps = after) :
    ∀ stored, after.objects key = some stored →
      ∀ f ∈ stored.object.metadata.finalizerList, f = finalizer := by
  intro stored found f member
  rw [← wrote, write_objects, Function.update_self] at found
  obtain ⟨old, present, settles⟩ := Option.bind_eq_some_iff.mp found
  unfold Stored.settled at settles
  split at settles
  · cases settles
  · rw [← Option.some.inj settles] at member
    rcases lists old.object f member with same | former
    · exact same
    · exact own old present f former

/-- A created object lists the finalizers of its body. -/
theorem owned_create {choice : Choice} {api : DynamicApi} {name : String} {body : DynamicObject}
    (finalizers : body.metadata.finalizers = some [finalizer])
    (wrote : (server.create maker choice api name body).2 = after) :
    ∀ stored, after.objects (api.key name) = some stored →
      ∀ f ∈ stored.object.metadata.finalizerList, f = finalizer := by
  intro stored found f member
  rw [← wrote, create_objects, Function.update_self] at found
  rw [← Option.some.inj found] at member
  have inside : f ∈ body.metadata.finalizerList := member
  rw [ObjectMeta.finalizerList, finalizers] at inside
  exact List.mem_singleton.mp inside

/-- An object to which a configuration with the finalizer was applied lists that and those it had.
-/
theorem mem_finalizerList_applied {choice : Choice} {object body : DynamicObject} {f : String}
    (finalizers : body.metadata.finalizers = some [finalizer])
    (member : f ∈ (choice.applied object body).metadata.finalizerList) :
    f = finalizer ∨ f ∈ object.metadata.finalizerList := by
  have inside : f ∈ (choice.applied object body).metadata.finalizers.getD [] := member
  unfold Choice.applied at inside
  rw [finalizers] at inside
  cases former : object.metadata.finalizers with
  | none =>
    rw [former] at inside
    exact .inl (List.mem_singleton.mp inside)
  | some finalizers' =>
    rw [former, Option.getD_some, List.mem_append, List.mem_filter] at inside
    rcases inside with kept | added
    · refine .inr ?_
      rw [ObjectMeta.finalizerList, former]
      exact kept
    · exact .inl (List.mem_singleton.mp added.1)

/-- What is written with the finalizer of the controller alone is owned, if it was before. -/
theorem owned_of_written {request : ApiRequest} {reply : Except KubeError (ApiValue request)}
    {api : DynamicApi} {body : DynamicObject} (served : Served maker server request reply after)
    (written : (Call.api request).written = some (api, body))
    (target : request.target = some key) (finalizers : body.metadata.finalizers = some [finalizer])
    (own : ∀ stored, server.objects key = some stored →
      ∀ f ∈ stored.object.metadata.finalizerList, f = finalizer) :
    ∀ stored, after.objects key = some stored →
      ∀ f ∈ stored.object.metadata.finalizerList, f = finalizer := by
  obtain ⟨choice, eq⟩ := served
  have left : (server.serve maker choice request).2 = after := congrArg Prod.snd eq
  cases request with
  | create target' body' =>
    obtain ⟨rfl, rfl⟩ := Prod.mk.inj (Option.some.inj written)
    obtain rfl := Option.some.inj target
    simp only [serve] at left
    split at left
    · exact left ▸ own
    · exact owned_create finalizers left
  | replace target' name body' =>
    obtain ⟨rfl, rfl⟩ := Prod.mk.inj (Option.some.inj written)
    obtain rfl := Option.some.inj target
    simp only [serve] at left
    split at left
    · exact left ▸ own
    · split at left
      · exact left ▸ own
      · refine @owned_write _ _ _ (choice.replaced · body') (fun _ => ⟨rfl, rfl⟩)
          (fun object f member => .inl ?_) own left
        have inside : f ∈ body'.metadata.finalizers.getD [] := member
        rw [finalizers] at inside
        exact List.mem_singleton.mp inside
  | apply target' name body' =>
    obtain ⟨rfl, rfl⟩ := Prod.mk.inj (Option.some.inj written)
    obtain rfl := Option.some.inj target
    simp only [serve] at left
    split at left
    · split at left
      · exact left ▸ own
      · exact owned_create finalizers left
    · split at left
      · exact left ▸ own
      · exact @owned_write _ _ _ (choice.applied · body') (fun _ => ⟨rfl, rfl⟩)
          (fun object f member => mem_finalizerList_applied finalizers member) own left
  | get target' name => cases written
  | jsonPatch target' name patch => cases written
  | delete target' name => cases written
  | getSync name => cases written
  | getSyncStatus name => cases written
  | replaceSyncStatus name body' => cases written
  | jsonPatchSync name patch => cases written
  | discoverGroup group => cases written

/-- Writing a tracked place with the finalizer of the controller alone leaves everything tidy. -/
theorem Areas.Tidy.written (tidy : areas.Tidy server) {request : ApiRequest}
    {reply : Except KubeError (ApiValue request)} {api : DynamicApi} {body : DynamicObject}
    (served : Served maker server request reply after)
    (written : (Call.api request).written = some (api, body))
    (target : request.target = some key) (finalizers : body.metadata.finalizers = some [finalizer])
    (inside : areas.holds o key) (listed : key ∈ (server.tracked o).map (·.key)) :
    areas.Tidy after ∧ after.syncs = server.syncs := by
  have effect : Effect maker server request after := Faulty.effect (.served served)
  have noSync : request.syncTarget = none := by
    cases request <;> first | rfl | cases written
  have agree := effect.agree noSync
  refine ⟨tidy.step agree.syncs (effect.settled tidy.settled) ?_, agree.syncs⟩
  intro o' other stored inside' found
  by_cases same : other = key
  · subst same
    obtain rfl := areas.apart inside inside'
    exact ⟨listed, owned_of_written served written target finalizers
      (fun stored' => tidy.owned o other stored' inside) stored found⟩
  · have unchanged : after.objects other = server.objects other :=
      effect.objects_eq fun hit => same (Option.some.inj (hit.symm.trans target))
    rw [unchanged] at found
    exact ⟨(tidy.covers o').all other stored inside' found,
      tidy.owned o' other stored inside' found⟩

/-- A destination in its area that is tracked, before an attempt to create or update it. -/
structure Areas.Upserting (areas : Areas) (o : ObjectSyncRef) (api : DynamicApi)
    (d : DestinationStatus) (state : ResourceControllerImpl.UpsertState) (server : Server) :
    Prop where
  tidy : areas.Tidy server
  inside : areas.holds o (api.key d.name)
  listed : api.key d.name ∈ (server.tracked o).map (·.key)
  finalizers : state.template.metadata.finalizers = some [finalizer]
  named : state.template.metadata.nameAny = d.name

/-- What work on a destination leaves: the same situation, with the ObjectSyncs as they were. -/
structure Areas.Upserted (areas : Areas) (o : ObjectSyncRef) (api : DynamicApi)
    (d : DestinationStatus) (server : Server)
    (value : DestinationStatus × ResourceControllerImpl.UpsertState) (after : Server) : Prop where
  upserting : areas.Upserting o api value.1 value.2 after
  syncs : after.syncs = server.syncs
  target : value.1.target = d.target

section Upserting

variable {api : DynamicApi} {d : DestinationStatus} {state : ResourceControllerImpl.UpsertState}
  {srcVersion : ObjectRevision}

/-- The destination is tracked as long as the ObjectSyncs are as they were. -/
theorem Areas.Upserting.later (upserting : areas.Upserting o api d state server)
    (tidy : areas.Tidy after) (syncs : after.syncs = server.syncs) :
    areas.Upserting o api d state after := by
  refine ⟨tidy, upserting.inside, ?_, upserting.finalizers, upserting.named⟩
  rw [Server.tracked_of_eq (congrFun syncs o.name)]
  exact upserting.listed

/-- Only the revisions in an entry and in the template change. -/
theorem Areas.Upserting.revised (upserting : areas.Upserting o api d state server)
    {d' : DestinationStatus} {state' : ResourceControllerImpl.UpsertState} (name : d'.name = d.name)
    (finalizers : state'.template.metadata.finalizers = state.template.metadata.finalizers)
    (named : state'.template.metadata.nameAny = state.template.metadata.nameAny) :
    areas.Upserting o api d' state' server := by
  refine ⟨upserting.tidy, ?_, ?_, finalizers.trans upserting.finalizers, ?_⟩
  · rw [name]
    exact upserting.inside
  · rw [name]
    exact upserting.listed
  · rw [named, name]
    exact upserting.named

/-- Writing the destination keeps everything tidy. -/
theorem Areas.Upserting.served (upserting : areas.Upserting o api d state server)
    {request : ApiRequest} {reply : Except KubeError (ApiValue request)} {body : DynamicObject}
    (served : Served maker server request reply after)
    (written : (Call.api request).written = some (api, body))
    (target : request.target = some (api.key d.name))
    (finalizers : body.metadata.finalizers = some [finalizer]) :
    areas.Upserting o api d state after ∧ after.syncs = server.syncs := by
  obtain ⟨tidy, syncs⟩ :=
    upserting.tidy.written served written target finalizers upserting.inside upserting.listed
  exact ⟨upserting.later tidy syncs, syncs⟩

/-- Updating a destination keeps everything tidy. -/
theorem wp_updateExisting_tidy {current : DynamicObject}
    (upserting : areas.Upserting o api d state server) :
    (ResourceControllerImpl.updateExisting api srcVersion current d state).wp
      (alone maker cache fun _ => True)
      (fun value after => areas.Upserted o api d server (value.1, value.2.1) after) server := by
  unfold ResourceControllerImpl.updateExisting
  dsimp only
  split
  · have fitted := @Areas.Upserting.revised _ _ _ _ _ _ upserting d
      { state with
        template := ResourceControllerImpl.withRevision state.template current.metadata.revision }
      rfl rfl rfl
    cases d.effectiveStrategy <;> dsimp only <;> rw [wp_api] <;>
      rintro _ rfl reply after ⟨served, -⟩
    all_goals
      obtain ⟨kept, syncs⟩ := fitted.served served rfl rfl fitted.finalizers
      refine ⟨trivial, ?_⟩
      cases reply with
      | ok updated => exact ⟨kept.revised rfl rfl rfl, syncs, rfl⟩
      | error e =>
        dsimp only
        split <;> exact ⟨kept, syncs, rfl⟩
  · exact ⟨upserting.revised rfl rfl rfl, rfl, rfl⟩

/-- Creating a destination keeps everything tidy. -/
theorem wp_createMissing_tidy (upserting : areas.Upserting o api d state server) :
    (ResourceControllerImpl.createMissing api srcVersion d state).wp
      (alone maker cache fun _ => True)
      (fun value after => areas.Upserted o api d server (value.1, value.2.1) after) server := by
  unfold ResourceControllerImpl.createMissing
  rw [wp_api]
  rintro _ rfl reply after ⟨served, -⟩
  have target : (ApiRequest.create api state.template).target = some (api.key d.name) :=
    congrArg (fun name => some (api.key name)) upserting.named
  obtain ⟨kept, syncs⟩ := upserting.served served rfl target upserting.finalizers
  refine ⟨trivial, ?_⟩
  cases reply with
  | ok created => exact ⟨kept.revised rfl rfl rfl, syncs, rfl⟩
  | error e =>
    dsimp only
    split <;> exact ⟨kept, syncs, rfl⟩

/-- An attempt to create or update a copy keeps the areas tidy. -/
theorem wp_upsertAttempt_tidy (upserting : areas.Upserting o api d state server) :
    (ResourceControllerImpl.upsertAttempt api srcVersion d state).wp
      (alone maker cache fun _ => True)
      (fun value after => areas.Upserted o api d server (value.1, value.2.1) after) server := by
  unfold ResourceControllerImpl.upsertAttempt
  have reset := @Areas.Upserting.revised _ _ _ _ _ _ upserting d
    { state with template := ResourceControllerImpl.withRevision state.template ⟨none, none⟩ }
    rfl rfl rfl
  dsimp only
  cases found : server.objects (api.key d.name) with
  | none =>
    have served (choice : Choice) : server.serve maker choice (.get api d.name) =
        (.error (.api 404 "not found"), server) := by simp only [serve, found]
    refine wp_served served fun choice _ => ?_
    exact wp_createMissing_tidy reset
  | some stored =>
    have served (choice : Choice) : server.serve maker choice (.get api d.name) =
        (.ok stored.object, server) := by simp only [serve, found]
    refine wp_served served fun choice _ => ?_
    dsimp only
    split
    · have named : stored.object.metadata.nameAny = d.name := by
        rw [ObjectMeta.nameAny, (server.named found).1]
        rfl
      rw [wp_bind]
      refine wp_imp ?_ (wp_removeFinalizer_tidy upserting.tidy named found rfl)
      rintro value middle ⟨tidy, syncs⟩
      have kept := reset.later tidy syncs
      split
      · exact ⟨kept, syncs, rfl⟩
      · refine wp_imp ?_ (wp_updateExisting_tidy kept)
        exact fun _ _ done => ⟨done.upserting, done.syncs.trans syncs, done.target⟩
    · exact wp_updateExisting_tidy reset

/-- All attempts to create or update a copy keep the areas tidy. -/
theorem wp_upsertLoop_tidy (attempts : Nat) (upserting : areas.Upserting o api d state server) :
    (ResourceControllerImpl.upsertLoop api srcVersion attempts d state).wp
      (alone maker cache fun _ => True)
      (fun value after => areas.Upserted o api d server value after) server := by
  induction attempts generalizing d state server with
  | zero => exact ⟨upserting, rfl, rfl⟩
  | succ attempts ih =>
    rw [ResourceControllerImpl.upsertLoop, wp_bind]
    refine wp_imp ?_ (wp_upsertAttempt_tidy upserting)
    rintro ⟨d', state', flow⟩ middle first
    cases flow with
    | continue_ =>
      refine wp_imp ?_ (ih first.upserting)
      exact fun _ _ rest =>
        ⟨rest.upserting, rest.syncs.trans first.syncs, rest.target.trans first.target⟩
    | break_ => exact first

end Upserting

/-- Creating and updating tracked destinations keeps everything tidy. -/
theorem wp_upsertDestinations_tidy (self : ResourceControllerImpl) {source : DynamicObject}
    {destinations : List DestinationStatus} (tidy : areas.Tidy server)
    (writes : ∀ d ∈ destinations, (self.namespacedApi d.namespace_).key d.name = d.key ∧
      areas.holds o d.key ∧ d.key ∈ (server.tracked o).map (·.key)) :
    (self.upsertDestinations source destinations []).wp (alone maker cache fun _ => True)
      (fun value after => areas.Tidy after ∧ after.syncs = server.syncs ∧
        value.1.map (·.target) = destinations.map (·.target)) server := by
  unfold ResourceControllerImpl.upsertDestinations
  dsimp only
  rw [wp_bind]
  refine wp_imp ?_ (@ResourceControllerImpl.wp_upsertEach_loop source.metadata.revision _ _
    (fun handled todo _ now => areas.Tidy now ∧ now.syncs = server.syncs ∧
      (handled ++ todo).map (·.target) = destinations.map (·.target) ∧ todo ⊆ destinations)
    self [] ?_ ?_ [] destinations ⟨ResourceControllerImpl.sourceTemplate source, false, 0⟩ server
    ⟨tidy, rfl, rfl, List.Subset.refl _⟩)
  · rintro value after ⟨tidy', syncs, targets, -⟩
    rw [List.nil_append, List.append_nil] at targets
    exact ⟨tidy', syncs, targets⟩
  · intro handled d todo state now remnant
    cases remnant
  · rintro handled d todo state now - ⟨tidy', syncs, targets, fewer⟩
    obtain ⟨designates, inside, listed⟩ := writes d (fewer List.mem_cons_self)
    have upserting : areas.Upserting o (self.namespacedApi d.namespace_) d
        { state with template := ResourceControllerImpl.fitTemplate state.template d } now := by
      refine ⟨tidy', ?_, ?_, rfl, rfl⟩
      · rw [designates]
        exact inside
      · rw [designates, Server.tracked_of_eq (congrFun syncs o.name)]
        exact listed
    refine wp_imp ?_ (wp_upsertLoop_tidy 3 upserting)
    intro value after upserted
    refine ⟨upserted.upserting.tidy, upserted.syncs.trans syncs, ?_,
      fun other member => fewer (List.mem_cons_of_mem _ member)⟩
    rw [← targets]
    simp [upserted.target]

/-! ## Reconciling and deleting an ObjectSync -/

/-- What work for one ObjectSync leaves: everything is tidy, and the other ObjectSyncs are as they
were. -/
structure Areas.Kept (areas : Areas) (o : ObjectSyncRef) (before after : Server) : Prop where
  tidy : areas.Tidy after
  others : ∀ name, name ≠ o.name → after.syncs name = before.syncs name

/-- Step by step everything is kept. -/
theorem Areas.Kept.trans (first : areas.Kept o server middle) (second : areas.Kept o middle after) :
    areas.Kept o server after :=
  ⟨second.tidy, fun name other => (second.others name other).trans (first.others name other)⟩

/-- A step that writes no ObjectSync. -/
theorem Areas.Kept.of_syncs (tidy : areas.Tidy after) (same : after.syncs = server.syncs) :
    areas.Kept o server after :=
  ⟨tidy, fun name _ => congrFun same name⟩

/-- Persisting destinations that cover the area keeps everything. -/
theorem Areas.Kept.written {event event' : ObjectSyncModifications} (tidy : areas.Tidy server)
    (write : WritesStatus o event event' server after)
    (covers : areas.Covers o server event.modified.destinationList) :
    areas.Kept o server after ∧ after.tracked o = event.modified.destinationList := by
  have persisted : event'.original.destinationList = event.modified.destinationList :=
    ObjectSync.destinationList_eq_of_status write.persisted
  rw [← persisted] at covers ⊢
  exact ⟨⟨tidy.persisted write.agree write.inStep.found write.inStep.present covers,
    write.agree.syncs⟩, Server.tracked_of_found write.inStep.found⟩

/-- Steps 3 and 4 of `reconcile_source` keep everything tidy. -/
theorem wp_syncDestinations_tidy (self : ResourceControllerImpl) {event : ObjectSyncModifications}
    {source : DynamicObject} (removedCount : Nat) (tidy : areas.Tidy server)
    (inStep : InStep o event server) (tracked : server.tracked o = event.modified.destinationList)
    (designates : ∀ d ∈ event.modified.destinationList,
      (self.namespacedApi d.namespace_).key d.name = d.key) :
    (self.syncDestinations event source [] removedCount).wp (alone maker cache fun _ => True)
      (fun _ after => areas.Kept o server after) server := by
  have covers := tidy.covers o
  rw [tracked] at covers
  unfold ResourceControllerImpl.syncDestinations
  cases listed : event.modified.statusDestinations with
  | none => exact .of_syncs tidy rfl
  | some destinations =>
    have same : event.modified.destinationList = destinations :=
      ObjectSync.destinationList_of_tracked listed
    rw [same] at tracked designates covers
    dsimp only
    rw [wp_bind]
    refine wp_imp ?_ (wp_upsertDestinations_tidy self tidy fun d member =>
      ⟨designates d member, covers.within d member, ?_⟩)
    · rintro ⟨upserted, updated, expected, observed⟩ middle ⟨tidy', syncs, targets⟩
      have kept : areas.Kept o server middle := .of_syncs tidy' syncs
      dsimp only at targets ⊢
      split
      · have inStep' : InStep o (event.updateDestinations upserted) middle := by
          have later : InStep o event middle := ⟨syncs ▸ inStep.found, inStep.kept, inStep.present⟩
          exact later.modify fun sync => rfl
        rw [wp_bind]
        refine wp_imp ?_ (wp_updateCondition_alone inStep' _)
        rintro event' _ ⟨rfl, inStep'', -, unchanged⟩
        refine wp_imp ?_ (wp_replaceStatus_alone inStep'')
        rintro value after ⟨-, write⟩
        refine kept.trans (Areas.Kept.written tidy' write ?_).1
        have relisted : event'.modified.destinationList = upserted :=
          unchanged.trans (ObjectSync.updateDestinations_destinationList ..)
        have keys : upserted.map (·.key) = destinations.map (·.key) := by
          have mapped := congrArg (List.map (·.key)) targets
          simpa [List.map_map, Function.comp_def] using mapped
        have covers' := tidy'.covers o
        rw [Server.tracked_of_eq (congrFun syncs o.name), tracked] at covers'
        rw [relisted]
        refine ⟨fun d member => ?_, fun key stored inside found => ?_⟩
        · have known : d.key ∈ destinations.map (·.key) := keys ▸ List.mem_map_of_mem member
          obtain ⟨d', member', same'⟩ := List.mem_map.mp known
          exact same' ▸ covers'.within d' member'
        · rw [keys]
          exact covers'.all key stored inside found
      · exact kept
    · rw [tracked]
      exact List.mem_map_of_mem member

/-- `reconcile_source` keeps everything tidy, when the expected destinations are in the area of the
ObjectSync. -/
theorem wp_reconcileSource_tidy (self : ResourceControllerImpl) {sync : ObjectSync}
    {source : DynamicObject} (tidy : areas.Tidy server) (found : server.syncs o.name = some sync)
    (within : ∀ target ∈ ResourceControllerImpl.expectedDestinations sync cache,
      areas.holds o (self.expectedStatus target).key) :
    (self.reconcileSource (.new sync) source).wp (alone maker cache fun _ => True)
      (fun _ after => areas.Kept o server after) server := by
  have inStep := inStep_new found (tidy.present _ _ found)
  have tracked := Server.tracked_of_found found
  unfold ResourceControllerImpl.reconcileSource
  refine wp_namespaces_alone ?_
  have modified : (ObjectSyncModifications.new sync).modified = sync := rfl
  rw [modified]
  have designated (d : DestinationStatus) :=
    @ResourceControllerImpl.exists_target_of_mem_expected self
      (ResourceControllerImpl.expectedDestinations sync cache) sync.destinationList d
  have known (d : DestinationStatus) :=
    @ResourceControllerImpl.mem_stale_or_expected self
      (ResourceControllerImpl.expectedDestinations sync cache) sync.destinationList d
  have recorded (d : DestinationStatus) :=
    @ResourceControllerImpl.mem_recorded_of_mem_stale self
      (ResourceControllerImpl.expectedDestinations sync cache) sync.destinationList d
  generalize self.splitDestinations (ResourceControllerImpl.expectedDestinations sync cache)
    sync.destinationList = split_ at *
  obtain ⟨expected, stale⟩ := split_
  dsimp only at designated known recorded ⊢
  have covers := tidy.covers o
  rw [tracked] at covers
  rw [wp_bind]
  refine wp_imp ?_ (wp_deleteDestinations_tidy tidy stale fun d member =>
    covers.within d (recorded d member))
  rintro _ middle ⟨rfl, tidy', syncs, gone⟩
  have kept : areas.Kept o server middle := .of_syncs tidy' syncs
  dsimp only
  rw [wp_bind]
  have inStep' : InStep o ((ObjectSyncModifications.new sync).updateDestinations
      (ResourceControllerImpl.sortDestinations (expected ++ []))) middle := by
    have later : InStep o (.new sync) middle := ⟨syncs ▸ found, rfl, inStep.present⟩
    exact later.modify fun sync => rfl
  refine wp_imp ?_ (wp_replaceStatus_alone inStep')
  rintro ⟨event, result⟩ written ⟨ok, write⟩
  obtain rfl : result = .ok () := ok
  have relisted : ((ObjectSyncModifications.new sync).updateDestinations
      (ResourceControllerImpl.sortDestinations (expected ++ []))).modified.destinationList =
        ResourceControllerImpl.sortDestinations (expected ++ []) :=
    ObjectSync.updateDestinations_destinationList ..
  have wanted (d : DestinationStatus) :
      d ∈ ResourceControllerImpl.sortDestinations (expected ++ []) ↔ d ∈ expected := by
    rw [(ResourceControllerImpl.sortDestinations_perm _).mem_iff, List.append_nil]
  have covers' : areas.Covers o middle
      (ResourceControllerImpl.sortDestinations (expected ++ [])) := by
    refine ⟨fun d member => ?_, fun key stored inside there => ?_⟩
    · obtain ⟨target, listed, same⟩ := designated d ((wanted d).mp member)
      have inside := within target listed
      rw [same] at inside
      exact inside
    · -- What was tracked is still expected, as all stale objects are gone.
      have covers' := tidy'.covers o
      rw [Server.tracked_of_eq (congrFun syncs o.name), tracked] at covers'
      obtain ⟨d, member, same⟩ := List.mem_map.mp (covers'.all key stored inside there)
      subst same
      have expected_ := (known d member).resolve_left fun listed => by
        rw [gone d listed] at there
        cases there
      obtain ⟨d', member', same⟩ := List.mem_map.mp expected_
      rw [← same]
      exact List.mem_map_of_mem ((wanted d').mpr member')
  rw [← relisted] at covers'
  obtain ⟨kept', tracked'⟩ := Areas.Kept.written tidy' write covers'
  dsimp only at kept' ⊢
  refine wp_imp (fun _ _ last => (kept.trans kept').trans last)
    (wp_syncDestinations_tidy self _ kept'.tidy write.inStep ?_ fun d member => ?_)
  · rw [tracked']
    exact (ObjectSync.destinationList_eq_of_status write.same).symm
  · rw [ObjectSync.destinationList_eq_of_status write.same, relisted, wanted] at member
    obtain ⟨target, -, same⟩ := designated d member
    exact ResourceControllerImpl.namespacedApi_key same

/-- Deleting all destinations of an ObjectSync empties its area. -/
theorem wp_withdraw_tidy {event : ObjectSyncModifications} (tidy : areas.Tidy server)
    (inStep : InStep o event server) (status : event.original.status = event.modified.status) :
    (ObjectSyncController.deleteDestinations event).wp (alone maker cache fun _ => True)
      (fun value after => value.2 = .ok () ∧ areas.Kept o server after ∧ after.tracked o = [] ∧
        InStep o value.1 after ∧ value.1.modified.destinationList = []) server := by
  have tracked : server.tracked o = event.modified.destinationList :=
    (Server.tracked_of_found inStep.found).trans (ObjectSync.destinationList_eq_of_status status)
  have covers := tidy.covers o
  rw [tracked] at covers
  unfold ObjectSyncController.deleteDestinations
  cases listed : event.modified.statusDestinations with
  | none =>
    have empty : event.modified.destinationList = [] := by
      rw [ObjectSync.destinationList, listed, Option.getD_none]
    exact ⟨rfl, .of_syncs tidy rfl, tracked.trans empty, inStep, empty⟩
  | some destinations =>
    have same : event.modified.destinationList = destinations :=
      ObjectSync.destinationList_of_tracked listed
    rw [same] at tracked covers
    dsimp only
    rw [wp_bind]
    refine wp_imp ?_ (wp_deleteDestinations_tidy tidy destinations covers.within)
    rintro _ middle ⟨rfl, tidy', syncs, gone⟩
    have kept : areas.Kept o server middle := .of_syncs tidy' syncs
    have inStep' : InStep o event middle := ⟨syncs ▸ inStep.found, inStep.kept, inStep.present⟩
    dsimp only
    rw [wp_bind]
    refine wp_imp ?_ (wp_updateCondition_alone inStep' _)
    rintro event' now ⟨rfl, inStep'', -, -⟩
    have relisted : (event'.updateDestinations []).modified.destinationList = [] :=
      ObjectSync.updateDestinations_destinationList ..
    rw [wp_bind]
    have emptying : InStep o (event'.updateDestinations []) now :=
      inStep''.modify fun sync => rfl
    refine wp_imp ?_ (wp_replaceStatus_alone emptying)
    rintro ⟨event'', result⟩ after ⟨ok, write⟩
    obtain rfl : result = .ok () := ok
    have covers' := tidy'.covers o
    rw [Server.tracked_of_eq (congrFun syncs o.name), tracked] at covers'
    have emptied : areas.Covers o now (event'.updateDestinations []).modified.destinationList := by
      rw [relisted]
      refine ⟨fun d member => absurd member List.not_mem_nil, fun key stored inside there => ?_⟩
      obtain ⟨d, member, same'⟩ := List.mem_map.mp (covers'.all key stored inside there)
      rw [← same', gone d member] at there
      cases there
    obtain ⟨kept', tracked'⟩ := Areas.Kept.written tidy' write emptied
    rw [relisted] at tracked'
    exact ⟨rfl, kept.trans kept', tracked', write.inStep,
      (ObjectSync.destinationList_eq_of_status write.same).trans relisted⟩

/-- Publishing a condition keeps the areas tidy and the tracked destinations. -/
theorem wp_publish_tidy {event : ObjectSyncModifications} (tidy : areas.Tidy server)
    (inStep : InStep o event server) (tracked : server.tracked o = event.modified.destinationList)
    (condition : Condition) :
    (ObjectSyncController.publish event condition).wp (alone maker cache fun _ => True)
      (fun _ after => areas.Kept o server after) server := by
  have covers := tidy.covers o
  rw [tracked] at covers
  unfold ObjectSyncController.publish
  rw [wp_bind]
  refine wp_imp ?_ (wp_updateCondition_alone inStep condition)
  rintro event' now ⟨rfl, inStep', -, unchanged⟩
  rw [← unchanged] at covers
  refine wp_imp ?_ (wp_replaceStatus_alone inStep')
  rintro value after ⟨-, write⟩
  exact (Areas.Kept.written tidy write covers).1

/-- Releasing the source of an ObjectSync keeps everything. -/
theorem wp_releaseSource_tidy (tidy : areas.Tidy server) (event : ObjectSyncModifications) :
    (ObjectSyncController.releaseSource event).wp (alone maker cache fun _ => True)
      (fun _ after => areas.Tidy after ∧ after.syncs = server.syncs) server := by
  unfold ObjectSyncController.releaseSource
  rw [wp_bind]
  refine wp_imp ?_ (ObjectSyncController.wp_getGvk_alone event.modified.spec.source)
  rintro result now ⟨rfl, -⟩
  cases result with
  | error e => cases e <;> exact ⟨tidy, rfl⟩
  | ok gvk =>
    dsimp only
    generalize (⟨gvk, event.modified.sourceNamespace.getD ""⟩ : DynamicApi) = api
    cases found : now.objects (api.key event.modified.sourceName) with
    | none =>
      have served (choice : Choice) : now.serve maker choice
          (.get api event.modified.sourceName) = (.error (.api 404 "not found"), now) := by
        simp only [serve, found]
      exact wp_served served fun choice _ => ⟨tidy, rfl⟩
    | some stored =>
      have served (choice : Choice) : now.serve maker choice
          (.get api event.modified.sourceName) = (.ok stored.object, now) := by
        simp only [serve, found]
      refine wp_served served fun choice _ => ?_
      have named : (ensureGvk stored.object gvk).metadata.nameAny = event.modified.sourceName := by
        show stored.object.metadata.nameAny = event.modified.sourceName
        rw [ObjectMeta.nameAny, (now.named found).1]
        rfl
      dsimp only
      rw [wp_bind]
      exact wp_imp (fun _ _ kept => kept) (wp_removeFinalizer_tidy tidy named found rfl)

/-- An object as it is in the cache of a resource controller, which may be an old version of it:
when its place is in an area, it is tracked there and had no finalizers of others. -/
structure Areas.Fits (areas : Areas) (server : Server) (key : ObjectKey) (object : DynamicObject) :
    Prop where
  named : object.metadata.name.isSome
  tracked : ∀ o, areas.holds o key → key ∈ (server.tracked o).map (·.key)
  owned : ∀ o, areas.holds o key → ∀ f ∈ object.metadata.finalizerList, f = finalizer

/-- Operations that remove finalizers add none. -/
theorem finalizers_of_removals {index : Nat} {old : List String}
    {current new : Option (List String)}
    (applied : applyFinalizerOps (diffArray index old []) current = some new) :
    new.getD [] ⊆ current.getD [] := by
  induction old generalizing current with
  | nil =>
    obtain rfl : current = new := Option.some.inj applied
    exact List.Subset.refl _
  | cons f old ih =>
    rw [diffArray, applyFinalizerOps] at applied
    obtain ⟨left, removed, rest⟩ := Option.bind_eq_some_iff.mp applied
    cases current with
    | none => cases removed
    | some finalizers =>
      rw [FinalizerOp.apply] at removed
      split at removed
      · obtain rfl := Option.some.inj removed
        exact List.Subset.trans (ih rest) List.eraseIdx_subset
      · cases removed

/-- Releasing an object by an old version of it without other finalizers takes finalizers away
only. -/
theorem shrinks_of_release {api : DynamicApi} {source : DynamicObject}
    {reply : Except KubeError DynamicObject} (carries : finalizer ∈ source.metadata.finalizerList)
    (own : ∀ f ∈ source.metadata.finalizerList, f = finalizer)
    (served : Served maker server (.jsonPatch api source.metadata.nameAny
      (diffFinalizers source.metadata.finalizers
        (some (source.metadata.finalizerList.filter (· != finalizer))))) reply after) :
    Shrinks (api.key source.metadata.nameAny) server after := by
  have emptied : source.metadata.finalizerList.filter (· != finalizer) = [] := by
    refine List.filter_eq_nil_iff.mpr fun f listed => ?_
    rw [own f listed, bne_self_eq_false]
    exact Bool.false_ne_true
  obtain ⟨given, there⟩ : ∃ given, source.metadata.finalizers = some given := by
    cases there : source.metadata.finalizers with
    | some given => exact ⟨given, rfl⟩
    | none =>
      rw [ObjectMeta.finalizerList, there] at carries
      cases carries
  obtain ⟨choice, eq⟩ := served
  have done := congrArg Prod.snd eq
  simp only [serve] at done
  rw [emptied, there] at done
  split at done
  · exact .of_eq (by rw [← done])
  · rename_i old was
    split at done
    · exact .of_eq (by rw [← done])
    · rename_i finalizers applied
      intro later found
      rw [← done, write_objects, Function.update_self, was, Option.bind_some] at found
      unfold Stored.settled at found
      split at found
      · cases found
      · refine ⟨old, was, ?_⟩
        rw [← Option.some.inj found]
        exact finalizers_of_removals applied

/-- Releasing an object of a cache keeps everything. -/
theorem wp_removeFinalizer_cached (tidy : areas.Tidy server) {api : DynamicApi}
    {source : DynamicObject} (own : ∀ o, areas.holds o (api.key source.metadata.nameAny) →
      ∀ f ∈ source.metadata.finalizerList, f = finalizer) :
    (removeFinalizer api source finalizer).wp (alone maker cache fun _ => True)
      (fun _ after => areas.Tidy after ∧ after.syncs = server.syncs) server := by
  by_cases carries : finalizer ∈ source.metadata.finalizerList
  · rw [removeFinalizer_of_mem carries, wp_api]
    rintro _ rfl reply after ⟨served, -⟩
    have effect : Effect maker server _ after := Faulty.effect (.served served)
    have settled := effect.settled tidy.settled
    have agree := effect.agree rfl
    have elsewhere (key : ObjectKey) (other : key ≠ api.key source.metadata.nameAny) :
        after.objects key = server.objects key :=
      agree.objects key fun hit => other (Option.some.inj hit).symm
    have left : areas.Tidy after := by
      by_cases inside : ∃ o, areas.holds o (api.key source.metadata.nameAny)
      · obtain ⟨o, inside⟩ := inside
        have shrinks := shrinks_of_release carries (own o inside) served
        exact tidy.shrunk ⟨elsewhere, agree.syncs, agree.apis⟩ settled shrinks
      · refine tidy.elsewhere agree.syncs settled fun o key held => elsewhere key ?_
        rintro rfl
        exact inside ⟨o, held⟩
    refine ⟨trivial, ?_⟩
    cases reply with
    | ok value => exact ⟨left, agree.syncs⟩
    | error e =>
      dsimp only
      split <;> exact ⟨left, agree.syncs⟩
  · rw [removeFinalizer_of_not_mem carries]
    exact ⟨tidy, rfl⟩

/-- Marking an object of a cache as a source keeps everything. -/
theorem wp_addFinalizerIfMissing_tidy (tidy : areas.Tidy server) {api : DynamicApi}
    {source : DynamicObject} (named : source.metadata.name.isSome)
    (tracked : ∀ o, areas.holds o (api.key source.metadata.nameAny) →
      api.key source.metadata.nameAny ∈ (server.tracked o).map (·.key)) :
    (addFinalizerIfMissing api source finalizer).wp (alone maker cache fun _ => True)
      (fun _ after => areas.Tidy after ∧ after.syncs = server.syncs) server := by
  have sameName : (finalizerPatch source finalizer).metadata.nameAny = source.metadata.nameAny := by
    obtain ⟨name, given⟩ := Option.isSome_iff_exists.mp named
    simp [ObjectMeta.nameAny, finalizerPatch, given]
  unfold addFinalizerIfMissing
  split
  · exact ⟨tidy, rfl⟩
  · dsimp only
    rw [sameName, wp_api]
    rintro _ rfl reply after ⟨served, -⟩
    have left : areas.Tidy after ∧ after.syncs = server.syncs := by
      by_cases inside : ∃ o, areas.holds o (api.key source.metadata.nameAny)
      · obtain ⟨o, inside⟩ := inside
        exact tidy.written served rfl rfl rfl inside (tracked o inside)
      · have effect : Effect maker server _ after := Faulty.effect (.served served)
        have agree := effect.agree rfl
        refine ⟨tidy.elsewhere agree.syncs (effect.settled tidy.settled) ?_, agree.syncs⟩
        intro o key held
        refine agree.objects key fun hit => inside ⟨o, ?_⟩
        rw [← Option.some.inj hit] at held
        exact held
    refine ⟨trivial, ?_⟩
    cases reply <;> exact left

end Tidy

end ObjectSyncer
