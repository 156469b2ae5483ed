import Mathlib.Data.List.Dedup
import ObjectSyncer.Collections.Splitting
import ObjectSyncer.TargetNamespaces
import ObjectSyncer.Template
import ObjectSyncer.Watch

/-!
# Copies lead back to their source

A resource controller watches the copies it has written, by their label and in the target
namespaces, and reads the source that is to be reconciled off their annotation. The annotation joins
a namespace and a name, which the watch takes apart again.
-/
namespace ObjectSyncer

open Collections Interaction Interaction.Program

namespace ResourceControllerImpl

/-- `ResourceControllerImpl::api`: the namespace that lists and watches are limited to, if there is
exactly one. -/
def api (namespaces : Option (List String)) : Option String :=
  match namespaces.map List.dedup with
  | some [ns] => some ns
  | _ => none

/-- Whether an object lies in what `api` lists. -/
def listed (namespaces : Option (List String)) (object : DynamicObject) : Bool :=
  match api namespaces with
  | some ns => object.metadata.namespace_ == some ns
  | none => true

/-- The label selector of the destination watch of `start`. -/
def managed (object : DynamicObject) : Bool :=
  (object.metadata.labels.getD []).lookup "app.kubernetes.io/managed-by" == some manager

/-- The destination watch of `start`: what an event of an object of the kind triggers. -/
def destinationWatch (self : ResourceControllerImpl) (rs : DynamicObject) : Option ObjectRef :=
  if listed self.configuration.targetNamespaces rs && managed rs then self.destinationMapper rs
  else none

/-- A single target namespace is the one that is listed. -/
theorem api_eq_some_iff {namespaces : Option (List String)} {ns : String} :
    api namespaces = some ns ↔ ∃ names, namespaces = some names ∧ names.dedup = [ns] := by
  unfold api
  cases namespaces with
  | none => simp
  | some names =>
    cases unique : names.dedup with
    | nil => simp [unique]
    | cons first rest => cases rest <;> simp [unique]

/-- What is not listed is in none of the namespaces. -/
theorem listed_of_mem {namespaces : Option (List String)} {object : DynamicObject}
    {namespace_ : String} (inside : object.metadata.namespace_ = some namespace_)
    (member : ∀ names, namespaces = some names → namespace_ ∈ names) :
    listed namespaces object = true := by
  unfold listed
  cases single : api namespaces with
  | none => rfl
  | some ns =>
    obtain ⟨names, given, unique⟩ := api_eq_some_iff.mp single
    have same : namespace_ = ns := by
      have kept := List.mem_dedup.mpr (member names given)
      rw [unique] at kept
      simpa using kept
    simp [inside, same]

/-- Listing a single target namespace drops no event of a target namespace. -/
theorem listed_of_isTargetNamespace {self : ResourceControllerImpl} {rs : DynamicObject}
    {namespace_ : String} (inside : rs.metadata.namespace_ = some namespace_)
    (target : self.isTargetNamespace namespace_ = true) :
    listed self.configuration.targetNamespaces rs = true := by
  apply listed_of_mem inside
  intro names given
  unfold isTargetNamespace at target
  rw [given] at target
  simpa using target

/-- The mapper reads a source off an annotation that joins its namespace and its name, unless its
namespace has a slash or its name is empty. -/
theorem destinationMapper_eq_some_iff {self : ResourceControllerImpl} {rs : DynamicObject}
    {name : NamespacedName} {namespace_ : String}
    (inside : rs.metadata.namespace_ = some namespace_)
    (annotated : (rs.metadata.annotations.getD []).lookup sourceObjectAnnotation =
      some (name.namespace_ ++ "/" ++ name.name)) :
    self.destinationMapper rs = some (name.objectRef self.gvk) ↔
      self.isTargetNamespace namespace_ = true ∧ '/' ∉ name.namespace_.toList ∧ name.name ≠ "" := by
  have slash : "/" = String.singleton '/' := rfl
  unfold destinationMapper
  rw [annotated, inside, Option.getD_some]
  dsimp only
  constructor
  · intro mapped
    cases parts : (name.namespace_ ++ "/" ++ name.name).splitOn "/" with
    | nil =>
      rw [parts] at mapped
      cases mapped
    | cons ns rest =>
      cases rest with
      | nil =>
        rw [parts] at mapped
        cases mapped
      | cons first rest =>
        rw [parts] at mapped
        dsimp only at mapped
        split at mapped
        · rename_i passes
          have same := NamespacedName.objectRef_inj.mp (Option.some.inj mapped)
          have namespaces : ns = name.namespace_ := congrArg (·.namespace_) same
          have names : String.intercalate "/" (first :: rest) = name.name := congrArg (·.name) same
          rw [Bool.and_eq_true, names] at passes
          have part : ns ∈ (name.namespace_ ++ "/" ++ name.name).splitOn (String.singleton '/') :=
            parts ▸ List.mem_cons_self
          have absent := not_mem_of_mem_splitOn part
          rw [namespaces] at absent
          exact ⟨passes.1, absent, bne_iff_ne.mp passes.2⟩
        · cases mapped
  · rintro ⟨target, absent, named⟩
    have parts := splitOn_append name.name absent
    rw [slash, parts]
    have joined := intercalate_splitOn name.name '/'
    cases rest : name.name.splitOn (String.singleton '/') with
    | nil =>
      rw [rest] at joined
      exact absurd joined.symm named
    | cons first others =>
      rw [rest] at joined
      dsimp only
      rw [joined, target, bne_iff_ne.mpr named]
      rfl

/-- An object that carries the fields of a copy leads back to the source of the copy. -/
theorem destinationWatch_eq_some_iff {self : ResourceControllerImpl} {rs : DynamicObject}
    {source : SourceRef} {fields : Fields} {namespace_ : String}
    (inside : rs.metadata.namespace_ = some namespace_)
    (carries : rs.fields.Carries (fields.copied source)) :
    self.destinationWatch rs = some (source.name.objectRef self.gvk) ↔
      self.isTargetNamespace namespace_ = true ∧ '/' ∉ source.name.namespace_.toList ∧
        source.name.name ≠ "" := by
  have labelled : managed rs = true := by
    have found := carries.labels "app.kubernetes.io/managed-by" manager
      (StringMap.lookup_insert_self ..)
    exact beq_iff_eq.mpr found
  have annotated := carries.annotations sourceObjectAnnotation
    (source.name.namespace_ ++ "/" ++ source.name.name) (StringMap.lookup_insert_self ..)
  have mapped := @destinationMapper_eq_some_iff self rs source.name namespace_ inside annotated
  unfold destinationWatch
  rw [labelled, Bool.and_true]
  constructor
  · intro watched
    split at watched
    · exact mapped.mp watched
    · cases watched
  · intro conditions
    rw [if_pos (listed_of_isTargetNamespace inside conditions.1)]
    exact mapped.mpr conditions

end ResourceControllerImpl

/-- The object that a call writes as a whole. -/
def Call.written : Call → Option (DynamicApi × DynamicObject)
  | .api (.create target body) | .api (.replace target _ body) | .api (.apply target _ body) =>
    some (target, body)
  | _ => none

/-- All that a call writes as a whole is of one kind and has the given fields. -/
def CopiesOnly (gvk : GroupVersionKind) (fields : Fields) (call : Call) : Prop :=
  ∀ api body, call.written = some (api, body) → api.resource = gvk ∧ body.fields = fields

/-- A call that writes nothing as a whole. -/
theorem copiesOnly_of_none {gvk : GroupVersionKind} {fields : Fields} {call : Call}
    (nothing : call.written = none) : CopiesOnly gvk fields call := by
  intro api body written
  rw [nothing] at written
  cases written

/-- Releasing and deleting a destination writes nothing as a whole. -/
theorem DestinationStatus.Removal.copiesOnly {d : DestinationStatus} {request : ApiRequest}
    {gvk : GroupVersionKind} {fields : Fields} (removal : d.Removal request) :
    CopiesOnly gvk fields (.api request) := by
  cases removal <;> exact copiesOnly_of_none rfl

/-- Neither does reading and writing a status. -/
theorem ObjectSyncModifications.StatusWrite.copiesOnly {event : ObjectSyncModifications}
    {request : ApiRequest} {gvk : GroupVersionKind} {fields : Fields}
    (write : event.StatusWrite request) : CopiesOnly gvk fields (.api request) := by
  cases write <;> exact copiesOnly_of_none rfl

namespace ResourceControllerImpl

section Writes

variable {self : ResourceControllerImpl} {fields : Fields} {namespace_ : String}
  {srcVersion : ObjectRevision} {d : DestinationStatus} {state : UpsertState}

/-- The template that an attempt leaves. -/
def Templated (fields : Fields) (state : UpsertState) : Prop := state.template.fields = fields

/-- Updating a copy writes fields of the template only. -/
theorem copiesOnly_updateExisting {current : DynamicObject} (templated : Templated fields state) :
    (updateExisting (self.namespacedApi namespace_) srcVersion current d state).wp
      (.requests Honest (CopiesOnly self.gvk fields)) (fun value _ => Templated fields value.2.1)
      () := by
  unfold updateExisting
  dsimp only
  split
  · cases d.effectiveStrategy <;> dsimp only <;> rw [wp_api] <;> intro _ _ reply after _
    all_goals
      refine ⟨?_, ?_⟩
      · rintro api body ⟨⟩
        exact ⟨rfl, templated⟩
      · cases reply with
        | ok updated => exact templated
        | error e =>
          dsimp only
          split <;> exact templated
  · exact templated

/-- Creating a copy writes fields of the template only. -/
theorem copiesOnly_createMissing (templated : Templated fields state) :
    (createMissing (self.namespacedApi namespace_) srcVersion d state).wp
      (.requests Honest (CopiesOnly self.gvk fields)) (fun value _ => Templated fields value.2.1)
      () := by
  unfold createMissing
  rw [wp_api]
  intro _ _ reply after _
  constructor
  · rintro api body ⟨⟩
    exact ⟨rfl, templated⟩
  · cases reply with
    | ok created => exact templated
    | error e =>
      dsimp only
      split <;> exact templated

/-- An attempt to create or update a copy writes fields of the template only. -/
theorem copiesOnly_upsertAttempt (templated : Templated fields state) :
    (upsertAttempt (self.namespacedApi namespace_) srcVersion d state).wp
      (.requests Honest (CopiesOnly self.gvk fields)) (fun value _ => Templated fields value.2.1)
      () := by
  unfold upsertAttempt
  dsimp only
  rw [wp_api]
  intro _ _ reply after _
  refine ⟨copiesOnly_of_none rfl, ?_⟩
  cases reply with
  | ok current =>
    dsimp only
    split
    · rw [wp_bind]
      refine wp_imp (fun value _ _ => ?_)
        (requests_removeFinalizer _ current finalizer fun _ => copiesOnly_of_none rfl)
      split
      · exact templated
      · exact copiesOnly_updateExisting templated
    · exact copiesOnly_updateExisting templated
  | error e =>
    dsimp only
    split
    · exact copiesOnly_createMissing templated
    · exact templated

/-- All attempts to create or update a copy write fields of the template only. -/
theorem copiesOnly_upsertLoop (attempts : Nat) (templated : Templated fields state) :
    (upsertLoop (self.namespacedApi namespace_) srcVersion attempts d state).wp
      (.requests Honest (CopiesOnly self.gvk fields)) (fun value _ => Templated fields value.2)
      () := by
  induction attempts generalizing d state with
  | zero => exact templated
  | succ attempts ih =>
    rw [upsertLoop, wp_bind]
    refine wp_imp ?_ (copiesOnly_upsertAttempt templated)
    rintro ⟨d', state', flow⟩ _ kept
    cases flow with
    | continue_ => exact ih kept
    | break_ => exact kept

/-- Every destination is written with the fields of the first template, once they are fitted. -/
theorem copiesOnly_upsertDestinations (source : DynamicObject)
    (destinations staleRemnants : List DestinationStatus) :
    (self.upsertDestinations source destinations staleRemnants).wp
      (.requests Honest (CopiesOnly self.gvk (source.fields.copied (SourceRef.ofObject source))))
      (fun _ _ => True) () := by
  unfold upsertDestinations
  dsimp only
  rw [wp_bind]
  refine wp_imp (fun _ _ _ => trivial) (@wp_upsertEach_loop _ _ _
    (fun _ _ state _ => state.template.fields.fitted =
      source.fields.copied (SourceRef.ofObject source)) self staleRemnants ?_ ?_ [] destinations
    ⟨sourceTemplate source, false, 0⟩ () (sourceTemplate_fields source))
  · exact fun _ _ _ _ _ _ => id
  · intro _ d _ state _ _ fitted
    refine wp_imp (fun value _ (kept : Templated _ _) => ?_)
      (copiesOnly_upsertLoop 3 fitted)
    -- Fitting the template once more changes nothing.
    rw [kept]
    rfl

end Writes

/-- `reconcile_source` writes copies of its source only. -/
theorem copiesOnly_reconcileSource (self : ResourceControllerImpl) (event : ObjectSyncModifications)
    (source : DynamicObject) :
    (self.reconcileSource event source).wp
      (.requests Honest (CopiesOnly self.gvk (source.fields.copied (SourceRef.ofObject source))))
      (fun _ _ => True) () := by
  unfold reconcileSource
  rw [wp_namespaces]
  intro _ _ cache _ _
  refine ⟨copiesOnly_of_none rfl, ?_⟩
  dsimp only
  rw [wp_bind]
  refine wp_imp (fun result _ _ => ?_)
    (ObjectSyncer.requests_deleteDestinations _ fun _ _ _ removal => removal.copiesOnly)
  cases result with
  | error e => trivial
  | ok staleRemnants =>
    dsimp only
    rw [wp_bind]
    refine wp_imp (fun value _ _ => ?_)
      (ObjectSyncModifications.requests_replaceStatus _ fun _ write => write.copiesOnly)
    obtain ⟨event', result⟩ := value
    cases result with
    | error e => trivial
    | ok =>
      dsimp only
      unfold syncDestinations
      split
      · trivial
      · rw [wp_bind]
        refine wp_imp (fun outcome _ _ => ?_) (copiesOnly_upsertDestinations source _ _)
        obtain ⟨destinations, updated, expected, observed⟩ := outcome
        dsimp only
        split
        · rw [wp_bind]
          refine wp_imp (fun updated _ _ => ?_)
            (ObjectSyncModifications.requests_updateCondition _ _ (copiesOnly_of_none rfl))
          exact wp_imp (fun _ _ _ => trivial)
            (ObjectSyncModifications.requests_replaceStatus _ fun _ write => write.copiesOnly)
        · trivial

/-- **Copies lead back.** Whatever `reconcile_source` writes as a whole is of the kind that the
controller watches, and as long as the object carries the fields that were written, whatever else is
added to it, an event of it triggers the source, if and only if the copy lies in the target
namespaces, the namespace of the source has no slash and its name is not empty. -/
theorem copies_lead_back (self : ResourceControllerImpl) (event : ObjectSyncModifications)
    (source : DynamicObject) {cache : List Namespace} {call : Call} {api : DynamicApi}
    {body rs : DynamicObject}
    (issued : (self.reconcileSource event source).Issues (fun _ _ => True)
      (fun _ call reply _ => Responds cache call reply) () call)
    (written : call.written = some (api, body))
    (inside : rs.metadata.namespace_ = some api.namespace_)
    (carries : rs.fields.Carries body.fields) :
    api.resource = self.gvk ∧
      (self.destinationWatch rs = some ((SourceRef.ofObject source).name.objectRef self.gvk) ↔
        self.isTargetNamespace api.namespace_ = true ∧
          '/' ∉ (source.metadata.namespace_.getD "").toList ∧ source.metadata.nameAny ≠ "") := by
  have only := allowed_of_issues (wp_responds (self.copiesOnly_reconcileSource event source)) issued
  obtain ⟨kind, fields⟩ := only api body written
  rw [fields] at carries
  exact ⟨kind, destinationWatch_eq_some_iff inside carries⟩

end ResourceControllerImpl

/-- The ObjectSync of the settings with its copy already tracked. -/
def settingsTracking : ObjectSync :=
  { settingsSync with
    status := some ⟨none, some [configMapsToTeam.expectedStatus ("team", "settings", none)]⟩ }

/-- The copy that a run for the settings creates. -/
def settingsTeamCopy : DynamicObject :=
  ResourceControllerImpl.withRevision
    (ResourceControllerImpl.fitTemplate (ResourceControllerImpl.sourceTemplate settingsSource)
      (configMapsToTeam.expectedStatus ("team", "settings", none))) ⟨none, none⟩

/-- The copy is created, and leads back when somebody has changed a setting. -/
theorem settingsTeamCopy_leads_back :
    configMapsToTeam.destinationWatch
        { settingsTeamCopy with data := [("/data/theme", "\"dark\"")] } =
      some ⟨⟨"", "v1", "ConfigMap"⟩, "settings", "default"⟩ := by
  have issued : (configMapsToTeam.reconcileSource (.new settingsTracking) settingsSource).Issues
      (fun _ _ => True) (fun _ call reply _ => Responds settingsNamespaces call reply) ()
      (.api (.create (configMapsToTeam.namespacedApi "team") settingsTeamCopy)) :=
    .after () () settingsNamespaces
      (.after () () (.error (.api 404 "")) issues_call trivial trivial) trivial rfl
  have carries : ({ settingsTeamCopy with data := [("/data/theme", "\"dark\"")] } :
      DynamicObject).fields.Carries settingsTeamCopy.fields :=
    ⟨.refl _, .refl _, fun _ => id, fun _ => id, nofun⟩
  have leads := configMapsToTeam.copies_lead_back (.new settingsTracking) settingsSource issued rfl
    rfl carries
  exact leads.2.mpr ⟨by decide, by decide, by decide⟩

end ObjectSyncer
