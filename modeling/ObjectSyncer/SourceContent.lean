import ObjectSyncer.Collections.FieldProvenance
import ObjectSyncer.CopyFields

/-!
# Protecting a source

A source gets its finalizer by a server-side apply of a configuration with nothing else in it, in
the name under which copies are applied. Here an object is written by the controller in any order,
as a copy and as a source, and by others; what becomes of its content when it is protected depends
on where its values come from.
-/
namespace ObjectSyncer

open Interaction Interaction.Program Collections

/-- What a request for an object does to where its values come from. -/
def ApiRequest.provenance (former : Provenance FieldPath String) :
    (request : ApiRequest) → Except KubeError (ApiValue request) → Provenance FieldPath String
  | .create _ body, .ok _ => former.update body.content
  | .replace _ _ body, .ok _ => former.update body.content
  | .apply _ _ body, .ok _ => former.apply body.content
  | _, _ => former

/-- An object as it can be after writes of the controller and of others, with where its values come
from. -/
inductive Written (api : DynamicApi) (name : String) :
    Option OwnedObject → Provenance FieldPath String → Prop
  /-- The object does not exist, or does not any more. -/
  | absent : Written api name none .empty
  /-- The object belongs to others. -/
  | foreign {object : OwnedObject} : (∀ path value owners,
      object.fields path = some (value, owners) → ∃ owner ∈ owners, owner ≠ applier) →
      Written api name (some object) (.ofValues object.fields.values)
  /-- Somebody else updates it. -/
  | edited {object object' : OwnedObject} {provenance : Provenance FieldPath String}
      {body : Configured FieldPath String} (other : FieldManager) : other ≠ applier →
      Written api name (some object) provenance →
      object'.fields = object.fields.updated other body →
      Written api name (some object') (provenance.update body)
  /-- A request by which the controller creates or updates it is served. -/
  | served {before after : Option OwnedObject} {provenance : Provenance FieldPath String}
      {fresh : ObjectRevision → Prop} {request : ApiRequest}
      {reply : Except KubeError (ApiValue request)} : Written api name before provenance →
      Upsert api name request → OwnedServed fresh before request reply after →
      Written api name after (request.provenance provenance reply)

/-- The fields of an object that may be missing. -/
def ownedFields (object : Option OwnedObject) : Managed FieldPath String FieldManager :=
  (object.map (·.fields)).getD fun _ => none

/-- The owners of a written object tell where its values come from. -/
theorem Written.comesFrom {api : DynamicApi} {name : String} {object : Option OwnedObject}
    {provenance : Provenance FieldPath String} (written : Written api name object provenance) :
    (ownedFields object).ComesFrom applier provenance := by
  have distinct : updater ≠ applier := by decide
  induction written with
  | absent => exact Managed.comesFrom_empty
  | foreign shared => exact ⟨rfl, fun _ _ _ _ => nofun, fun path value owners found _ =>
      shared path value owners found⟩
  | @edited object object' provenance body other different _ same ih =>
    have updated : (object.fields.updated other body).ComesFrom applier (provenance.update body) :=
      ih.updated different
    rw [← same] at updated
    exact updated
  | @served before after provenance fresh request reply _ upsert served ih =>
    cases served with
    | found | missing | present | patched | unfit | conflict | conflictApplying | absent
    | unpatched => exact ih
    | @created _ body written _ =>
      show (Managed.created updater body.content).ComesFrom applier (provenance.update body.content)
      rw [Managed.created_eq_updated]
      exact ih.updated distinct
    | replaced => exact ih.updated distinct
    | applied => exact ih.apply
    | @appliedAnew _ _ body written _ _ =>
      show (Managed.created applier body.content).ComesFrom applier (provenance.apply body.content)
      rw [Managed.created_eq_applied]
      exact ih.apply
    | deleted => cases upsert

/-- The contract of a run that writes one object, while nobody else does. -/
@[reducible] def owning (api : DynamicApi) (name : String) (fresh : ObjectRevision → Prop) :
    Contract Call Reply (Option OwnedObject) where
  rely := fun before after => after = before
  answers := fun before call reply after =>
    Honest call reply ∧
      match call, reply with
      | .api request, reply =>
        if request.At (api.key name) then OwnedServed fresh before request reply after
        else after = before
      | _, _ => after = before
  guarantee := fun _ _ _ _ => True

section Runs

variable {api : DynamicApi} {name : String} {fresh : ObjectRevision → Prop}

/-- A run that makes no other requests for an object than those by which it is created or updated
leaves it as a written one. -/
theorem Written.run {α : Type} {result : α → Prop} {program : Async α} {before : Option OwnedObject}
    {provenance : Provenance FieldPath String}
    (shape : program.wp (.requests Honest fun call => ∀ request, call = .api request →
      request.At (api.key name) → Upsert api name request) (fun value _ => result value) ())
    (written : Written api name before provenance) :
    program.wp (owning api name fresh)
      (fun _ after => ∃ provenance, Written api name after provenance) before := by
  refine wp_imp (fun _ _ kept => kept.2) (@wp_requests _ _ _ _ (owning api name fresh) _ _
    (fun object => ∃ provenance, Written api name object provenance) _ _ _ shape
    (fun _ _ _ _ answered => answered.1) ?_ ?_ ⟨provenance, written⟩)
  · rintro before _ kept rfl
    exact kept
  · rintro before call reply after ⟨provenance, written⟩ asked ⟨-, effect⟩
    refine ⟨trivial, ?_⟩
    cases call with
    | api request =>
      dsimp only at effect
      by_cases at_ : request.At (api.key name)
      · rw [if_pos at_] at effect
        exact ⟨_, written.served (asked request rfl at_) effect⟩
      · rw [if_neg at_] at effect
        rw [effect]
        exact ⟨provenance, written⟩
    | _ =>
      have same : after = before := effect
      rw [same]
      exact ⟨provenance, written⟩

/-- Creating and updating an object leaves it as a written one. -/
theorem Written.upsertLoop {srcVersion : ObjectRevision} {attempts : Nat} {d : DestinationStatus}
    {state : ResourceControllerImpl.UpsertState} {before : Option OwnedObject}
    {provenance : Provenance FieldPath String} (written : Written api d.name before provenance)
    (named : state.template.metadata.nameAny = d.name) :
    (ResourceControllerImpl.upsertLoop api srcVersion attempts d state).wp (owning api d.name fresh)
      (fun _ after => ∃ provenance, Written api d.name after provenance) before := by
  refine Written.run (ResourceControllerImpl.requests_upsertLoop attempts ?_ named) written
  intro request upsert other same _
  rw [← Call.api.inj same]
  exact upsert

/-- Removing the finalizer of an object leaves it as a written one. -/
theorem Written.removeFinalizer {source : DynamicObject} {before : Option OwnedObject}
    {provenance : Provenance FieldPath String}
    (written : Written api source.metadata.nameAny before provenance) :
    (removeFinalizer api source finalizer).wp (owning api source.metadata.nameAny fresh)
      (fun _ after => ∃ provenance,
        Written api source.metadata.nameAny after provenance) before := by
  refine Written.run (requests_removeFinalizer api source finalizer ?_) written
  intro patch other same _
  rw [← Call.api.inj same]
  exact .release patch

/-- Adding the finalizer to an object leaves it as a written one. -/
theorem Written.addFinalizerIfMissing {source : DynamicObject} {before : Option OwnedObject}
    {provenance : Provenance FieldPath String}
    (written : Written api (finalizerPatch source finalizer).metadata.nameAny before provenance) :
    (addFinalizerIfMissing api source finalizer).wp
      (owning api (finalizerPatch source finalizer).metadata.nameAny fresh)
      (fun _ after => ∃ provenance,
        Written api (finalizerPatch source finalizer).metadata.nameAny after provenance)
      before := by
  refine @Written.run _ _ _ _ (fun _ => True) _ _ _
    (requests_addFinalizerIfMissing api source finalizer ?_) written
  intro other same _
  rw [← Call.api.inj same]
  exact .apply _

/-- The minimal configuration has no content. -/
theorem finalizerPatch_content (source : DynamicObject) :
    (finalizerPatch source finalizer).content = fun _ => none := by
  funext path
  cases path <;> rfl

/-- Adding the finalizer does nothing where it is listed, and otherwise applies an empty
configuration to the object. -/
theorem wp_addFinalizerIfMissing_owned {object : OwnedObject} {source : DynamicObject}
    (named : source.metadata.name = some name) :
    (addFinalizerIfMissing api source finalizer).wp (owning api name fresh)
      (fun value after => ∀ added, value.2 = .ok added → ∃ object', after = some object' ∧
        (finalizer ∈ source.metadata.finalizerList → object'.fields = object.fields) ∧
        (finalizer ∉ source.metadata.finalizerList →
          object'.fields = object.fields.applied applier fun _ => none)) (some object) := by
  have patched : (finalizerPatch source finalizer).metadata.nameAny = name := by
    unfold ObjectMeta.nameAny finalizerPatch
    rw [named]
    rfl
  unfold addFinalizerIfMissing
  by_cases listed : finalizer ∈ source.metadata.finalizerList
  · rw [if_pos listed]
    intro added _
    exact ⟨object, rfl, fun _ => rfl, fun missing => absurd listed missing⟩
  · rw [if_neg listed]
    dsimp only
    rw [wp_api]
    intro moved still reply after answered
    subst still
    refine ⟨trivial, ?_⟩
    have effect := answered.2
    have asked : (ApiRequest.apply api (finalizerPatch source finalizer).metadata.nameAny
        (finalizerPatch source finalizer)).At (api.key name) := by
      rw [patched]
      exact rfl
    dsimp only at effect
    rw [if_pos asked] at effect
    cases effect with
    | applied =>
      intro added _
      refine ⟨_, rfl, fun member => absurd member listed, fun _ => ?_⟩
      rw [finalizerPatch_content]
    | conflictApplying =>
      intro added failed
      cases failed

/-- **Protecting a source spares its content, as long as nothing of it was applied.** Adding the
finalizer to an object leaves all its fields exactly if the finalizer is there already, or no field
has its present value from a configuration that the controller applied. -/
theorem addFinalizerIfMissing_content_iff {object : OwnedObject}
    {provenance : Provenance FieldPath String} {source source' : DynamicObject} {added : Bool}
    {after : Option OwnedObject} (written : Written api name (some object) provenance)
    (named : source.metadata.name = some name)
    (returned : Returns (owning api name fresh).rely (owning api name fresh).answers
      (addFinalizerIfMissing api source finalizer) (some object) (source', .ok added) after) :
    ∃ object', after = some object' ∧ (object'.fields.values = object.fields.values ↔
      finalizer ∈ source.metadata.finalizerList ∨ ∀ path, provenance.applied path = false) := by
  obtain ⟨object', exists_, kept, changed⟩ :=
    returned.meets (wp_addFinalizerIfMissing_owned named) added rfl
  refine ⟨object', exists_, ?_⟩
  by_cases listed : finalizer ∈ source.metadata.finalizerList
  · rw [kept listed]
    exact ⟨fun _ => .inl listed, fun _ => rfl⟩
  · rw [changed listed]
    have comes : object.fields.ComesFrom applier provenance := written.comesFrom
    rw [comes.values_applied_empty]
    constructor
    · exact .inr
    · intro either
      exact either.resolve_left listed

end Runs

/-- The API of the copies of the settings. -/
def settingsApi : DynamicApi := ⟨⟨"", "v1", "ConfigMap"⟩, "team"⟩

/-- The settings as they are put into a copy. -/
def settingsTemplate (data : StringMap) : DynamicObject :=
  settingsRead data ⟨none, none⟩

/-- The copy of the settings after it was created. -/
def settingsCreatedCopy (data : StringMap) : OwnedObject :=
  ⟨.created updater (settingsTemplate data).content, [finalizer], ⟨some "u", some "1"⟩⟩

/-- An object without its finalizer, at another resource version. -/
def OwnedObject.stripped (object : OwnedObject) (resourceVersion : String) : OwnedObject :=
  { object with finalizers := [], revision := ⟨some "u", some resourceVersion⟩ }

/-- The copy of the settings after its data were changed by an apply. -/
def settingsAppliedCopy (former data : StringMap) : OwnedObject :=
  ⟨(settingsCreatedCopy former).fields.applied applier (settingsTemplate data).content, [finalizer],
    ⟨some "u", some "2"⟩⟩

/-- The controller can create the copy. -/
theorem written_settingsCreatedCopy (data : StringMap) :
    Written settingsApi "settings" (some (settingsCreatedCopy data))
      (Provenance.empty.update (settingsTemplate data).content) := by
  have created : OwnedServed (fun _ => True) none (.create settingsApi (settingsTemplate data))
      (.ok (settingsRead data ⟨some "u", some "1"⟩)) (some (settingsCreatedCopy data)) :=
    .created trivial
  exact Written.absent.served (.create rfl) created

/-- A copy that was written is a written one without its finalizer. -/
theorem Written.stripped {object : OwnedObject} {provenance : Provenance FieldPath String}
    (written : Written settingsApi "settings" (some object) provenance)
    (carried : object.finalizers = [finalizer]) (resourceVersion : String) :
    Written settingsApi "settings" (some (object.stripped resourceVersion)) provenance := by
  have patched : OwnedServed (fun _ => True) (some object)
      (.jsonPatch settingsApi "settings" (diffFinalizers (some [finalizer]) (some [])))
      (.ok (objectAt "settings" ⟨some "u", some resourceVersion⟩))
      (some (object.stripped resourceVersion)) := by
    refine @OwnedServed.patched _ _ _ _ _ (some []) _ ?_ trivial
    rw [carried]
    exact applyFinalizerOps_diffFinalizers _ _
  exact written.served (.release _) patched

/-- The copy of the settings without its finalizer, as it is read. -/
def settingsUnprotected (data : StringMap) (resourceVersion : String) : DynamicObject :=
  (settingsRead data ⟨some "u", some resourceVersion⟩).withFinalizers []

/-- An object without the finalizer can be protected. -/
theorem returns_addFinalizerIfMissing (object : OwnedObject) (data : StringMap)
    (resourceVersion : String) :
    Returns (owning settingsApi "settings" fun _ => True).rely
      (owning settingsApi "settings" fun _ => True).answers
      (addFinalizerIfMissing settingsApi (settingsUnprotected data resourceVersion) finalizer)
      (some object)
      ((settingsUnprotected data resourceVersion).withFinalizers [finalizer], .ok true)
      (some ⟨object.fields.applied applier
        (finalizerPatch (settingsUnprotected data resourceVersion) finalizer).content,
        object.finalizers ++ [finalizer].filter (· ∉ object.finalizers),
        ⟨some "u", some "4"⟩⟩) := by
  have applied : OwnedServed (fun _ => True) (some object)
      (.apply settingsApi "settings"
        (finalizerPatch (settingsUnprotected data resourceVersion) finalizer))
      (.ok (settingsRead data ⟨some "u", some "4"⟩)) _ := .applied rfl trivial
  have answered : (owning settingsApi "settings" fun _ => True).answers (some object)
      (.api (.apply settingsApi "settings"
        (finalizerPatch (settingsUnprotected data resourceVersion) finalizer)))
      (.ok (settingsRead data ⟨some "u", some "4"⟩)) _ := ⟨trivial, applied⟩
  exact .call rfl answered (.refl _ _)

/-- A copy that was only created can be protected without harm. -/
theorem settingsCreatedCopy_protected :
    ∃ object', some (⟨((settingsCreatedCopy [("mode", "a")]).stripped "2").fields.applied applier
        (finalizerPatch (settingsUnprotected [("mode", "a")] "2") finalizer).content,
        [finalizer], ⟨some "u", some "4"⟩⟩ : OwnedObject) = some object' ∧
      (object'.fields.values = ((settingsCreatedCopy [("mode", "a")]).stripped "2").fields.values ↔
        finalizer ∈ (settingsUnprotected [("mode", "a")] "2").metadata.finalizerList ∨
          ∀ path,
            (Provenance.empty.update (settingsTemplate [("mode", "a")]).content).applied path =
              false) :=
  addFinalizerIfMissing_content_iff ((written_settingsCreatedCopy _).stripped rfl "2") rfl
    (returns_addFinalizerIfMissing _ [("mode", "a")] "2")

/-- A copy that was changed loses what was changed, when it is protected. -/
theorem settingsAppliedCopy_emptied :
    ¬∀ (api : DynamicApi) (name : String) (fresh : ObjectRevision → Prop) (object : OwnedObject)
      (provenance : Provenance FieldPath String) (source source' : DynamicObject) (added : Bool)
      (after : Option OwnedObject), Written api name (some object) provenance →
        source.metadata.name = some name →
        Returns (owning api name fresh).rely (owning api name fresh).answers
          (addFinalizerIfMissing api source finalizer) (some object) (source', .ok added) after →
        ∃ object', after = some object' ∧ object'.fields.values = object.fields.values := by
  intro spared
  have applied : OwnedServed (fun _ => True) (some (settingsCreatedCopy [("mode", "a")]))
      (.apply settingsApi "settings" (settingsTemplate [("mode", "b")]))
      (.ok (settingsRead [("mode", "b")] ⟨some "u", some "2"⟩))
      (some (settingsAppliedCopy [("mode", "a")] [("mode", "b")])) := .applied rfl trivial
  have written := ((written_settingsCreatedCopy [("mode", "a")]).served (.apply _) applied).stripped
    rfl "3"
  obtain ⟨object', exists_, same⟩ := spared _ _ _ _ _ _ _ _ _ written rfl
    (returns_addFinalizerIfMissing _ [("mode", "b")] "3")
  have lost := congrFun same (.data "mode")
  rw [← Option.some.inj exists_] at lost
  exact absurd lost (by decide +kernel)

end ObjectSyncer
