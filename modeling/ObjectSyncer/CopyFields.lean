import ObjectSyncer.Collections.FieldOwnership
import ObjectSyncer.Conditions

/-!
# Who owns the fields of a copy

The first version of a source is written by a create, which leaves the fields of the copy to the
manager as an updater, and all later ones by a server-side apply, which deletes what it omits only
where the manager as an applier is the sole owner. Here the API server keeps one object with the
owners of its fields, and one ObjectSync is reconciled for one version of its source after the
other.
-/
namespace ObjectSyncer

open Interaction Interaction.Program Collections

/-- A field of the content of an object. -/
inductive FieldPath where
  /-- A leaf of the body. -/
  | data (path : String)
  /-- A label. -/
  | label (key : String)
  /-- An annotation. -/
  | remark (key : String)
  deriving DecidableEq, Repr

/-- The content of an object. -/
def DynamicObject.content (object : DynamicObject) : Configured FieldPath String
  | .data path => object.data.lookup path
  | .label key => (object.metadata.labels.getD []).lookup key
  | .remark key => (object.metadata.annotations.getD []).lookup key

/-- A revision is no part of the content. -/
@[simp] theorem withRevision_content (object : DynamicObject) (revision : ObjectRevision) :
    (ResourceControllerImpl.withRevision object revision).content = object.content := by
  funext path
  cases path <;> rfl

/-- Fitting a template to a destination leaves the content. -/
@[simp] theorem fitTemplate_content (object : DynamicObject) (d : DestinationStatus) :
    (ResourceControllerImpl.fitTemplate object d).content = object.content := by
  funext path
  cases path <;> rfl

/-- The kind of request by which a manager owns a field. -/
inductive Operation where
  | update
  | apply
  deriving DecidableEq, Repr

/-- An owner of fields. -/
structure FieldManager where
  name : String
  operation : Operation
  deriving DecidableEq, Repr

/-- The controller, where it creates or replaces. -/
def updater : FieldManager := ⟨manager, .update⟩

/-- The controller, where it applies. -/
def applier : FieldManager := ⟨manager, .apply⟩

/-- An object as far as it concerns the owners of its fields. -/
structure OwnedObject where
  /-- The content, with owners. -/
  fields : Managed FieldPath String FieldManager
  /-- The finalizers. -/
  finalizers : List String
  /-- The revision. -/
  revision : ObjectRevision

/-- A body names another revision than that of the object. -/
def OwnedObject.conflicts (object : OwnedObject) (body : DynamicObject) : Bool :=
  body.metadata.conflicts
    { uid := object.revision.uid, resourceVersion := object.revision.resourceVersion }

/-- How requests for one object are served when nothing fails, given what revisions are fresh. -/
inductive OwnedServed (fresh : ObjectRevision → Prop) : Option OwnedObject →
    (request : ApiRequest) → Except KubeError (ApiValue request) → Option OwnedObject → Prop
  /-- The object is read. -/
  | found {object : OwnedObject} {api : DynamicApi} {name : String} {read : DynamicObject} :
      read.metadata.revision = object.revision → read.metadata.terminating = false →
      read.metadata.finalizers = some object.finalizers → read.content = object.fields.values →
      OwnedServed fresh (some object) (.get api name) (.ok read) (some object)
  /-- There is no object to be read. -/
  | missing {api : DynamicApi} {name : String} {e : KubeError} : e.isNotFound →
      OwnedServed fresh none (.get api name) (.error e) none
  /-- The object is created. -/
  | created {api : DynamicApi} {body written : DynamicObject} : fresh written.metadata.revision →
      OwnedServed fresh none (.create api body) (.ok written)
        (some ⟨.created updater body.content, body.metadata.finalizerList,
          written.metadata.revision⟩)
  /-- The object was created before. -/
  | present {object : OwnedObject} {api : DynamicApi} {body : DynamicObject} {e : KubeError} :
      e.isConflict → OwnedServed fresh (some object) (.create api body) (.error e) (some object)
  /-- The object is replaced. -/
  | replaced {object : OwnedObject} {api : DynamicApi} {name : String}
      {body written : DynamicObject} : object.conflicts body = false →
      fresh written.metadata.revision →
      OwnedServed fresh (some object) (.replace api name body) (.ok written)
        (some ⟨object.fields.updated updater body.content, body.metadata.finalizerList,
          written.metadata.revision⟩)
  /-- A configuration is applied to the object. -/
  | applied {object : OwnedObject} {api : DynamicApi} {name : String}
      {body written : DynamicObject} : object.conflicts body = false →
      fresh written.metadata.revision →
      OwnedServed fresh (some object) (.apply api name body) (.ok written)
        (some ⟨object.fields.applied applier body.content,
          object.finalizers ++ body.metadata.finalizerList.filter (· ∉ object.finalizers),
          written.metadata.revision⟩)
  /-- A configuration without a revision is applied where there is no object. -/
  | appliedAnew {api : DynamicApi} {name : String} {body written : DynamicObject} :
      body.metadata.revision = ⟨none, none⟩ → fresh written.metadata.revision →
      OwnedServed fresh none (.apply api name body) (.ok written)
        (some ⟨.created applier body.content, body.metadata.finalizerList,
          written.metadata.revision⟩)
  /-- The finalizers of the object are patched. -/
  | patched {object : OwnedObject} {api : DynamicApi} {name : String} {patch : List FinalizerOp}
      {finalizers : Option (List String)} {written : DynamicObject} :
      applyFinalizerOps patch (some object.finalizers) = some finalizers →
      fresh written.metadata.revision →
      OwnedServed fresh (some object) (.jsonPatch api name patch) (.ok written)
        (some ⟨object.fields, finalizers.getD [], written.metadata.revision⟩)
  /-- A patch does not fit the finalizers of the object. -/
  | unfit {object : OwnedObject} {api : DynamicApi} {name : String} {patch : List FinalizerOp}
      {e : KubeError} : applyFinalizerOps patch (some object.finalizers) = none → ¬e.isNotFound →
      OwnedServed fresh (some object) (.jsonPatch api name patch) (.error e) (some object)
  /-- A request to write names another revision. -/
  | conflict {object : OwnedObject} {api : DynamicApi} {name : String} {body : DynamicObject}
      {e : KubeError} : object.conflicts body = true → e.isConflict →
      OwnedServed fresh (some object) (.replace api name body) (.error e) (some object)
  /-- A configuration names another revision. -/
  | conflictApplying {object : OwnedObject} {api : DynamicApi} {name : String}
      {body : DynamicObject} {e : KubeError} : object.conflicts body = true → e.isConflict →
      OwnedServed fresh (some object) (.apply api name body) (.error e) (some object)
  /-- There is no object to be replaced. -/
  | absent {api : DynamicApi} {name : String} {body : DynamicObject} {e : KubeError} :
      e.isNotFound → OwnedServed fresh none (.replace api name body) (.error e) none
  /-- There is no object whose finalizers could be patched. -/
  | unpatched {api : DynamicApi} {name : String} {patch : List FinalizerOp} {e : KubeError} :
      e.isNotFound → OwnedServed fresh none (.jsonPatch api name patch) (.error e) none
  /-- Whatever a deletion does is not described. -/
  | deleted {before after : Option OwnedObject} {api : DynamicApi} {name : String}
      {reply : Except KubeError Unit} : OwnedServed fresh before (.delete api name) reply after

/-- A request reads or writes the object of a key. -/
def ApiRequest.At (key : ObjectKey) : ApiRequest → Prop
  | .get api name => api.key name = key
  | request => request.target = some key

/-- Whether a request concerns an object can be computed. -/
instance (key : ObjectKey) (request : ApiRequest) : Decidable (request.At key) := by
  cases request <;> unfold ApiRequest.At <;> infer_instance

/-- Reading the status of an ObjectSync concerns no object. -/
theorem ApiRequest.not_at_getSyncStatus (key : ObjectKey) (sync : NamespacedName) :
    ¬(ApiRequest.getSyncStatus sync).At key := by
  intro at_
  cases at_

/-- Writing the status of an ObjectSync concerns no object. -/
theorem ApiRequest.not_at_replaceSyncStatus (key : ObjectKey) (sync : NamespacedName)
    (body : ObjectSync) : ¬(ApiRequest.replaceSyncStatus sync body).At key := by
  intro at_
  cases at_

/-- The copy of one ObjectSync at one key, with what is recorded of it. -/
structure CopyState where
  /-- The copy. -/
  copy : Option OwnedObject
  /-- The revision of the source from which it was written last. -/
  origin : Option ObjectRevision
  /-- The revisions that it had before. -/
  former : List ObjectRevision
  /-- The persisted destinations of the ObjectSync. -/
  recorded : List DestinationStatus

namespace CopyState

/-- A revision that the copy never had. -/
def Fresh (state : CopyState) (revision : ObjectRevision) : Prop :=
  revision ∉ state.former ∧ ∀ copy, state.copy = some copy → revision ≠ copy.revision

/-- The state once a request for the copy was served, given whether it has written the copy from a
revision of the source. -/
def served (state : CopyState) (srcVersion : ObjectRevision) (writes : Bool)
    (copy : Option OwnedObject) : CopyState :=
  { state with
    copy := copy
    origin := if writes then some srcVersion else state.origin
    former :=
      if copy.map (·.revision) = state.copy.map (·.revision) then state.former
      else (state.copy.map (·.revision)).toList ++ state.former }

/-- An entry for the copy records a former revision of it, or its revision and its origin. -/
def Records (key : ObjectKey) (state : CopyState) (d : DestinationStatus) : Prop :=
  d.key = key → ∀ revision, d.syncedVersion = some revision →
    revision ∈ state.former ∨ ∃ copy, state.copy = some copy ∧ revision = copy.revision ∧
      d.sourceVersion = state.origin

end CopyState

/-- How the calls of a run are answered that is given a revision of the source: requests for the
copy are served, status writes of the ObjectSync are recorded when they succeed, and nothing else
matters. -/
def CopyAnswered (key : ObjectKey) (o : ObjectSyncRef) (srcVersion : ObjectRevision)
    (wanted : List Namespace → Prop) (before : CopyState) :
    (call : Call) → Reply call → CopyState → Prop
  | .api request, reply, after =>
    if request.At key then
      ∃ copy, OwnedServed before.Fresh before.copy request reply copy ∧
        after = before.served srcVersion (Answer.writes ⟨.api request, reply⟩) copy
    else
      match request, reply with
      | .replaceSyncStatus sync body, .ok _ =>
        after = if sync = o.name then { before with recorded := body.destinationList } else before
      | .replaceSyncStatus sync body, .error _ =>
        after = before ∨ sync = o.name ∧ after = { before with recorded := body.destinationList }
      | _, _ => after = before
  | .namespaces, cache, after => wanted cache ∧ after = before
  | _, _, after => after = before

/-- The contract of a run for one copy, which nobody else writes. -/
@[reducible] def copying (key : ObjectKey) (o : ObjectSyncRef) (srcVersion : ObjectRevision)
    (wanted : List Namespace → Prop) : Contract Call Reply CopyState where
  rely := fun before after => after = before
  answers := fun before call reply after =>
    Honest call reply ∧ CopyAnswered key o srcVersion wanted before call reply after
  guarantee := fun _ _ _ _ => True

/-- The contents of the versions of a source that were synced: the first one, and all later ones
with the newest first. -/
structure Versions where
  first : Configured FieldPath String
  later : List (Configured FieldPath String)

namespace Versions

/-- The versions of the source with a further one. -/
def next : Option Versions → Configured FieldPath String → Versions
  | none, content => ⟨content, []⟩
  | some versions, content => ⟨versions.first, content :: versions.later⟩

/-- The newest version of the source. -/
def newest (versions : Versions) : Configured FieldPath String :=
  Managed.latest versions.first versions.later

/-- A version that was added is the newest one. -/
@[simp] theorem newest_next (versions : Option Versions) (content : Configured FieldPath String) :
    (next versions content).newest = content := by
  cases versions <;> rfl

end Versions

/-- The copy is what the versions make of it, written from a revision of the source last. -/
structure CopyState.Holds (state : CopyState) (versions : Versions) (origin : ObjectRevision) :
    Prop where
  traces : ∃ copy, state.copy = some copy ∧
    Managed.Traces updater applier versions.first versions.later copy.fields ∧
    copy.revision ∉ state.former
  origin : state.origin = some origin

/-- The copy shows the versions so far, if there are any, and another version is not of the revision
from which it was written last. -/
def CopyState.Shows (state : CopyState) (versions : Option Versions) (srcVersion : ObjectRevision)
    (content : Configured FieldPath String) : Prop :=
  match versions with
  | none => state.copy = none
  | some versions => ∃ origin, state.Holds versions origin ∧
    (origin = srcVersion → content = versions.newest)

namespace OwnedServed

variable {fresh : ObjectRevision → Prop} {object : OwnedObject} {after : Option OwnedObject}
  {api : DynamicApi} {name : String} {body : DynamicObject}

/-- An object that exists is found. -/
theorem of_found {reply : Except KubeError DynamicObject}
    (served : OwnedServed fresh (some object) (.get api name) reply after) :
    after = some object ∧ ∃ read : DynamicObject, reply = .ok read ∧
      read.metadata.revision = object.revision ∧ read.metadata.terminating = false := by
  cases served with
  | found revision present finalizers content => exact ⟨rfl, _, rfl, revision, present⟩

/-- An object that does not exist is missing. -/
theorem of_missing {reply : Except KubeError DynamicObject}
    (served : OwnedServed fresh none (.get api name) reply after) :
    after = none ∧ ∃ e : KubeError, reply = .error e ∧ e.isNotFound := by
  cases served with
  | missing absent => exact ⟨rfl, _, rfl, absent⟩

/-- An object that does not exist is created. -/
theorem of_created {reply : Except KubeError DynamicObject}
    (served : OwnedServed fresh none (.create api body) reply after) :
    ∃ written : DynamicObject, reply = .ok written ∧ fresh written.metadata.revision ∧
      after = some ⟨.created updater body.content, body.metadata.finalizerList,
        written.metadata.revision⟩ := by
  cases served with
  | created new => exact ⟨_, rfl, new, rfl⟩

/-- A configuration with the revision of the object is applied. -/
theorem of_applied {reply : Except KubeError DynamicObject}
    (served : OwnedServed fresh (some object) (.apply api name body) reply after)
    (same : object.conflicts body = false) :
    ∃ written : DynamicObject, reply = .ok written ∧ fresh written.metadata.revision ∧
      after = some ⟨object.fields.applied applier body.content,
        object.finalizers ++ body.metadata.finalizerList.filter (· ∉ object.finalizers),
        written.metadata.revision⟩ := by
  cases served with
  | applied agrees new => exact ⟨_, rfl, new, rfl⟩
  | conflictApplying differs =>
    rw [same] at differs
    cases differs

end OwnedServed

/-- A template with the revision of an object does not conflict with it. -/
theorem OwnedObject.conflicts_withRevision (object : OwnedObject) (template : DynamicObject) :
    object.conflicts (ResourceControllerImpl.withRevision template object.revision) = false := by
  unfold OwnedObject.conflicts ObjectMeta.conflicts ResourceControllerImpl.withRevision
  simp

/-! ## Updating the copy -/

section Upsert

variable {key : ObjectKey} {o : ObjectSyncRef} {srcVersion : ObjectRevision}
  {wanted : List Namespace → Prop} {before after : CopyState}

/-- Entries that record the copy still do so. -/
def CopyState.Leads (key : ObjectKey) (before after : CopyState) : Prop :=
  after.recorded = before.recorded ∧ ∀ d, before.Records key d → after.Records key d

/-- A request for the copy is served. -/
theorem CopyAnswered.served {request : ApiRequest} {reply : Except KubeError (ApiValue request)}
    (answered : CopyAnswered key o srcVersion wanted before (.api request) reply after)
    (asked : request.At key) :
    ∃ copy, OwnedServed before.Fresh before.copy request reply copy ∧
      after = before.served srcVersion (Answer.writes ⟨.api request, reply⟩) copy := by
  unfold CopyAnswered at answered
  dsimp only at answered
  rwa [if_pos asked] at answered

/-- A request for the copy that is served is answered. -/
theorem CopyAnswered.of_served {request : ApiRequest} {reply : Except KubeError (ApiValue request)}
    (asked : request.At key)
    (served : ∃ copy, OwnedServed before.Fresh before.copy request reply copy ∧
      after = before.served srcVersion (Answer.writes ⟨.api request, reply⟩) copy) :
    CopyAnswered key o srcVersion wanted before (.api request) reply after := by
  unfold CopyAnswered
  dsimp only
  rwa [if_pos asked]

/-- Serving a request without a new revision changes nothing. -/
theorem CopyState.served_same (state : CopyState) :
    state.served srcVersion false state.copy = state := by
  unfold served
  rw [if_pos rfl]
  rfl

/-- A copy that was written is held with the new version, and the revision it had is a former one.
-/
theorem CopyState.served_written {copy : OwnedObject} {versions : Versions}
    (fresh : before.Fresh copy.revision)
    (traces : Managed.Traces updater applier versions.first versions.later copy.fields) :
    (before.served srcVersion true (some copy)).Holds versions srcVersion ∧
      before.Leads key (before.served srcVersion true (some copy)) := by
  have changed : (some copy).map (·.revision) ≠ before.copy.map (·.revision) := by
    intro same
    cases former : before.copy with
    | none =>
      rw [former] at same
      cases same
    | some copy' =>
      rw [former] at same
      exact fresh.2 copy' former (Option.some.inj same)
  have revisions : (before.served srcVersion true (some copy)).former =
      (before.copy.map (·.revision)).toList ++ before.former := if_neg changed
  constructor
  · refine ⟨⟨copy, rfl, traces, ?_⟩, rfl⟩
    rw [revisions, List.mem_append]
    intro member
    rcases member with last | earlier
    · obtain ⟨copy', former, same⟩ := Option.map_eq_some_iff.mp (Option.mem_toList.mp last)
      exact fresh.2 copy' former same.symm
    · exact fresh.1 earlier
  · refine ⟨rfl, fun d records at_ revision synced => .inl ?_⟩
    rw [revisions, List.mem_append]
    rcases records at_ revision synced with earlier | ⟨copy', former, same, -⟩
    · exact .inr earlier
    · left
      rw [former, same]
      exact Option.mem_toList.mpr rfl

/-- Entries that record the copy still do so when it is left alone. -/
theorem CopyState.Leads.refl (key : ObjectKey) (state : CopyState) : state.Leads key state :=
  ⟨rfl, fun _ => id⟩

/-- A copy that holds the newest version twice holds it once. -/
theorem CopyState.Holds.once {versions : Versions} {origin : ObjectRevision}
    {content : Configured FieldPath String}
    (held : before.Holds (.next (some versions) content) origin)
    (same : content = versions.newest) : before.Holds versions origin := by
  obtain ⟨⟨copy, found, traces, new⟩, from_⟩ := held
  exact ⟨⟨copy, found, (Managed.traces_repeated same).mp traces, new⟩, from_⟩

/-- What making one more version the content of the copy leads to, for an entry of it and the
template. -/
structure Refreshed (key : ObjectKey) (srcVersion : ObjectRevision) (versions : Option Versions)
    (content : Configured FieldPath String) (before : CopyState) (d d' : DestinationStatus)
    (template : DynamicObject) (after : CopyState) : Prop where
  holds : after.Holds (.next versions content) srcVersion
  leads : before.Leads key after
  records : after.Records key d'
  target : d'.target = d.target
  template : template.content = content

namespace ResourceControllerImpl

variable {api : DynamicApi} {d : DestinationStatus} {state : UpsertState}
  {versions : Option Versions} {content : Configured FieldPath String}

/-- An entry of a copy that was written records it. -/
theorem records_synced {written : DynamicObject} {copy : OwnedObject}
    (revision : copy.revision = written.metadata.revision) :
    (before.served srcVersion true (some copy)).Records key (synced d srcVersion written) := by
  intro _ recorded same
  right
  refine ⟨copy, rfl, ?_, rfl⟩
  rw [revision]
  exact (Option.some.inj same).symm

/-- The attempt to create the copy succeeds. -/
theorem wp_createMissing_copy (designates : api.key d.name = key)
    (named : state.template.metadata.nameAny = d.name)
    (template : state.template.content = content) (absent : before.copy = none) :
    (createMissing api srcVersion d state).wp (copying key o srcVersion wanted)
      (fun value after => value.2.2 = .break_ ∧
        Refreshed key srcVersion none content before d value.1 value.2.1.template after)
      before := by
  unfold createMissing
  rw [wp_api]
  intro moved still reply after answered
  subst still
  refine ⟨trivial, ?_⟩
  have asked : (ApiRequest.create api state.template).At key := by
    show some (api.key state.template.metadata.nameAny) = some key
    rw [named, designates]
  obtain ⟨copy, created, rfl⟩ := answered.2.served asked
  rw [absent] at created
  obtain ⟨written, rfl, new, rfl⟩ := created.of_created
  rw [template]
  have held := @CopyState.served_written key srcVersion moved
    ⟨.created updater content, state.template.metadata.finalizerList, written.metadata.revision⟩
    (.next none content) new Managed.traces_created
  exact ⟨rfl, held.1, held.2, records_synced rfl, rfl, template⟩

/-- The attempt to update the copy succeeds, where an entry of it has the strategy to apply. -/
theorem wp_updateExisting_copy {current : DynamicObject} {versions : Versions}
    (designates : api.key d.name = key) (at_ : d.key = key)
    (applies : d.effectiveStrategy = .apply)
    (template : state.template.content = content) (records : before.Records key d)
    (shows : before.Shows (some versions) srcVersion content)
    (same : before.copy.map (·.revision) = some current.metadata.revision) :
    (updateExisting api srcVersion current d state).wp (copying key o srcVersion wanted)
      (fun value after => value.2.2 = .break_ ∧
        Refreshed key srcVersion (some versions) content before d value.1 value.2.1.template after)
      before := by
  obtain ⟨origin, held, repeats⟩ := shows
  obtain ⟨copy, exists_, traces, new⟩ := held.traces
  rw [exists_] at same
  have revision : copy.revision = current.metadata.revision := Option.some.inj same
  unfold updateExisting
  dsimp only
  by_cases stale : some current.metadata.revision ≠ d.syncedVersion ∨
      some srcVersion ≠ d.sourceVersion
  · rw [if_pos stale, applies]
    dsimp only
    rw [wp_api]
    intro moved still reply after answered
    subst still
    refine ⟨trivial, ?_⟩
    have asked : (ApiRequest.apply api d.name
        (withRevision state.template current.metadata.revision)).At key :=
      congrArg some designates
    obtain ⟨copy', applied, rfl⟩ := answered.2.served asked
    rw [exists_] at applied
    have agrees : copy.conflicts (withRevision state.template current.metadata.revision) =
        false := by
      rw [← revision]
      exact copy.conflicts_withRevision state.template
    obtain ⟨written, rfl, fresh, rfl⟩ := applied.of_applied agrees
    rw [withRevision_content, template]
    generalize copy.finalizers ++ List.filter _ _ = finalizers
    have distinct : updater ≠ applier := by decide
    have held' := @CopyState.served_written key srcVersion moved
      ⟨copy.fields.applied applier content, finalizers, written.metadata.revision⟩
      (.next (some versions) content) fresh (traces.applied distinct content)
    exact ⟨rfl, held'.1, held'.2, records_synced rfl, rfl, template⟩
  · -- Both recorded revisions are current, so that the source has not changed.
    rw [if_neg stale]
    obtain ⟨synced_, source⟩ := not_or.mp stale
    have recorded : d.syncedVersion = some copy.revision := by
      rw [revision]
      exact (not_not.mp synced_).symm
    have unchanged : origin = srcVersion := by
      rcases records at_ copy.revision recorded with former | ⟨copy', found, -, origin'⟩
      · exact absurd former new
      · rw [held.origin, ← not_not.mp source] at origin'
        exact (Option.some.inj origin').symm
    have traces' := (Managed.traces_repeated (repeats unchanged)).mpr traces
    refine ⟨rfl, ⟨⟨copy, exists_, traces', new⟩, ?_⟩, .refl key before, records, rfl, template⟩
    rw [held.origin, unchanged]

/-- The attempt to give the copy one more version succeeds, where an entry of it has the strategy to
apply. -/
theorem wp_upsertAttempt_copy (designates : api.key d.name = key) (at_ : d.key = key)
    (applies : d.effectiveStrategy = .apply) (named : state.template.metadata.nameAny = d.name)
    (template : state.template.content = content) (records : before.Records key d)
    (shows : before.Shows versions srcVersion content) :
    (upsertAttempt api srcVersion d state).wp (copying key o srcVersion wanted)
      (fun value after => value.2.2 = .break_ ∧
        Refreshed key srcVersion versions content before d value.1 value.2.1.template after)
      before := by
  unfold upsertAttempt
  dsimp only
  rw [wp_api]
  intro moved still reply middle answered
  subst still
  refine ⟨trivial, ?_⟩
  obtain ⟨copy, read, rfl⟩ := answered.2.served designates
  cases versions with
  | none =>
    have absent : moved.copy = none := shows
    rw [absent] at read
    obtain ⟨rfl, e, rfl, missing⟩ := read.of_missing
    have same := @CopyState.served_same srcVersion moved
    rw [absent] at same
    dsimp only [Answer.writes]
    rw [if_pos missing, same]
    exact wp_createMissing_copy designates named template absent
  | some versions =>
    obtain ⟨origin, held, repeats⟩ := shows
    obtain ⟨found, exists_, -⟩ := held.traces
    rw [exists_] at read
    obtain ⟨rfl, current, rfl, revision, present⟩ := read.of_found
    have same := @CopyState.served_same srcVersion moved
    rw [exists_] at same
    dsimp only [Answer.writes]
    rw [if_neg (Bool.eq_false_iff.mp present), same]
    refine wp_updateExisting_copy designates at_ applies template records
      ⟨origin, held, repeats⟩ ?_
    rw [exists_, revision]
    rfl

/-- The attempts to give the copy one more version succeed, where an entry of it has the strategy to
apply. -/
theorem wp_upsertLoop_copy (attempts : Nat) (designates : api.key d.name = key)
    (at_ : d.key = key) (applies : d.effectiveStrategy = .apply)
    (named : state.template.metadata.nameAny = d.name)
    (template : state.template.content = content) (records : before.Records key d)
    (shows : before.Shows versions srcVersion content) :
    (upsertLoop api srcVersion (attempts + 1) d state).wp (copying key o srcVersion wanted)
      (fun value after =>
        Refreshed key srcVersion versions content before d value.1 value.2.template after)
      before := by
  rw [upsertLoop, wp_bind]
  refine wp_imp ?_ (wp_upsertAttempt_copy designates at_ applies named template records shows)
  rintro ⟨d', state', flow⟩ after ⟨last, refreshed⟩
  have flow_ : flow = .break_ := last
  rw [flow_]
  exact refreshed

section Template

variable {kept : DynamicObject → Prop}
  (revised : ∀ template revision, kept template → kept (withRevision template revision))

include revised

/-- Updating puts a revision into the template. -/
theorem template_updateExisting {current : DynamicObject} (start : kept state.template) :
    (updateExisting api srcVersion current d state).wp (.requests Honest fun _ => True)
      (fun value _ => kept value.2.1.template) () := by
  unfold updateExisting
  dsimp only
  have start' : kept (withRevision state.template current.metadata.revision) := revised _ _ start
  split
  · cases d.effectiveStrategy <;> dsimp only <;> rw [wp_api] <;> intro _ _ reply after _
    · refine ⟨trivial, ?_⟩
      cases reply with
      | ok updated => exact start'
      | error e =>
        dsimp only
        split <;> exact start'
    · refine ⟨trivial, ?_⟩
      cases reply with
      | ok updated => exact start'
      | error e =>
        dsimp only
        split <;> exact start'
  · exact start

omit revised in
/-- Creating a copy leaves what is known of the template. -/
theorem template_createMissing (start : kept state.template) :
    (createMissing api srcVersion d state).wp (.requests Honest fun _ => True)
      (fun value _ => kept value.2.1.template) () := by
  unfold createMissing
  rw [wp_api]
  intro _ _ reply after _
  refine ⟨trivial, ?_⟩
  cases reply with
  | ok created => exact start
  | error e =>
    dsimp only
    split <;> exact start

/-- An attempt puts revisions into the template. -/
theorem template_upsertAttempt (start : kept state.template) :
    (upsertAttempt api srcVersion d state).wp (.requests Honest fun _ => True)
      (fun value _ => kept value.2.1.template) () := by
  unfold upsertAttempt
  dsimp only
  have start' : kept (withRevision state.template ⟨none, none⟩) := revised _ _ start
  rw [wp_api]
  intro _ _ reply after _
  refine ⟨trivial, ?_⟩
  cases reply with
  | ok current =>
    dsimp only
    split
    · rw [wp_bind]
      refine wp_imp (fun value _ _ => ?_)
        (@requests_removeFinalizer (fun _ => True) api current finalizer fun _ => trivial)
      split
      · exact start'
      · exact template_updateExisting revised start'
    · exact template_updateExisting revised start'
  | error e =>
    dsimp only
    split
    · exact template_createMissing start'
    · exact start'

/-- What no revision changes of a template, no attempt changes. -/
theorem template_upsertLoop (attempts : Nat) (start : kept state.template) :
    (upsertLoop api srcVersion attempts d state).wp (.requests Honest fun _ => True)
      (fun value _ => kept value.2.template) () := by
  induction attempts generalizing d state with
  | zero => exact start
  | succ attempts ih =>
    rw [upsertLoop, wp_bind]
    refine wp_imp ?_ (template_upsertAttempt revised start)
    rintro ⟨d', state', flow⟩ _ start'
    cases flow with
    | continue_ => exact ih start'
    | break_ => exact start'

end Template

/-- The attempts for any other destination leave the copy alone. -/
theorem wp_upsertLoop_other (attempts : Nat) (other : api.key d.name ≠ key)
    (named : state.template.metadata.nameAny = d.name)
    (template : state.template.content = content) :
    (upsertLoop api srcVersion attempts d state).wp (copying key o srcVersion wanted)
      (fun value after => after = before ∧ value.1.target = d.target ∧
        value.2.template.content = content)
      before := by
  let asked (call : Call) : Prop := ∃ request, call = .api request ∧ Upsert api d.name request
  have asks := @requests_upsertLoop asked api srcVersion d state attempts
    (fun request upsert => ⟨request, rfl, upsert⟩) named
  have keeps := @template_upsertLoop srcVersion api d state
    (fun template => template.content = content)
    (fun template revision kept => (withRevision_content template revision).trans kept) attempts
    template
  have shape : (upsertLoop api srcVersion attempts d state).wp
      (.requests Honest fun call => asked call ∧ True)
      (fun value _ => value.1.target = d.target ∧ value.2.template.content = content) () :=
    wp_and asks keeps
  refine wp_imp ?_ (@wp_requests _ _ _ _ (copying key o srcVersion wanted) _ _ (· = before) _ _ _
    shape (fun _ _ _ _ answered => answered.1) ?_ ?_ rfl)
  · rintro value after ⟨⟨target, kept⟩, same⟩
    exact ⟨same, target, kept⟩
  · rintro _ _ rfl rfl
    rfl
  · rintro _ call reply after rfl ⟨⟨request, rfl, upsert⟩, -⟩ answered
    refine ⟨trivial, ?_⟩
    have elsewhere : ¬request.At key := by
      cases upsert with
      | get => exact other
      | create created =>
        intro at_
        have at_' : api.key _ = key := Option.some.inj at_
        rw [created] at at_'
        exact other at_'
      | _ => exact fun at_ => other (Option.some.inj at_)
    have effect := answered.2
    unfold CopyAnswered at effect
    dsimp only at effect
    rw [if_neg elsewhere] at effect
    cases upsert <;> exact effect

/-- The loop over the destinations, on its way to one more version of the copy. -/
structure Refreshing (controller : ResourceControllerImpl) (key : ObjectKey)
    (srcVersion : ObjectRevision) (staleRemnants : List DestinationStatus)
    (versions : Option Versions)
    (content : Configured FieldPath String) (recorded handled todo : List DestinationStatus)
    (state : UpsertState) (world : CopyState) : Prop where
  designates : ∀ d ∈ todo, isRemnant staleRemnants d = false →
    (controller.namespacedApi d.namespace_).key d.name = d.key
  applies : ∀ d ∈ todo, d.key = key →
    isRemnant staleRemnants d = false ∧ d.effectiveStrategy = .apply
  template : state.template.content = content
  kept : world.recorded = recorded
  records : ∀ d, d ∈ handled ∨ d ∈ todo ∨ d ∈ recorded → world.Records key d
  shows : world.Holds (.next versions content) srcVersion ∨
    world.Shows versions srcVersion content ∧ ∃ d ∈ todo, d.key = key

variable {self : ResourceControllerImpl}
  {staleRemnants recorded handled todo : List DestinationStatus} {world : CopyState}

/-- A destination that is handled gets into the handled ones. -/
theorem Refreshing.pass {state' : UpsertState} {d' : DestinationStatus}
    (refreshing : Refreshing self key srcVersion staleRemnants versions content recorded handled
      (d :: todo) state world)
    (leads : world.Leads key after) (template : state'.template.content = content)
    (records : after.Records key d')
    (shows : after.Holds (.next versions content) srcVersion ∨
      after.Shows versions srcVersion content ∧ ∃ d ∈ todo, d.key = key) :
    Refreshing self key srcVersion staleRemnants versions content recorded (handled ++ [d']) todo
      state' after := by
  constructor
  · exact fun other member => refreshing.designates other (List.mem_cons_of_mem _ member)
  · exact fun other member => refreshing.applies other (List.mem_cons_of_mem _ member)
  · exact template
  · exact leads.1.trans refreshing.kept
  · intro other member
    rcases member with member | member | member
    · rcases List.mem_append.mp member with member | last
      · exact leads.2 other (refreshing.records other (.inl member))
      · rw [List.mem_singleton.mp last]
        exact records
    · exact leads.2 other (refreshing.records other (.inr (.inl (List.mem_cons_of_mem _ member))))
    · exact leads.2 other (refreshing.records other (.inr (.inr member)))
  · exact shows

/-- Where the first destination is not the copy, that is still to come. -/
theorem Refreshing.later
    (refreshing : Refreshing self key srcVersion staleRemnants versions content recorded handled
      (d :: todo) state world)
    (other : d.key ≠ key) :
    world.Holds (.next versions content) srcVersion ∨
      world.Shows versions srcVersion content ∧ ∃ d ∈ todo, d.key = key := by
  rcases refreshing.shows with held | ⟨shows, d', member, at_⟩
  · exact .inl held
  · rcases List.mem_cons.mp member with same | member
    · rw [same] at at_
      exact absurd at_ other
    · exact .inr ⟨shows, d', member, at_⟩

/-- The loop over the destinations makes one more version the content of the copy, when that is one
of them and all entries of it have the strategy to apply. -/
theorem wp_upsertEach_copy (destinations : List DestinationStatus)
    (start : Refreshing self key srcVersion staleRemnants versions content recorded []
      destinations state world) :
    (self.upsertEach srcVersion staleRemnants destinations state).wp
      (copying key o srcVersion wanted)
      (fun value after => after.Holds (.next versions content) srcVersion ∧
        after.recorded = recorded ∧ (∀ d ∈ recorded, after.Records key d) ∧
        ∀ d ∈ value.1, after.Records key d)
      world := by
  refine wp_imp ?_ (wp_upsertEach_loop self staleRemnants ?_ ?_ [] destinations state world start)
  · intro value after refreshed
    have held := refreshed.shows.resolve_right
      fun later => later.2.elim fun d member => absurd member.1 List.not_mem_nil
    exact ⟨held, refreshed.kept, fun d member => refreshed.records d (.inr (.inr member)),
      fun d member => refreshed.records d (.inl member)⟩
  · intro handled d todo state world remnant refreshing
    have other : d.key ≠ key := by
      intro at_
      have wanted := refreshing.applies d List.mem_cons_self at_
      rw [wanted.1] at remnant
      cases remnant
    exact refreshing.pass (.refl key world) refreshing.template
      (refreshing.records d (.inr (.inl List.mem_cons_self))) (refreshing.later other)
  · intro handled d todo state world remnant refreshing
    have designates := refreshing.designates d List.mem_cons_self remnant
    have records := refreshing.records d (.inr (.inl List.mem_cons_self))
    have template : (fitTemplate state.template d).content = content :=
      (fitTemplate_content state.template d).trans refreshing.template
    by_cases at_ : d.key = key
    · have applies := (refreshing.applies d List.mem_cons_self at_).2
      have designates' := designates.trans at_
      rcases refreshing.shows with held | ⟨shows, -⟩
      · -- Another entry of the copy was handled before.
        have shows : world.Shows (some (.next versions content)) srcVersion content :=
          ⟨srcVersion, held, fun _ => (Versions.newest_next versions content).symm⟩
        refine wp_imp ?_ (wp_upsertLoop_copy 2 designates' at_ applies rfl template records shows)
        intro value after refreshed
        exact refreshing.pass refreshed.leads refreshed.template refreshed.records
          (.inl (refreshed.holds.once (Versions.newest_next versions content).symm))
      · refine wp_imp ?_ (wp_upsertLoop_copy 2 designates' at_ applies rfl template records shows)
        intro value after refreshed
        exact refreshing.pass refreshed.leads refreshed.template refreshed.records
          (.inl refreshed.holds)
    · have elsewhere : (self.namespacedApi d.namespace_).key d.name ≠ key :=
        fun same => at_ (designates.symm.trans same)
      refine wp_imp ?_ (wp_upsertLoop_other 3 elsewhere rfl template)
      rintro value after ⟨rfl, target, template'⟩
      have key' : value.1.key = d.key := by
        rw [← DestinationStatus.target_key, target, DestinationStatus.target_key]
      refine refreshing.pass (.refl key after) template' ?_ (refreshing.later at_)
      exact fun at_' => absurd (key'.symm.trans at_') at_

end ResourceControllerImpl

end Upsert

/-! ## Runs for the copy -/

section Runs

variable {key : ObjectKey} {o : ObjectSyncRef} {srcVersion : ObjectRevision}
  {wanted : List Namespace → Prop} {before after : CopyState} {event : ObjectSyncModifications}

/-- A request for something else than the copy or the status leaves the copy alone. -/
theorem CopyAnswered.elsewhere {request : ApiRequest} {reply : Except KubeError (ApiValue request)}
    (answered : CopyAnswered key o srcVersion wanted before (.api request) reply after)
    (other : ¬request.At key) (unwritten : ∀ sync body, request ≠ .replaceSyncStatus sync body) :
    after = before := by
  unfold CopyAnswered at answered
  dsimp only at answered
  rw [if_neg other] at answered
  cases request with
  | replaceSyncStatus sync body => exact absurd rfl (unwritten sync body)
  | _ => exact answered

/-- The status differs at most, which is recorded now. -/
def CopyState.Recording (before after : CopyState) (recorded : List DestinationStatus) : Prop :=
  after = { before with recorded := recorded }

/-- What a copy shows is not in the status. -/
theorem CopyState.Recording.shows {recorded : List DestinationStatus} {versions : Option Versions}
    {content : Configured FieldPath String} (recording : before.Recording after recorded)
    (shows : before.Shows versions srcVersion content) :
    after.Shows versions srcVersion content := by
  rw [recording]
  cases versions with
  | none => exact shows
  | some versions =>
    obtain ⟨origin, held, repeats⟩ := shows
    exact ⟨origin, ⟨held.traces, held.origin⟩, repeats⟩

/-- The working copy has the recorded destinations as its original ones. -/
structure CopyInTouch (o : ObjectSyncRef) (event : ObjectSyncModifications) (state : CopyState) :
    Prop where
  of : event.Of o
  original : event.original.destinationList = state.recorded

/-- A success of writing the status records it. -/
theorem wp_replaceStatus_copy (inTouch : CopyInTouch o event before) :
    event.replaceStatus.wp (copying key o srcVersion wanted)
      (fun value after => value.2 = .ok () →
        before.Recording after event.modified.destinationList ∧ CopyInTouch o value.1 after ∧
          value.1.modified.status = event.modified.status) before := by
  have of := inTouch.of
  unfold ObjectSyncModifications.replaceStatus
  by_cases changed : event.statusHasChanged = true
  · rw [if_pos changed]
    unfold ObjectSyncModifications.latest
    rw [of.addressed, wp_api]
    intro moved still reply middle answered
    subst still
    have unwritten (sync : NamespacedName) (body : ObjectSync) :
        ApiRequest.getSyncStatus o.name ≠ .replaceSyncStatus sync body := ApiRequest.noConfusion
    have same := answered.2.elsewhere (ApiRequest.not_at_getSyncStatus key o.name) unwritten
    subst same
    refine ⟨trivial, ?_⟩
    cases reply with
    | error e => exact nofun
    | ok latest =>
      dsimp only
      rw [wp_bind]
      unfold ObjectSyncModifications.replaceStatusWith
      dsimp only
      rw [ObjectSyncModifications.address_withResourceVersion, of.addressed, wp_api]
      intro moved still reply after answered
      subst still
      refine ⟨trivial, ?_⟩
      cases reply with
      | error e => exact nofun
      | ok written =>
        intro _
        have recorded : moved.Recording after event.modified.destinationList := by
          have persisted := answered.2
          unfold CopyAnswered at persisted
          dsimp only at persisted
          rw [if_neg (ApiRequest.not_at_replaceSyncStatus key o.name _), if_pos rfl] at persisted
          exact persisted
        have status : written.status = event.modified.status := answered.1.2
        refine ⟨recorded, ⟨ObjectSyncModifications.of_new answered.1.1, ?_⟩, status⟩
        rw [recorded]
        show written.destinationList = event.modified.destinationList
        rw [ObjectSync.destinationList, ObjectSync.destinationList, ObjectSync.statusDestinations,
          ObjectSync.statusDestinations, status]
  · rw [if_neg changed]
    have same : event.original.status = event.modified.status := by
      simpa [ObjectSyncModifications.statusHasChanged] using changed
    have listed : event.modified.destinationList = before.recorded := by
      rw [← inTouch.original, ObjectSync.destinationList, ObjectSync.destinationList,
        ObjectSync.statusDestinations, ObjectSync.statusDestinations, same]
    intro _
    refine ⟨?_, inTouch, rfl⟩
    rw [CopyState.Recording, listed]

namespace ResourceControllerImpl

variable {self : ResourceControllerImpl}

/-- Deleting other destinations leaves the copy alone. -/
theorem wp_deleteDestinations_other (destinations : List DestinationStatus)
    (other : ∀ d ∈ destinations, d.key ≠ key) :
    (deleteDestinations destinations).wp (copying key o srcVersion wanted)
      (fun result after => (∀ remaining, result = .ok remaining → remaining.Sublist destinations) ∧
        after = before) before := by
  let asked (call : Call) : Prop := ∃ d ∈ destinations, ∃ request, call = .api request ∧
    d.Removal request
  have shape := @requests_deleteDestinations asked destinations
    (fun d member request removal => ⟨d, member, request, rfl, removal⟩)
  refine wp_requests shape (fun _ _ _ _ answered => answered.1) ?_ ?_ rfl
  · rintro _ _ rfl rfl
    rfl
  · rintro _ call reply after rfl ⟨d, member, request, rfl, removal⟩ answered
    refine ⟨trivial, answered.2.elsewhere ?_ ?_⟩
    · have different := other d member
      cases removal with
      | get => exact different
      | _ => exact fun at_ => different (Option.some.inj at_)
    · intro sync body same
      cases removal <;> cases same

/-- The destination is expected, with the strategy to apply. -/
structure Wants (controller : ResourceControllerImpl) (key : ObjectKey) (sync : ObjectSync)
    (cache : List Namespace) : Prop where
  expected : ∃ target ∈ expectedDestinations sync cache,
    (controller.expectedStatus target).key = key
  applies : ∀ target ∈ expectedDestinations sync cache,
    (controller.expectedStatus target).key = key →
      (controller.expectedStatus target).effectiveStrategy = .apply

variable {versions : Option Versions} {content : Configured FieldPath String}

/-- What a run for one more version of the source leads to: the copy holds it, and all recorded
entries of the copy record it. -/
structure CopySynced (key : ObjectKey) (srcVersion : ObjectRevision) (versions : Versions)
    (state : CopyState) : Prop where
  holds : state.Holds versions srcVersion
  records : ∀ d ∈ state.recorded, state.Records key d

/-- Steps 3 and 4 of a run make one more version the content of the copy, when that is tracked. -/
theorem wp_syncDestinations_copy {source : DynamicObject}
    {destinations staleRemnants : List DestinationStatus} {removedCount : Nat}
    (inTouch : CopyInTouch o event before)
    (tracked : event.modified.statusDestinations = some destinations)
    (start : Refreshing self key source.metadata.revision staleRemnants versions
      (sourceTemplate source).content before.recorded [] destinations
      ⟨sourceTemplate source, false, 0⟩ before) :
    (self.syncDestinations event source staleRemnants removedCount).wp
      (copying key o source.metadata.revision wanted)
      (fun value after => value.2 = .ok () → CopySynced key source.metadata.revision
        (.next versions (sourceTemplate source).content) after) before := by
  unfold syncDestinations upsertDestinations
  rw [tracked]
  dsimp only
  rw [wp_bind, wp_bind]
  refine wp_imp ?_ (wp_upsertEach_copy destinations start)
  rintro ⟨destinations', state⟩ middle ⟨held, same, kept, records⟩
  rw [pure_eq, wp_done]
  dsimp only at records ⊢
  split
  · rw [wp_bind]
    unfold ObjectSyncModifications.updateCondition
    rw [wp_clock]
    intro moved still time read answered
    subst still
    refine ⟨trivial, ?_⟩
    have still : read = moved := answered.2
    subst still
    rw [pure_eq, wp_done]
    generalize condition : inSyncCondition _ _ = inSync
    have inTouch' : CopyInTouch o ((event.updateDestinations destinations').modify
        (·.updateCondition time inSync)) read := by
      have of : (event.updateDestinations destinations').Of o := inTouch.of.modify rfl rfl
      exact ⟨of.modify rfl rfl, inTouch.original.trans same.symm⟩
    have listed : ((event.updateDestinations destinations').modify
        (·.updateCondition time inSync)).modified.destinationList = destinations' :=
      ObjectSync.updateCondition_destinationList ..
    refine wp_imp ?_ (wp_replaceStatus_copy inTouch')
    intro value after written finished
    obtain ⟨recording, -, -⟩ := written finished
    rw [listed] at recording
    rw [recording]
    exact ⟨⟨held.traces, held.origin⟩, records⟩
  · intro _
    refine ⟨held, ?_⟩
    rw [same]
    exact kept

section Wants

variable {sync : ObjectSync} {cache : List Namespace}

/-- A stale entry is not of the destination, which is expected. -/
theorem Wants.stale_other (wants : self.Wants key sync cache) : ∀ d ∈ (self.splitDestinations
    (expectedDestinations sync cache) sync.destinationList).2, d.key ≠ key := by
  intro d member at_
  rw [splitDestinations_stale, List.mem_filter] at member
  obtain ⟨target, listed, same⟩ := wants.expected
  have different := List.all_eq_true.mp member.2 target listed
  exact of_decide_eq_true different (at_.trans same.symm)

/-- The entries that are written ahead record what the entries recorded before. -/
theorem Wants.records {staleRemnants : List DestinationStatus} {world : CopyState}
    (wants : self.Wants key sync cache) (fewer : staleRemnants.Sublist (self.splitDestinations
      (expectedDestinations sync cache) sync.destinationList).2)
    (records : ∀ d ∈ sync.destinationList, world.Records key d) :
    ∀ d ∈ sortDestinations ((self.splitDestinations (expectedDestinations sync cache)
      sync.destinationList).1 ++ staleRemnants), world.Records key d := by
  intro d member
  rcases List.mem_append.mp ((sortDestinations_perm _).mem_iff.mp member) with member | remnant
  · rcases self.revisions_of_splitDestinations (expectedDestinations sync cache)
      sync.destinationList d member with new | ⟨status, listed, same, -, synced, source_⟩
    · intro _ revision recorded
      rw [new.1] at recorded
      cases recorded
    · have former := records status listed
      rw [CopyState.Records, same, synced, source_] at former
      exact former
  · exact fun at_ => absurd at_ (wants.stale_other d (fewer.subset remnant))

/-- The loop over the entries that are written ahead may start. -/
theorem Wants.refreshing {staleRemnants : List DestinationStatus} {world : CopyState}
    {template : DynamicObject} (wants : self.Wants key sync cache)
    (fewer : staleRemnants.Sublist (self.splitDestinations (expectedDestinations sync cache)
      sync.destinationList).2)
    (records : ∀ d ∈ world.recorded, world.Records key d)
    (kept : world.recorded = sortDestinations ((self.splitDestinations
      (expectedDestinations sync cache) sync.destinationList).1 ++ staleRemnants))
    (shows : world.Shows versions srcVersion template.content) :
    Refreshing self key srcVersion staleRemnants versions template.content world.recorded []
      world.recorded ⟨template, false, 0⟩ world := by
  have designated {d : DestinationStatus} (member : d ∈ world.recorded)
      (current : isRemnant staleRemnants d = false) :=
    exists_target_of_mem_expected (mem_of_not_isRemnant (kept ▸ member) current)
  refine ⟨?_, ?_, rfl, rfl, ?_, .inr ⟨shows, ?_⟩⟩
  · intro d member current
    obtain ⟨target, -, designates⟩ := designated member current
    exact namespacedApi_key designates
  · intro d member at_
    have current : isRemnant staleRemnants d = false := by
      refine Bool.eq_false_iff.mpr fun remnant => ?_
      obtain ⟨v, listed, same⟩ := isRemnant_iff.mp remnant
      exact wants.stale_other v (fewer.subset listed) (same.trans at_)
    obtain ⟨target, listed, designates⟩ := designated member current
    have same : (self.expectedStatus target).key = key := by
      rw [designates, DestinationStatus.target_key, at_]
    have applies := wants.applies target listed same
    rw [designates] at applies
    exact ⟨current, applies⟩
  · intro d member
    rcases member with handled | todo | listed
    · exact absurd handled List.not_mem_nil
    · exact records d todo
    · exact records d listed
  · obtain ⟨target, listed, same⟩ := wants.expected
    have expected : key ∈ (self.splitDestinations (expectedDestinations sync cache)
        sync.destinationList).1.map (·.key) := by
      rw [splitDestinations_expected_keys, ← same]
      exact List.mem_map_of_mem listed
    obtain ⟨d, member, at_⟩ := List.mem_map.mp expected
    refine ⟨d, ?_, at_⟩
    rw [kept, (sortDestinations_perm _).mem_iff]
    exact List.mem_append_left _ member

end Wants

/-- A run makes one more version of the source the content of the copy, when that is expected with
the strategy to apply. -/
theorem wp_reconcileSource_copy {sync : ObjectSync} {source : DynamicObject}
    (identity : ObjectSyncRef.ofSync sync = o) (recorded : sync.destinationList = before.recorded)
    (records : ∀ d ∈ before.recorded, before.Records key d)
    (shows : before.Shows versions source.metadata.revision (sourceTemplate source).content) :
    (self.reconcileSource (.new sync) source).wp
      (copying key o source.metadata.revision (self.Wants key sync))
      (fun value after => value.2 = .ok () → CopySynced key source.metadata.revision
        (.next versions (sourceTemplate source).content) after) before := by
  unfold reconcileSource
  rw [wp_namespaces]
  intro moved still cache start answered
  subst still
  refine ⟨trivial, ?_⟩
  obtain ⟨-, wants, rfl⟩ := answered
  have unmodified : (ObjectSyncModifications.new sync).modified = sync := rfl
  rw [unmodified]
  generalize split : self.splitDestinations (expectedDestinations sync cache)
    sync.destinationList = parts
  obtain ⟨expected, stale⟩ := parts
  dsimp only
  have other : ∀ d ∈ stale, d.key ≠ key := by
    have apart := wants.stale_other
    rw [split] at apart
    exact apart
  rw [wp_bind]
  refine wp_imp ?_ (wp_deleteDestinations_other stale other)
  rintro result middle ⟨fewer, rfl⟩
  cases result with
  | error e => exact nofun
  | ok staleRemnants =>
    have fewer : staleRemnants.Sublist (self.splitDestinations (expectedDestinations sync cache)
        sync.destinationList).2 := by
      rw [split]
      exact fewer staleRemnants rfl
    dsimp only
    rw [wp_bind]
    have inTouch : CopyInTouch o ((ObjectSyncModifications.new sync).updateDestinations
        (sortDestinations (expected ++ staleRemnants))) middle := by
      have of : (ObjectSyncModifications.new sync).Of o := ObjectSyncModifications.of_new identity
      exact ⟨of.modify rfl rfl, recorded⟩
    refine wp_imp ?_ (wp_replaceStatus_copy inTouch)
    intro value tracking written
    obtain ⟨event, result⟩ := value
    cases result with
    | error e => exact nofun
    | ok =>
      obtain ⟨recording, inTouch', status⟩ := written rfl
      dsimp only
      have kept : tracking.recorded = sortDestinations ((self.splitDestinations
          (expectedDestinations sync cache) sync.destinationList).1 ++ staleRemnants) := by
        rw [recording, split]
        rfl
      have tracked : event.modified.statusDestinations = some tracking.recorded := by
        rw [kept, split, ObjectSync.statusDestinations, status]
        rfl
      have records' : ∀ d ∈ tracking.recorded, tracking.Records key d := by
        rw [kept, recording]
        exact wants.records fewer (recorded ▸ records)
      exact wp_syncDestinations_copy inTouch' tracked
        (wants.refreshing fewer records' kept (recording.shows shows))

end ResourceControllerImpl

end Runs

section History

variable {contents : ObjectRevision → Configured FieldPath String} {self : ResourceControllerImpl}
  {key : ObjectKey} {o : ObjectSyncRef}

/-- The runs without error that have synced one version of a source after the other to a copy that
did not exist before and that nobody else writes. Revisions of the source determine the templates
made from it. -/
inductive CopyRuns (contents : ObjectRevision → Configured FieldPath String)
    (controller : ResourceControllerImpl) (key : ObjectKey) (o : ObjectSyncRef) :
    Option Versions → CopyState → Prop
  /-- There is no copy. If one is recorded, it was another one. -/
  | start {state : CopyState} : state.copy = none →
      (∀ d ∈ state.recorded, d.key = key → ∀ revision, d.syncedVersion = some revision →
        revision ∈ state.former) →
      CopyRuns contents controller key o none state
  /-- One more version is synced. -/
  | sync {versions : Option Versions} {before after : CopyState} {sync : ObjectSync}
      {source : DynamicObject} {event : ObjectSyncModifications} :
      CopyRuns contents controller key o versions before →
      ObjectSyncRef.ofSync sync = o → sync.destinationList = before.recorded →
      (ResourceControllerImpl.sourceTemplate source).content = contents source.metadata.revision →
      Program.Returns (copying key o source.metadata.revision (controller.Wants key sync)).rely
        (copying key o source.metadata.revision (controller.Wants key sync)).answers
        (controller.reconcileSource (.new sync) source) before (event, .ok ()) after →
      CopyRuns contents controller key o
        (some (.next versions (ResourceControllerImpl.sourceTemplate source).content)) after

/-- The copy shows all versions that were synced, and the status records it. -/
theorem CopyRuns.shows {versions : Option Versions} {state : CopyState}
    (runs : CopyRuns contents self key o versions state) :
    (∀ srcVersion, state.Shows versions srcVersion (contents srcVersion)) ∧
      ∀ d ∈ state.recorded, state.Records key d := by
  induction runs with
  | start absent former =>
    refine ⟨fun _ => absent, fun d member at_ revision recorded => ?_⟩
    exact .inl (former d member at_ revision recorded)
  | @sync versions before after sync source event _ identity recorded determined returned ih =>
    have shows := ih.1 source.metadata.revision
    rw [← determined] at shows
    have synced := returned.meets
      (ResourceControllerImpl.wp_reconcileSource_copy identity recorded ih.2 shows) rfl
    refine ⟨fun srcVersion => ⟨source.metadata.revision, synced.holds, fun same => ?_⟩,
      synced.records⟩
    rw [Versions.newest_next, determined, same]

/-- **What is removed from a source stays in its copies.** After error-free runs that have synced
one version after the other, a copy has the content of the newest template exactly if that omits no
field of the first one that no version in between has given another value. -/
theorem copy_content_iff {versions : Versions} {state : CopyState}
    (runs : CopyRuns contents self key o (some versions) state) :
    ∃ copy, state.copy = some copy ∧
      (copy.fields.values = versions.newest ↔
        ∀ path value, Managed.Unrevised versions.first versions.later path value →
          versions.newest path ≠ none) := by
  obtain ⟨origin, held, -⟩ := runs.shows.1 ⟨none, none⟩
  obtain ⟨copy, exists_, traces, -⟩ := held.traces
  exact ⟨copy, exists_, traces.values_eq_iff⟩

end History

/-! ## Copies of the settings -/

/-- The key of the copy of the settings. -/
def settingsCopyKey : ObjectKey := ⟨"", "ConfigMap", "team", "settings"⟩

/-- A version of the settings. -/
def settingsVersion (data : StringMap) (resourceVersion : String) : DynamicObject :=
  ResourceControllerImpl.withRevision { settingsSource with data := data }
    ⟨some "s", some resourceVersion⟩

/-- The copy of a version of the settings, as it is read at a revision. -/
def settingsRead (data : StringMap) (revision : ObjectRevision) : DynamicObject :=
  ResourceControllerImpl.withRevision
    (ResourceControllerImpl.fitTemplate
      (ResourceControllerImpl.sourceTemplate (settingsVersion data ""))
      (configMaps.expectedStatus ("team", "settings", none))) revision

namespace CopyState

/-- Answer the calls of a run for the copy of the settings: it is read as a given object, and
written at a given revision. -/
def answer (srcVersion : ObjectRevision) (read : DynamicObject) (written : ObjectRevision)
    (state : CopyState) : (call : Call) → Reply call × CopyState
  | .api (.get ..) =>
    match state.copy with
    | none => (.error (.api 404 "not found"), state)
    | some _ => (.ok read, state)
  | .api (.create _ body) =>
    let object := ResourceControllerImpl.withRevision body written
    (.ok object, state.served srcVersion true
      (some ⟨.created updater body.content, body.metadata.finalizerList, written⟩))
  | .api (.apply _ _ body) =>
    match state.copy with
    | none => (.error (.api 404 "not found"), state)
    | some copy =>
      let object := ResourceControllerImpl.withRevision body written
      (.ok object, state.served srcVersion true
        (some ⟨copy.fields.applied applier body.content,
          copy.finalizers ++ body.metadata.finalizerList.filter (· ∉ copy.finalizers), written⟩))
  | .api (.replaceSyncStatus sync body) =>
    (.ok (settingsSyncAt sync body.status), { state with recorded := body.destinationList })
  | .api (.getSync sync) | .api (.getSyncStatus sync) => (.ok (settingsSyncAt sync none), state)
  | .api _ => (.error (.api 403 "forbidden"), state)
  | .memory op => (op.idleReply, state)
  | .namespaces => (settingsNamespaces, state)
  | .clock => ("now", state)

/-- The calls for the copy that are answered if it is at the revision of the object that is read,
and those for the status of the ObjectSync. -/
def answers (read : DynamicObject) (written : ObjectRevision) (state : CopyState) : Call → Bool
  | .api (.get api name) => api.key name == settingsCopyKey &&
    state.copy.all fun copy => copy.revision == read.metadata.revision
  | .api (.create api body) => api.key body.metadata.nameAny == settingsCopyKey &&
    state.copy.isNone && decide (written ∉ state.former)
  | .api (.apply api name body) =>
    api.key name == settingsCopyKey && decide (written ∉ state.former) &&
    state.copy.any fun copy => !copy.conflicts body && written != copy.revision
  | .api (.replaceSyncStatus sync _) => sync == settingsRef.name
  | .api (.getSyncStatus _) | .namespaces | .clock => true
  | _ => false

/-- The copy is as it is read, when it is at the revision that is read. -/
def ReadAs (read : DynamicObject) (state : CopyState) : Prop :=
  ∀ copy, state.copy = some copy → copy.revision = read.metadata.revision →
    copy.fields.values = read.content ∧ read.metadata.finalizers = some copy.finalizers

/-- The answers to a run that copies the settings are possible. -/
theorem answer_allowed {srcVersion : ObjectRevision} {read : DynamicObject}
    {written : ObjectRevision} {wanted : List Namespace → Prop} (wants : wanted settingsNamespaces)
    (named : read.metadata.nameAny = "settings") (present : read.metadata.terminating = false)
    (other : written ≠ read.metadata.revision) (state : CopyState) (call : Call)
    (readAs : state.ReadAs read) (checked : answers read written state call = true) :
    (copying settingsCopyKey settingsRef srcVersion wanted).answers state call
        (state.answer srcVersion read written call).1
        (state.answer srcVersion read written call).2 ∧
      (state.answer srcVersion read written call).2.ReadAs read := by
  cases call with
  | api request =>
    cases request with
    | get api name =>
      obtain ⟨at_, revisions⟩ := Bool.and_eq_true_iff.mp checked
      have at_ : api.key name = settingsCopyKey := eq_of_beq at_
      have name_ : name = "settings" := congrArg (·.name) at_
      obtain ⟨copy, origin, former, recorded⟩ := state
      cases copy with
      | none =>
        have same := @CopyState.served_same srcVersion ⟨none, origin, former, recorded⟩
        exact ⟨⟨trivial, CopyAnswered.of_served at_ ⟨none, .missing rfl, same.symm⟩⟩, readAs⟩
      | some copy =>
        have same := @CopyState.served_same srcVersion
          ⟨some copy, origin, former, recorded⟩
        have revision : copy.revision = read.metadata.revision := eq_of_beq revisions
        obtain ⟨content, finalizers⟩ := readAs copy rfl revision
        refine ⟨⟨named.trans name_.symm, CopyAnswered.of_served at_ ?_⟩, readAs⟩
        exact ⟨some copy, .found revision.symm present finalizers content.symm, same.symm⟩
    | create api body =>
      obtain ⟨rest, unused⟩ := Bool.and_eq_true_iff.mp checked
      obtain ⟨at_, absent⟩ := Bool.and_eq_true_iff.mp rest
      have at_ : some (api.key body.metadata.nameAny) = some settingsCopyKey :=
        congrArg some (eq_of_beq at_)
      have absent : state.copy = none := Option.isNone_iff_eq_none.mp absent
      have fresh : state.Fresh written := by
        refine ⟨of_decide_eq_true unused, fun copy found => ?_⟩
        rw [absent] at found
        cases found
      refine ⟨⟨trivial, CopyAnswered.of_served at_ ⟨_, ?_, rfl⟩⟩, ?_⟩
      · rw [absent]
        exact .created fresh
      · intro copy found revision
        rw [← Option.some.inj found] at revision
        exact absurd revision other
    | apply api name body =>
      obtain ⟨rest, copies⟩ := Bool.and_eq_true_iff.mp checked
      obtain ⟨at_, unused⟩ := Bool.and_eq_true_iff.mp rest
      have at_ : some (api.key name) = some settingsCopyKey := congrArg some (eq_of_beq at_)
      have unused : written ∉ state.former := of_decide_eq_true unused
      obtain ⟨copy, origin, former, recorded⟩ := state
      cases copy with
      | none => cases copies
      | some copy =>
        obtain ⟨agrees, new⟩ := Bool.and_eq_true_iff.mp copies
        have agrees : copy.conflicts body = false := Bool.not_eq_true' _ ▸ agrees
        have fresh : CopyState.Fresh ⟨some copy, origin, former, recorded⟩ written := by
          refine ⟨unused, fun copy' found => ?_⟩
          rw [← Option.some.inj found]
          exact bne_iff_ne.mp new
        refine ⟨⟨trivial, CopyAnswered.of_served at_ ⟨_, .applied agrees fresh, rfl⟩⟩, ?_⟩
        intro copy' found revision
        rw [← Option.some.inj found] at revision
        exact absurd revision other
    | replaceSyncStatus sync body =>
      have addressed : sync = settingsRef.name := eq_of_beq checked
      refine ⟨⟨⟨rfl, rfl⟩, ?_⟩, readAs⟩
      unfold CopyAnswered
      dsimp only [answer]
      rw [if_neg (ApiRequest.not_at_replaceSyncStatus settingsCopyKey sync body), if_pos addressed]
    | getSyncStatus sync =>
      refine ⟨⟨rfl, ?_⟩, readAs⟩
      unfold CopyAnswered
      dsimp only [answer]
      rw [if_neg (ApiRequest.not_at_getSyncStatus settingsCopyKey sync)]
    | _ => cases checked
  | namespaces => exact ⟨⟨trivial, wants, rfl⟩, readAs⟩
  | clock => exact ⟨⟨trivial, rfl⟩, readAs⟩
  | memory op => cases checked

end CopyState

/-- The ObjectSync of the settings with recorded destinations. -/
def settingsRecorded (recorded : List DestinationStatus) : ObjectSync :=
  { settingsSync with status := some (ObjectSyncStatus.default.updateDestinations recorded) }

/-- The copy of the settings is expected, with the strategy to apply. -/
theorem settingsRecorded_wants (recorded : List DestinationStatus) :
    configMaps.Wants settingsCopyKey (settingsRecorded recorded) settingsNamespaces := by
  have expected : ResourceControllerImpl.expectedDestinations (settingsRecorded recorded)
      settingsNamespaces = [("team", "settings", none)] := rfl
  constructor
  · refine ⟨("team", "settings", none), ?_, rfl⟩
    rw [expected]
    exact List.mem_singleton.mpr rfl
  · intro target member _
    rw [expected] at member
    rw [List.mem_singleton.mp member]
    rfl

/-- A run for a version of the settings. -/
def settingsSyncing (data : StringMap) (resourceVersion : String)
    (recorded : List DestinationStatus) :
    Async (ObjectSyncModifications × Except ControllerError Unit) :=
  configMaps.reconcileSource (.new (settingsRecorded recorded))
    (settingsVersion data resourceVersion)

/-- What is left of a run for the settings after all its calls, and the copy. -/
def settingsRunFor (data : StringMap) (resourceVersion : String) (read : DynamicObject)
    (written : ObjectRevision) (before : CopyState) :
    Async (ObjectSyncModifications × Except ControllerError Unit) × CopyState :=
  (settingsSyncing data resourceVersion before.recorded).runFor
    (CopyState.answer ⟨some "s", some resourceVersion⟩ read written) 8 before

/-- A run for the settings continues a history, when all its calls are answered and it ends without
error. -/
theorem copyRuns_settingsRunFor {contents : ObjectRevision → Configured FieldPath String}
    {versions : Option Versions} {before : CopyState} {data : StringMap} {resourceVersion : String}
    {read : DynamicObject} {written : ObjectRevision}
    (runs : CopyRuns contents configMaps settingsCopyKey settingsRef versions before)
    (determined : (ResourceControllerImpl.sourceTemplate
      (settingsVersion data resourceVersion)).content = contents ⟨some "s", some resourceVersion⟩)
    (named : read.metadata.nameAny = "settings") (present : read.metadata.terminating = false)
    (other : written ≠ read.metadata.revision) (readAs : before.ReadAs read)
    (answered : (settingsSyncing data resourceVersion before.recorded).checkFor
      (CopyState.answer ⟨some "s", some resourceVersion⟩ read written)
      (CopyState.answers read written) 8 before = true)
    (finished : (settingsRunFor data resourceVersion read written before).1.result.map (·.2) =
      some (.ok ())) :
    CopyRuns contents configMaps settingsCopyKey settingsRef
      (some (.next versions (contents ⟨some "s", some resourceVersion⟩)))
      (settingsRunFor data resourceVersion read written before).2 := by
  let contract := copying settingsCopyKey settingsRef ⟨some "s", some resourceVersion⟩
    (configMaps.Wants settingsCopyKey (settingsRecorded before.recorded))
  obtain ⟨steps, -⟩ := @steps_runFor _ _ _ _ contract.rely contract.answers
    (CopyState.answer ⟨some "s", some resourceVersion⟩ read written)
    (CopyState.answers read written) (CopyState.ReadAs read) (fun _ => rfl)
    (CopyState.answer_allowed (settingsRecorded_wants before.recorded) named present other)
    8 _ before readAs answered
  have done : (settingsRunFor data resourceVersion read written before).1.result.isSome = true := by
    rw [← Option.isSome_map, finished]
    rfl
  obtain ⟨⟨event, result⟩, last⟩ := exists_done done
  rw [last] at finished
  have succeeded : result = .ok () := Option.some.inj finished
  rw [succeeded] at last
  unfold settingsRunFor at last ⊢
  rw [last] at steps
  rw [← determined]
  exact runs.sync rfl rfl determined steps

/-- Before there is a copy of the settings. -/
def settingsUncopied : CopyState := ⟨none, none, [], []⟩

/-- The copy of the first version of the settings. -/
def settingsFirst (first : StringMap) : CopyState :=
  (settingsRunFor first "1" settingsSource ⟨some "u", some "1"⟩ settingsUncopied).2

/-- The copy of the second version of the settings. -/
def settingsSecond (first second : StringMap) : CopyState :=
  (settingsRunFor second "2" (settingsRead first ⟨some "u", some "1"⟩) ⟨some "u", some "2"⟩
    (settingsFirst first)).2

/-- The content of the copies of two versions of the settings. -/
def settingsContents (first second : StringMap) (srcVersion : ObjectRevision) :
    Configured FieldPath String :=
  if srcVersion = ⟨some "s", some "1"⟩ then
    (ResourceControllerImpl.sourceTemplate (settingsVersion first "1")).content
  else (ResourceControllerImpl.sourceTemplate (settingsVersion second "2")).content

/-- The copy of the first version is what it is read as. -/
theorem settingsFirst_readAs (first second : StringMap)
    (runs : CopyRuns (settingsContents first second) configMaps settingsCopyKey settingsRef
      (some (.next none (settingsContents first second ⟨some "s", some "1"⟩)))
      (settingsFirst first))
    (finalizers : (settingsFirst first).copy.map (·.finalizers) = some [finalizer]) :
    (settingsFirst first).ReadAs (settingsRead first ⟨some "u", some "1"⟩) := by
  intro copy found _
  obtain ⟨origin, held, -⟩ := runs.shows.1 ⟨none, none⟩
  obtain ⟨copy', found', traces, -⟩ := held.traces
  rw [found] at found' finalizers
  obtain rfl := Option.some.inj found'
  constructor
  · have content := traces.values_eq_iff.mpr fun path value unrevised omitted => by
      cases unrevised.1.symm.trans omitted
    rw [content]
    funext path
    cases path <;> rfl
  · have listed : copy.finalizers = [finalizer] := Option.some.inj finalizers
    rw [listed]
    rfl

/-- Two versions of the settings are synced one after the other. -/
theorem copyRuns_settingsSecond (first second : StringMap)
    (answered : (settingsSyncing first "1" []).checkFor
      (CopyState.answer ⟨some "s", some "1"⟩ settingsSource ⟨some "u", some "1"⟩)
      (CopyState.answers settingsSource ⟨some "u", some "1"⟩) 8 settingsUncopied = true)
    (finished : (settingsRunFor first "1" settingsSource ⟨some "u", some "1"⟩
      settingsUncopied).1.result.map (·.2) = some (.ok ()))
    (finalizers : (settingsFirst first).copy.map (·.finalizers) = some [finalizer])
    (answered' : (settingsSyncing second "2" (settingsFirst first).recorded).checkFor
      (CopyState.answer ⟨some "s", some "2"⟩ (settingsRead first ⟨some "u", some "1"⟩)
        ⟨some "u", some "2"⟩)
      (CopyState.answers (settingsRead first ⟨some "u", some "1"⟩) ⟨some "u", some "2"⟩) 8
      (settingsFirst first) = true)
    (finished' : (settingsRunFor second "2" (settingsRead first ⟨some "u", some "1"⟩)
      ⟨some "u", some "2"⟩ (settingsFirst first)).1.result.map (·.2) = some (.ok ())) :
    CopyRuns (settingsContents first second) configMaps settingsCopyKey settingsRef
      (some ⟨settingsContents first second ⟨some "s", some "1"⟩,
        [settingsContents first second ⟨some "s", some "2"⟩]⟩)
      (settingsSecond first second) := by
  have start : CopyRuns (settingsContents first second) configMaps settingsCopyKey settingsRef none
      settingsUncopied := .start rfl fun d member => absurd member List.not_mem_nil
  have missing : settingsUncopied.ReadAs settingsSource := by
    intro copy found
    cases found
  have created := copyRuns_settingsRunFor start rfl rfl rfl (by decide) missing answered finished
  have readAs := settingsFirst_readAs first second created finalizers
  have new : (⟨some "u", some "2"⟩ : ObjectRevision) ≠
      (settingsRead first ⟨some "u", some "1"⟩).metadata.revision := by
    show (⟨some "u", some "2"⟩ : ObjectRevision) ≠ ⟨some "u", some "1"⟩
    decide
  exact copyRuns_settingsRunFor created rfl rfl rfl new readAs answered' finished'

/-- A value that was changed is changed in the copy. -/
theorem settingsChanged_content :
    ∃ copy, (settingsSecond [("mode", "a")] [("mode", "b")]).copy = some copy ∧
      (copy.fields.values = settingsContents [("mode", "a")] [("mode", "b")] ⟨some "s", some "2"⟩ ↔
        ∀ path value, Managed.Unrevised
          (settingsContents [("mode", "a")] [("mode", "b")] ⟨some "s", some "1"⟩)
          [settingsContents [("mode", "a")] [("mode", "b")] ⟨some "s", some "2"⟩] path value →
            settingsContents [("mode", "a")] [("mode", "b")] ⟨some "s", some "2"⟩ path ≠ none) :=
  copy_content_iff (copyRuns_settingsSecond [("mode", "a")] [("mode", "b")] (by decide +kernel)
    (by decide +kernel) (by decide +kernel) (by decide +kernel) (by decide +kernel))

/-- A value that was removed stays in the copy. -/
theorem settingsRemoved_content :
    ¬∀ (contents : ObjectRevision → Configured FieldPath String)
      (controller : ResourceControllerImpl) (key : ObjectKey) (o : ObjectSyncRef)
      (versions : Versions) (state : CopyState),
      CopyRuns contents controller key o (some versions) state →
        ∀ copy, state.copy = some copy → copy.fields.values = versions.newest := by
  intro same
  have runs := copyRuns_settingsSecond [("mode", "a"), ("debug", "on")] [("mode", "a")]
    (by decide +kernel) (by decide +kernel) (by decide +kernel) (by decide +kernel)
    (by decide +kernel)
  obtain ⟨origin, held, -⟩ := runs.shows.1 ⟨none, none⟩
  obtain ⟨copy, found, traces, -⟩ := held.traces
  have listed := traces.values_eq_iff.mp (same _ _ _ _ _ _ runs copy found) (.data "debug") "on"
  refine listed ⟨by decide +kernel, fun body member => .inl ?_⟩ (by decide +kernel)
  rw [List.mem_singleton.mp member]
  decide +kernel

end ObjectSyncer
