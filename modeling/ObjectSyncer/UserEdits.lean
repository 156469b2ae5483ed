import ObjectSyncer.Collections.Timeline
import ObjectSyncer.Server

/-!
# Edits by users

The main controller patches an ObjectSync with the whole difference between what the server has and
a copy that may be outdated, so the patch may contain the reverse of what a user has changed since.
The resource version is part of the difference. Since a version is never used twice, such a patch
asks for a version that cannot come back, and is rejected.
-/
namespace ObjectSyncer

open Interaction Interaction.Program Collections

/-- The versions of an ObjectSync, told apart by their resource versions. -/
abbrev SyncTimeline := Timeline fun sync : ObjectSync => sync.metadata.resourceVersion

/-- A server and all versions that its ObjectSyncs have had. -/
structure Chronicle where
  server : Server
  history : NamespacedName → SyncTimeline

namespace Chronicle

/-- The history is that of the server. What is stored is the latest version, and was not left to be
removed. -/
structure Sound (chronicle : Chronicle) : Prop where
  current : ∀ name sync, chronicle.server.syncs name = some sync →
    (chronicle.history name).latest = some sync
  present : ∀ name sync, chronicle.server.syncs name = some sync →
    sync.metadata.gone = false
  named : ∀ name, ∀ version ∈ chronicle.history name, ObjectSyncRef.ofSync version = ⟨name⟩

/-- Time passes: ObjectSyncs get further versions. -/
def Precedes (before after : Chronicle) : Prop :=
  ∀ name, (before.history name).Precedes (after.history name)

end Chronicle

/-- The part of an ObjectSync that belongs to its users is the same. -/
structure SameEdits (before after : ObjectSync) : Prop where
  spec : after.spec = before.spec
  labels : after.metadata.labels = before.metadata.labels
  annotations : after.metadata.annotations = before.metadata.annotations

/-- A patch of an ObjectSync leaves the part that belongs to its users, whatever is answered. -/
def KeepsEdits (before after : Server) : Call → Prop
  | .api (.jsonPatchSync name _) => ∀ current later, before.syncs name = some current →
    after.syncs name = some later → SameEdits current later
  | _ => True

/-- A call that patches no ObjectSync. -/
def Unpatched : Call → Prop
  | .api (.jsonPatchSync ..) => False
  | _ => True

/-- A call that patches no ObjectSync has no edits to keep. -/
theorem keepsEdits_of_unpatched {before after : Server} {call : Call} (unpatched : Unpatched call) :
    KeepsEdits before after call := by
  cases call with
  | api request => cases request <;> trivial
  | _ => trivial

/-- Anything may be edited between the calls of a run, and any request may fail; resource versions
are not used twice. -/
@[reducible] def editing (maker : Option ObjectSyncRef) : Contract Call Reply Chronicle where
  rely := fun before after => before.Precedes after ∧ after.Sound
  answers := fun before call reply after =>
    answersBy (Faulty maker) before.server call reply after.server ∧ before.Precedes after ∧
      after.Sound
  guarantee := fun before call _ after => KeepsEdits before.server after.server call

/-- The working copy differs from some version of its ObjectSync in finalizers and status only. -/
structure CopyOf (name : NamespacedName) (event : ObjectSyncModifications)
    (chronicle : Chronicle) : Prop where
  addressed : event.address = name
  version : ∃ version ∈ chronicle.history name, event.modified.spec = version.spec ∧
    { event.modified.metadata with finalizers := version.metadata.finalizers } = version.metadata

section Edits

variable {maker : Option ObjectSyncRef} {name : NamespacedName} {event : ObjectSyncModifications}
  {chronicle : Chronicle}

/-- A version of an ObjectSync is a working copy of it. -/
theorem copyOf_new {before : Chronicle} {version : ObjectSync}
    (identity : ObjectSyncRef.ofSync version = ⟨name⟩) (member : version ∈ before.history name) :
    CopyOf name (.new version) before :=
  ⟨congrArg ObjectSyncRef.name identity, version, member, rfl, rfl⟩

/-- A working copy stays one while time passes. -/
theorem CopyOf.later {after : Chronicle} (copy : CopyOf name event chronicle)
    (precedes : chronicle.Precedes after) : CopyOf name event after := by
  obtain ⟨addressed, version, member, same⟩ := copy
  exact ⟨addressed, version, (precedes name).mem member, same⟩

/-- A working copy stays one while its finalizers are changed. -/
theorem CopyOf.setFinalizers (copy : CopyOf name event chronicle) (finalizers : List String) :
    CopyOf name (ObjectSyncController.setFinalizers event finalizers) chronicle :=
  ⟨copy.addressed, copy.version⟩

/-- A working copy stays one while its status is changed. -/
theorem CopyOf.modify (copy : CopyOf name event chronicle) {change : ObjectSync → ObjectSync}
    (spec : (change event.modified).spec = event.modified.spec)
    (metadata : (change event.modified).metadata = event.modified.metadata) :
    CopyOf name (event.modify change) chronicle := by
  obtain ⟨addressed, version, member, same, rest⟩ := copy
  refine ⟨?_, version, member, spec.trans same, ?_⟩
  · rw [← addressed]
    simp only [ObjectSyncModifications.address, ObjectSyncModifications.modify, metadata]
  · show { (change event.modified).metadata with finalizers := version.metadata.finalizers } = _
    rw [metadata]
    exact rest

/-- A program that patches no ObjectSync keeps the edits of users. -/
theorem wp_untouched {α : Type} {program : Async α}
    (shape : program.wp (.requests Honest Unpatched) (fun _ _ => True) ()) :
    program.wp (editing maker) (fun _ _ => True) chronicle := by
  refine wp_imp (fun _ _ _ => trivial) (@wp_requests _ _ _ _ (editing maker) Honest Unpatched
    (fun _ => True) (fun _ => True) program chronicle shape
    (fun _ _ _ _ answered => answersBy_faulty_honest answered.1)
      (fun _ _ _ _ => trivial) ?_ trivial)
  intro before call reply after _ asked _
  exact ⟨keepsEdits_of_unpatched asked, trivial⟩

/-- A program that patches no ObjectSync keeps all working copies. -/
theorem wp_unpatched {α : Type} {program : Async α} (copy : CopyOf name event chronicle)
    (shape : program.wp (.requests Honest Unpatched) (fun _ _ => True) ()) :
    program.wp (editing maker) (fun _ after => CopyOf name event after) chronicle := by
  refine wp_imp (fun _ _ kept => kept.2) (@wp_requests _ _ _ _ (editing maker) Honest Unpatched
    (CopyOf name event) (fun _ => True) program chronicle shape
    (fun _ _ _ _ answered => answersBy_faulty_honest answered.1)
    (fun _ _ copy moves => copy.later moves.1) ?_ copy)
  intro before call reply after copy asked answered
  exact ⟨keepsEdits_of_unpatched asked, copy.later answered.2.1⟩

/-- Reading an ObjectSync returns what is stored. -/
theorem Served.readSync {server after : Server} {sync : ObjectSync}
    (served : Served maker server (.getSync name) (.ok sync) after) :
    after.syncs name = some sync := by
  obtain ⟨choice, eq⟩ := served
  simp only [Server.serve] at eq
  split at eq
  · cases (Prod.mk.inj eq).1
  · rename_i current found
    obtain ⟨same, rfl⟩ := Prod.mk.inj eq
    rw [← Except.ok.inj same]
    exact found

/-- A patch that has an effect asks for no resource version but the current one. -/
theorem Faulty.patchedAt {server after : Server} {patch : ObjectSyncPatch}
    {reply : Except KubeError (ApiValue (.jsonPatchSync name patch))} {current : ObjectSync}
    (faulty : Faulty maker server (.jsonPatchSync name patch) reply after)
    (found : server.syncs name = some current) :
    after.syncs name = some current ∨
      (∀ version, patch.resourceVersion = some version →
        version = current.metadata.resourceVersion) ∧
      ∃ (choice : Choice) (finalizers : Option (List String)),
        after.syncs name = (choice.patched current patch finalizers).settled := by
  have served (reply' : Except KubeError (ApiValue (.jsonPatchSync name patch)))
      (served : Served maker server (.jsonPatchSync name patch) reply' after) :
      after.syncs name = some current ∨
        (∀ version, patch.resourceVersion = some version →
          version = current.metadata.resourceVersion) ∧
        ∃ (choice : Choice) (finalizers : Option (List String)),
          after.syncs name = (choice.patched current patch finalizers).settled := by
    obtain ⟨choice, eq⟩ := served
    simp only [Server.serve, found] at eq
    split at eq
    · obtain ⟨-, rfl⟩ := Prod.mk.inj eq
      exact .inl found
    · rename_i finalizers applied
      split at eq
      · obtain ⟨-, rfl⟩ := Prod.mk.inj eq
        exact .inl found
      · rename_i agrees
        obtain ⟨-, rfl⟩ := Prod.mk.inj eq
        refine .inr ⟨fun version asked => ?_, choice, finalizers, ?_⟩
        · rw [asked] at agrees
          simpa using agrees
        · rw [Server.writeSync_syncs, Function.update_self, found, Option.bind_some]
  cases faulty with
  | served once => exact served _ once
  | refused => exact .inl found
  | lost _ once => exact served _ once
  | absent _ _ once => exact served _ once

/-- What a patch without a specification and metadata leaves is the part of the users. -/
theorem sameEdits_patched {choice : Choice} {current later : ObjectSync} {patch : ObjectSyncPatch}
    {finalizers : Option (List String)} (spec : patch.spec = none)
    (metadata : patch.metadata = none)
    (settled : (choice.patched current patch finalizers).settled = some later) :
    SameEdits current later := by
  unfold ObjectSync.settled at settled
  split at settled
  · cases settled
  · rw [← Option.some.inj settled]
    constructor
    · rw [Choice.patched, spec]
      rfl
    · rw [Choice.patched, metadata]
      rfl
    · rw [Choice.patched, metadata]
      rfl

/-- The difference from the version of a working copy is one of finalizers. -/
theorem CopyOf.diff_none (copy : CopyOf name event chronicle) {latest : ObjectSync}
    (member : latest ∈ chronicle.history name)
    (fresh : latest.metadata.resourceVersion = event.modified.metadata.resourceVersion) :
    (ObjectSyncPatch.diff latest event.modified).spec = none ∧
      (ObjectSyncPatch.diff latest event.modified).metadata = none := by
  obtain ⟨-, version, member', spec, metadata⟩ := copy
  have stamp : latest.metadata.resourceVersion = version.metadata.resourceVersion := by
    rw [fresh, ← metadata]
  have same : latest = version := Timeline.eq_of_stamp member member' stamp
  subst same
  constructor
  · exact if_pos spec.symm
  · refine if_pos ?_
    rw [← metadata]

/-- Patching from a working copy keeps the edits of users. -/
theorem wp_patchSpec_editing (copy : CopyOf name event chronicle) :
    event.patchSpec.wp (editing maker) (fun _ _ => True) chronicle := by
  unfold ObjectSyncModifications.patchSpec
  split
  · unfold ObjectSyncModifications.patchSpecNow
    rw [copy.addressed, wp_api]
    intro moved moves reply middle answered
    obtain ⟨asked, passes, sound⟩ := answered
    refine ⟨trivial, ?_⟩
    cases reply with
    | error e => trivial
    | ok latest =>
      -- What was read is the latest version at that time.
      have newest : (middle.history name).latest = some latest :=
        sound.current name latest (Faulty.of_ok asked).readSync
      have copy' : CopyOf name event middle := (copy.later moves.1).later passes
      dsimp only
      split
      · trivial
      · rename_i patch computed
        have patchEq : ObjectSyncPatch.diff latest event.modified = patch := by
          unfold ObjectSyncModifications.getSpecPatch at computed
          dsimp only at computed
          split at computed
          · cases computed
          · exact Option.some.inj computed
        rw [wp_api]
        intro moved' moves' reply after answered
        obtain ⟨asked', -, -⟩ := answered
        constructor
        · intro current later found stored
          rcases Faulty.patchedAt asked' found with unchanged | applied
          · obtain rfl := Option.some.inj (stored.symm.trans unchanged)
            exact ⟨rfl, rfl, rfl⟩
          · obtain ⟨agrees, choice, finalizers, written⟩ := applied
            by_cases fresh : latest.metadata.resourceVersion =
                event.modified.metadata.resourceVersion
            · obtain ⟨spec, metadata⟩ := copy'.diff_none (Timeline.mem_of_latest newest) fresh
              rw [patchEq] at spec metadata
              exact sameEdits_patched spec metadata (written.symm.trans stored)
            · -- The patch asks for a version that was superseded.
              obtain ⟨-, version, member, -, same⟩ := copy'
              have asks : patch.resourceVersion =
                  some event.modified.metadata.resourceVersion := by
                rw [← patchEq]
                exact if_neg fresh
              have stamp : event.modified.metadata.resourceVersion =
                  version.metadata.resourceVersion := by
                rw [← same]
              have superseded := Timeline.stamp_ne_of_superseded member newest
                (fun equal => fresh (equal.trans stamp.symm)) (moves'.1 name)
                (moves'.2.current name current found)
              exact absurd ((agrees _ asks).symm.trans stamp) superseded
        · cases reply <;> trivial
  · trivial

/-- What a successful status write returns is stored. -/
theorem Served.wroteStatus {server after : Server} {body written : ObjectSync}
    (served : Served maker server (.replaceSyncStatus name body) (.ok written) after)
    (present : ∀ sync, server.syncs name = some sync → sync.metadata.gone = false) :
    after.syncs name = some written := by
  rcases served.statusWritten with nothing | written_
  · exact absurd rfl (nothing.2 written)
  · obtain ⟨choice, current, found, -, stored, returned⟩ := written_
    rw [returned written rfl, stored, Server.writeSync_syncs, Function.update_self, found,
      Option.bind_some]
    have stays : (choice.withStatus current body).metadata.gone = false := present current found
    exact if_neg (by rw [stays]; exact Bool.false_ne_true)

/-- Writing the status succeeds with a working copy only. After a failure the working copy may have
the resource version of another version. -/
theorem wp_replaceStatus_editing (copy : CopyOf name event chronicle) :
    event.replaceStatus.wp (editing maker)
      (fun value after => value.2 = .ok () → CopyOf name value.1 after) chronicle := by
  unfold ObjectSyncModifications.replaceStatus
  split
  · unfold ObjectSyncModifications.latest
    rw [copy.addressed, wp_api]
    intro moved moves reply middle answered
    refine ⟨trivial, ?_⟩
    cases reply with
    | error e =>
      intro succeeded
      cases succeeded
    | ok latest =>
      dsimp only
      rw [wp_bind]
      unfold ObjectSyncModifications.replaceStatusWith
      dsimp only
      rw [ObjectSyncModifications.address_withResourceVersion, copy.addressed, wp_api]
      intro moved' moves' reply after answered'
      obtain ⟨asked, -, sound⟩ := answered'
      refine ⟨trivial, ?_⟩
      cases reply with
      | error e =>
        intro succeeded
        cases succeeded
      | ok written =>
        intro _
        have stored := Served.wroteStatus (Faulty.of_ok asked) (moves'.2.present name)
        have newest := sound.current name written stored
        have member := Timeline.mem_of_latest newest
        exact copyOf_new (sound.named name written member) member
  · exact fun _ => copy

/-- Deleting the destinations succeeds with a working copy only. -/
theorem wp_deleteDestinations_editing (copy : CopyOf name event chronicle) :
    (ObjectSyncController.deleteDestinations event).wp (editing maker)
      (fun value after => value.2 = .ok () → CopyOf name value.1 after) chronicle := by
  unfold ObjectSyncController.deleteDestinations
  cases event.modified.statusDestinations with
  | none => exact fun _ => copy
  | some destinations =>
    dsimp only
    rw [wp_bind]
    refine wp_imp (fun result middle copy' => ?_) (wp_unpatched copy
      (wp_imp (fun _ _ _ => trivial) (@requests_deleteDestinations Unpatched destinations
        fun _ _ request removal => by cases removal <;> trivial)))
    cases result with
    | error e =>
      intro succeeded
      cases succeeded
    | ok remaining =>
      dsimp only
      rw [wp_bind]
      unfold ObjectSyncModifications.updateCondition
      rw [wp_clock]
      intro moved moves time after answered
      have copied := (copy'.later moves.1).later answered.2.1
      refine ⟨trivial, ?_⟩
      rw [pure_eq, wp_done, wp_bind]
      have tracked := @CopyOf.modify name event after copied (fun sync => (sync.updateCondition time
        (ObjectSyncController.removalCondition destinations.length
          remaining.length)).updateDestinations remaining) rfl rfl
      refine wp_imp (fun value _ kept => ?_) (wp_replaceStatus_editing tracked)
      obtain ⟨event', result⟩ := value
      cases result with
      | error e =>
        intro succeeded
        cases succeeded
      | ok =>
        dsimp only
        split
        · intro succeeded
          cases succeeded
        · exact fun _ => kept rfl

/-- Removing the finalizer keeps the edits of users. -/
theorem wp_removeFinalizer_editing (copy : CopyOf name event chronicle) :
    (ObjectSyncController.removeFinalizer event).wp (editing maker)
      (fun _ _ => True) chronicle := by
  unfold ObjectSyncController.removeFinalizer
  dsimp only
  split
  · rw [wp_bind]
    exact wp_imp (fun _ _ _ => trivial) (wp_patchSpec_editing (copy.setFinalizers _))
  · trivial

/-- Adding the finalizer keeps the edits of users. -/
theorem wp_addFinalizerIfMissing_editing (copy : CopyOf name event chronicle) :
    (ObjectSyncController.addFinalizerIfMissing event).wp (editing maker) (fun _ _ => True)
      chronicle := by
  unfold ObjectSyncController.addFinalizerIfMissing
  dsimp only
  split
  · trivial
  · rw [wp_bind]
    exact wp_imp (fun _ _ _ => trivial) (wp_patchSpec_editing (copy.setFinalizers _))

/-- Deleting an ObjectSync keeps the edits of users. -/
theorem wp_delete_editing (copy : CopyOf name event chronicle) :
    (ObjectSyncController.delete event).wp (editing maker) (fun _ _ => True) chronicle := by
  unfold ObjectSyncController.delete ObjectSyncController.remove
  rw [wp_memory]
  intro moved moves removed after answered
  have copied := (copy.later moves.1).later answered.2.1
  refine ⟨trivial, ?_⟩
  rw [wp_bind]
  refine wp_imp (fun value middle kept => ?_) (wp_deleteDestinations_editing copied)
  obtain ⟨event', result⟩ := value
  cases result with
  | error e => trivial
  | ok =>
    dsimp only
    rw [wp_bind]
    refine wp_imp (fun result later copy' => ?_) (wp_unpatched (kept rfl)
      (ObjectSyncController.requests_releaseSource event' trivial (fun _ => trivial)
        fun _ _ => trivial))
    cases result with
    | error e => trivial
    | ok =>
      dsimp only
      rw [wp_bind]
      exact wp_imp (fun _ _ _ => trivial) (wp_removeFinalizer_editing copy')

/-- Publishing a condition patches nothing. -/
theorem requests_publish (event : ObjectSyncModifications) (condition : Condition) :
    (ObjectSyncController.publish event condition).wp (.requests Honest Unpatched)
      (fun _ _ => True) () := by
  unfold ObjectSyncController.publish
  rw [wp_bind]
  refine wp_imp (fun event' _ _ => ?_) (event.requests_updateCondition condition trivial)
  refine wp_imp (fun _ _ _ => trivial) (event'.requests_replaceStatus fun request write => ?_)
  cases write <;> trivial

/-- Once it has the finalizer, an ObjectSync is checked without patching it. -/
theorem requests_check (event : ObjectSyncModifications)
    (gvk : Except ControllerError GroupVersionKind) :
    (match gvk with
      | .error e => pure (event, .error e)
      | .ok currentGvk => do
        match ← Async.memory (.getInstance event.id) with
        | some active =>
          if active.sourceChanged event.modified currentGvk then do
            match ← ObjectSyncController.moveSource event currentGvk with
            | (event, .error e) =>
              Async.memory (.dropInstance event.id active)
              return (event, .error e)
            | (event, .ok ()) =>
              Async.memory (.dropInstance event.id active)
              ObjectSyncController.publish event
                (ObjectSyncController.movedCondition active event currentGvk)
          else do
            Async.memory (.dropInstance event.id active)
            return (event, .ok ())
        | none => do
          ObjectSyncController.add event currentGvk
          ObjectSyncController.publish event
            (ObjectSyncController.registeredCondition event currentGvk) :
      Async (ObjectSyncModifications × Except ControllerError Unit)).wp (.requests Honest Unpatched)
        (fun _ _ => True) () := by
  cases gvk with
  | error e => trivial
  | ok currentGvk =>
    dsimp only
    rw [wp_memory]
    intro _ _ registered _ _
    refine ⟨trivial, ?_⟩
    cases registered with
    | none =>
      exact fun _ _ _ _ _ => ⟨trivial, fun _ _ _ _ _ => ⟨trivial, fun _ _ _ _ _ => ⟨trivial,
        requests_publish _ _⟩⟩⟩
    | some active =>
      dsimp only
      split
      · rw [wp_bind]
        refine wp_imp (fun value _ _ => ?_) (ObjectSyncController.requests_moveSource event
          currentGvk (fun _ => trivial) (fun _ _ request removal => by cases removal <;> trivial)
          trivial fun _ _ request write => by cases write <;> trivial)
        obtain ⟨event', result⟩ := value
        cases result with
        | error e => exact fun _ _ _ _ _ => ⟨trivial, trivial⟩
        | ok => exact fun _ _ _ _ _ => ⟨trivial, requests_publish _ _⟩
      · exact fun _ _ _ _ _ => ⟨trivial, trivial⟩

/-- Checking an ObjectSync keeps the edits of users. -/
theorem wp_check_editing (copy : CopyOf name event chronicle) :
    (ObjectSyncController.check event).wp (editing maker) (fun _ _ => True) chronicle := by
  unfold ObjectSyncController.check
  rw [wp_bind]
  refine wp_imp (fun value after _ => ?_) (wp_addFinalizerIfMissing_editing copy)
  obtain ⟨event', result⟩ := value
  cases result with
  | error e => trivial
  | ok =>
    dsimp only
    rw [wp_bind]
    refine wp_imp (fun gvk later _ => ?_)
      (wp_untouched (ObjectSyncController.requests_getGvk _ trivial))
    exact wp_untouched (requests_check event' gvk)

end Edits

/-- **User edits.** A run of `check` or of `delete` may start from any version that an ObjectSync
has had, and anything may be edited meanwhile: every patch of the ObjectSync that has an effect
leaves the specification, the labels and the annotations that it had right before. -/
theorem patches_keep_edits {maker : Option ObjectSyncRef} {name : NamespacedName}
    {chronicle : Chronicle} {snapshot : ObjectSync} (sound : chronicle.Sound)
    (known : snapshot ∈ chronicle.history name) :
    (ObjectSyncController.check (.new snapshot)).wp (editing maker) (fun _ _ => True) chronicle ∧
      (ObjectSyncController.delete (.new snapshot)).wp (editing maker) (fun _ _ => True)
        chronicle := by
  have copy : CopyOf name (.new snapshot) chronicle :=
    copyOf_new (sound.named name snapshot known) known
  exact ⟨wp_check_editing copy, wp_delete_editing copy⟩

/-- The ObjectSync of the settings as it was created. -/
def createdSync : ObjectSync :=
  { settingsSync with metadata := { settingsSync.metadata with finalizers := none } }

/-- The ObjectSync of the settings after a user has labelled it. -/
def labelledSync : ObjectSync :=
  { createdSync with
    metadata :=
      { createdSync.metadata with
        resourceVersion := some "2", labels := some [("team", "blue")] } }

/-- The labelled ObjectSync is stored under its name. -/
theorem labelledSync_named {new : ObjectSync} (stored : some labelledSync = some new) :
    new.metadata.Named settingsRef.name.namespace_ settingsRef.name.name := by
  cases stored
  exact ⟨rfl, rfl⟩

/-- The two versions that the ObjectSync of the settings has had. -/
def settingsVersions (name : NamespacedName) : List ObjectSync :=
  if name = settingsRef.name then [labelledSync, createdSync] else []

/-- The versions of the ObjectSync of the settings have different resource versions. -/
theorem settingsVersions_distinct (name : NamespacedName) :
    ((settingsVersions name).map fun sync => sync.metadata.resourceVersion).Nodup := by
  unfold settingsVersions
  split <;> decide

/-- A server with the labelled ObjectSync, and both versions. -/
def labelledChronicle : Chronicle :=
  ⟨Server.empty.putSync settingsRef.name (some labelledSync) @labelledSync_named,
    fun name => ⟨settingsVersions name, settingsVersions_distinct name⟩⟩

/-- A check that starts from the version without the label keeps the label. -/
theorem labelledChronicle_kept :
    (ObjectSyncController.check (.new createdSync)).wp (editing none) (fun _ _ => True)
      labelledChronicle ∧
      (ObjectSyncController.delete (.new createdSync)).wp (editing none) (fun _ _ => True)
        labelledChronicle := by
  have versions : settingsVersions settingsRef.name = [labelledSync, createdSync] := if_pos rfl
  have stored (name : NamespacedName) (sync : ObjectSync)
      (found : labelledChronicle.server.syncs name = some sync) :
      name = settingsRef.name ∧ sync = labelledSync := by
    by_cases same : name = settingsRef.name
    · subst same
      have put : labelledChronicle.server.syncs settingsRef.name = some labelledSync := rfl
      exact ⟨rfl, Option.some.inj (found.symm.trans put)⟩
    · have other : labelledChronicle.server.syncs name = none := Function.update_of_ne same ..
      rw [other] at found
      cases found
  refine @patches_keep_edits none settingsRef.name labelledChronicle createdSync ⟨?_, ?_, ?_⟩ ?_
  · intro name sync found
    obtain ⟨rfl, rfl⟩ := stored name sync found
    exact congrArg List.head? versions
  · intro name sync found
    obtain ⟨rfl, rfl⟩ := stored name sync found
    rfl
  · intro name version member
    have listed : version ∈ settingsVersions name := member
    unfold settingsVersions at listed
    split at listed
    · rename_i same
      subst same
      rcases List.mem_pair.mp listed with rfl | rfl <;> rfl
    · cases listed
  · show createdSync ∈ settingsVersions settingsRef.name
    rw [versions]
    exact List.mem_cons_of_mem _ (List.mem_singleton_self _)

end ObjectSyncer
