import ObjectSyncer.Coexistence
import ObjectSyncer.DestinationWatch

/-!
# ObjectSyncs that contend for a copy

The expected destinations of several ObjectSyncs may be the same object. If these copy different
sources, their runs write it in turns: whoever runs makes it a copy of its own source, so that the
next one finds it changed, and writes it again. There is no end to it.
-/
namespace ObjectSyncer

open Collections Interaction Interaction.Program Server

/-- The annotation of a copy tells its source, if its namespace has no slash. -/
theorem annotation_inj {name name' : NamespacedName} (plain : '/' ∉ name.namespace_.toList)
    (plain' : '/' ∉ name'.namespace_.toList)
    (same : name.namespace_ ++ "/" ++ name.name = name'.namespace_ ++ "/" ++ name'.name) :
    name = name' := by
  have parts := splitOn_append name.name plain
  have parts' := splitOn_append name'.name plain'
  change name.namespace_ ++ String.singleton '/' ++ name.name =
    name'.namespace_ ++ String.singleton '/' ++ name'.name at same
  rw [same, parts'] at parts
  obtain ⟨namespaces, rests⟩ := List.cons.inj parts
  have names := congrArg (String.intercalate (String.singleton '/')) rests
  rw [intercalate_splitOn, intercalate_splitOn] at names
  cases name
  cases name'
  simp_all

/-- An object is a copy of a source, at some revision of it. -/
def Server.CopyOf (server : Server) (key : ObjectKey) (ref : SourceRef) : Prop :=
  ∃ stored fields, server.objects key = some stored ∧
    stored.object.fields.Carries (Fields.copied ref fields)

/-- An object is a copy of one source only. -/
theorem Server.CopyOf.unique {before after : Server} {key : ObjectKey} {ref ref' : SourceRef}
    (copy : before.CopyOf key ref) (copy' : after.CopyOf key ref')
    (plain : '/' ∉ ref.name.namespace_.toList) (plain' : '/' ∉ ref'.name.namespace_.toList)
    (different : ref ≠ ref') :
    ∃ old new, before.objects key = some old ∧ after.objects key = some new ∧
      new.object.fields ≠ old.object.fields := by
  obtain ⟨old, fields, was, carries⟩ := copy
  obtain ⟨new, fields', found, carries'⟩ := copy'
  have annotated := carries.annotations sourceObjectAnnotation _ (StringMap.lookup_insert_self ..)
  have annotated' := carries'.annotations sourceObjectAnnotation _ (StringMap.lookup_insert_self ..)
  refine ⟨old, new, was, found, fun same => different ?_⟩
  rw [same, annotated] at annotated'
  have names := annotation_inj plain plain' (Option.some.inj annotated')
  cases ref
  cases ref'
  exact congrArg SourceRef.mk names

/-- An ObjectSync, its source, and the controller that copies the source. -/
structure Contender where
  controller : ResourceControllerImpl
  ref : SourceRef
  o : ObjectSyncRef

/-- A run of `reconcile_source` for an ObjectSync that expects an object among its destinations. It
is made on the current ObjectSync and some revision of its source, and is not disturbed. -/
inductive Contender.Turn (contents : Contents) (shared : ObjectKey) (contender : Contender)
    (before after : Server) : Prop
  | turn {sync : ObjectSync} {source : DynamicObject} {cache : List Namespace}
      {target : String × String × Option SyncStrategy}
      {value : ObjectSyncModifications × Except ControllerError Unit} :
      before.syncs contender.o.name = some sync → sync.metadata.gone = false →
      SourceRevision contents contender.controller contender.ref source →
      target ∈ ResourceControllerImpl.expectedDestinations sync cache →
      (contender.controller.expectedStatus target).key = shared →
      before.Owned (contender.controller.touchedKeys sync cache) →
      Returns (alone (some contender.o) cache (·.Determined contents)).rely
        (alone (some contender.o) cache (·.Determined contents)).answers
        (contender.controller.reconcileSource (.new sync) source) before value after →
      Contender.Turn contents shared contender before after

section Turn

variable {contents : Contents} {shared : ObjectKey} {contender : Contender} {before after : Server}

/-- What an undisturbed run does is a history of the ObjectSync. -/
theorem steps_recording {α : Type} {controller : ResourceControllerImpl} {ref : SourceRef}
    {o : ObjectSyncRef} {cache : List Namespace} {program rest : Async α}
    (steps : Steps (alone (some o) cache (·.Determined contents)).rely
      (alone (some o) cache (·.Determined contents)).answers program before rest after) :
    Steps (recording contents controller ref o).rely (recording contents controller ref o).answers
      program before rest after := by
  induction steps with
  | refl program world => exact .refl program world
  | @call request resume world moved middle last reply rest moves answered _ ih =>
    have faulty : answersBy (Faulty (some o)) moved request reply middle := by
      cases request with
      | api request => exact .served answered.1
      | _ => exact answered.1
    exact .call (.inl moves) ⟨faulty, answered.2.2⟩ ih

/-- An undisturbed run in a footprint leaves what is apart from it. -/
theorem wp_alone_leaves {α : Type} {maker : Option ObjectSyncRef} {cache : List Namespace}
    {possible : Server → Prop} {footprint other : Footprint} {program : Async α}
    (shape : program.wp (.requests (Informed cache) footprint.Admits) (fun _ _ => True) ())
    (apart : footprint.Apart other) :
    program.wp (alone maker cache possible) (fun _ world => other.Same before world) before := by
  have kept := @wp_requests _ _ _ _ (alone maker cache possible) (Informed cache) _
    (other.Same before) (fun _ => True) program before shape ?_ ?_ ?_ (.refl other before)
  · exact wp_imp (fun _ _ => And.right) kept
  · exact fun _ _ _ _ answered => informed_of_served answered.1 answered.2.1
  · rintro world moved same rfl
    exact same
  · intro world call reply next same admits answered
    refine ⟨trivial, ?_⟩
    cases call with
    | api request =>
      obtain ⟨choice, served⟩ := answered.1
      have effect := world.serve_effect maker choice request
      rw [served] at effect
      exact same.trans (Footprint.Covers.leaves admits effect apart)
    | _ =>
      have still : next = world := answered.1
      rw [still]
      exact same

/-- What a turn of a contender leaves of the shared object and of its records. -/
structure Contender.Turned (contents : Contents) (shared : ObjectKey) (contender : Contender)
    (before after : Server) : Prop where
  copy : after.CopyOf shared contender.ref
  reachable : RecordingReachable contents contender.controller contender.ref contender.o after
  determined : after.Determined contents
  settled : after.Settled
  others : ∀ name, name ≠ contender.o.name → after.syncs name = before.syncs name

/-- A turn makes the object a copy of the contender's source, and keeps the records of others. -/
theorem Contender.Turn.turned (turn : contender.Turn contents shared before after)
    (reachable : RecordingReachable contents contender.controller contender.ref contender.o before)
    (settled : before.Settled) : contender.Turned contents shared before after := by
  obtain @⟨sync, source, cache, target, value, found, present, revision, wanted, key, owned,
    returned⟩ := turn
  have recorded := recorded_of_reachable reachable
  have template : contents.template contender.controller contender.ref source.metadata.revision =
      source.fields.copied contender.ref := by
    rw [Contents.template, revision.fields]
  have fields : (ResourceControllerImpl.sourceTemplate source).fields.fitted =
      contents.template contender.controller contender.ref source.metadata.revision := by
    rw [ResourceControllerImpl.sourceTemplate_fields, revision.named, template]
  have identity : ObjectSyncRef.ofSync sync = contender.o := (before.syncNamed found).ofSync
  obtain ⟨-, converged⟩ := returned.meets
    (contender.controller.wp_reconcileSource_alone found present (recorded.truthful sync found)
      fields ⟨recorded.determined, settled, owned⟩)
  obtain ⟨determined, settled'⟩ := returned.meets
    (wp_alone _ recorded.determined settled)
  rw [template] at converged
  constructor
  · obtain ⟨inPlace, -, -⟩ := converged
    obtain ⟨stored, there, -, achieved⟩ := inPlace target wanted
    rw [key] at there
    exact ⟨stored, source.fields, there, achieved.carries⟩
  · exact reachable.run found revision (steps_recording returned)
  · exact determined
  · exact settled'
  · intro name other
    have apart : (contender.controller.footprint contender.o sync cache).Apart
        ⟨fun _ => False, (· = name)⟩ := by
      constructor
      · exact fun _ _ => id
      · intro name' own same
        exact other (same.symm.trans own)
    have left := returned.meets (wp_alone_leaves
      (contender.controller.requests_reconcileSource_footprint identity source) apart)
    exact left.syncs name rfl

end Turn

/-- Different ObjectSyncs that copy different sources. -/
structure Rivals {ι : Type} (contenders : ι → Contender) : Prop where
  syncs : ∀ i j, i ≠ j → (contenders i).o.name ≠ (contenders j).o.name
  sources : ∀ i j, i ≠ j → (contenders i).ref ≠ (contenders j).ref
  plain : ∀ i, '/' ∉ (contenders i).ref.name.namespace_.toList

/-- The servers that the turns of several contenders lead to, after any histories of each, with the
contender that was last. Others edit at will, but for the records and for the object itself. -/
inductive Contention {ι : Type} (contents : Contents) (shared : ObjectKey)
    (contenders : ι → Contender) : ι → Server → Prop
  /-- The first turn. -/
  | first {i : ι} {before after : Server} :
      (∀ j, RecordingReachable contents (contenders j).controller (contenders j).ref
        (contenders j).o before) → before.Settled →
      (contenders i).Turn contents shared before after →
      Contention contents shared contenders i after
  /-- A further turn. -/
  | turn {i j : ι} {before after : Server} : Contention contents shared contenders i before →
      (contenders j).Turn contents shared before after →
      Contention contents shared contenders j after
  /-- Others act. -/
  | edit {i : ι} {before after : Server} : Contention contents shared contenders i before →
      (∀ j, Edits (contenders j).o before after) → after.Determined contents → after.Settled →
      after.objects shared = before.objects shared →
      Contention contents shared contenders i after

section Contention

variable {ι : Type} {contents : Contents} {shared : ObjectKey} {contenders : ι → Contender}
  {last : ι} {server after : Server}

/-- What holds while others contend: all records are histories, and the object is a copy of the last
contender's source. -/
structure Contended (contents : Contents) (shared : ObjectKey) (contenders : ι → Contender)
    (last : ι) (server : Server) : Prop where
  copy : server.CopyOf shared (contenders last).ref
  settled : server.Settled
  reachable : ∀ j, RecordingReachable contents (contenders j).controller (contenders j).ref
    (contenders j).o server

/-- A turn keeps the records of all contenders. -/
theorem Contender.Turned.contended {next : ι} (rivals : Rivals contenders)
    (turned : (contenders next).Turned contents shared server after)
    (reachable : ∀ j, RecordingReachable contents (contenders j).controller (contenders j).ref
      (contenders j).o server) : Contended contents shared contenders next after := by
  constructor
  · exact turned.copy
  · exact turned.settled
  · intro j
    by_cases same : j = next
    · rw [same]
      exact turned.reachable
    · have kept := turned.others _ (rivals.syncs j next same)
      apply (reachable j).edit _ turned.determined
      intro sync found
      rw [kept] at found
      exact .inr ⟨sync, found, rfl⟩

/-- Whatever the turns, the object is a copy of the source of the contender that was last. -/
theorem contended_of_contention (rivals : Rivals contenders)
    (contention : Contention contents shared contenders last server) :
    Contended contents shared contenders last server := by
  induction contention with
  | first reachable settled turn =>
    exact (turn.turned (reachable _) settled).contended rivals reachable
  | turn _ turn ih => exact (turn.turned (ih.reachable _) ih.settled).contended rivals ih.reachable
  | edit _ edits determined settled same ih =>
    constructor
    · obtain ⟨stored, fields, found, carries⟩ := ih.copy
      exact ⟨stored, fields, same.trans found, carries⟩
    · exact settled
    · exact fun j => (ih.reachable j).edit (edits j) determined

/-- **Contention never ends.** While ObjectSyncs with different sources expect the same object, it
is always a copy of the source of the one that ran last, and the next run for another one writes it:
it leaves other fields, at another revision. -/
theorem contention_never_ends (rivals : Rivals contenders)
    (contention : Contention contents shared contenders last server) :
    server.CopyOf shared (contenders last).ref ∧
      ∀ next after, next ≠ last → (contenders next).Turn contents shared server after →
        ∃ old new, server.objects shared = some old ∧ after.objects shared = some new ∧
          new.object.fields ≠ old.object.fields ∧
          new.object.metadata.revision ≠ old.object.metadata.revision := by
  have contended := contended_of_contention rivals contention
  refine ⟨contended.copy, fun next after different turn => ?_⟩
  have turned := turn.turned (contended.reachable next) contended.settled
  have recorded := recorded_of_reachable (contended.reachable next)
  obtain ⟨old, new, was, found, changed⟩ := contended.copy.unique turned.copy (rivals.plain last)
    (rivals.plain next) (rivals.sources last next different.symm)
  refine ⟨old, new, was, found, changed, fun same => changed ?_⟩
  -- Revisions determine fields.
  rw [turned.determined shared new found, recorded.determined shared old was, same]

end Contention

/-- An ObjectSync that copies a source to the same config map as others do. -/
def rivalSync (name : String) : ObjectSync where
  metadata := (markedSync name).metadata
  spec := ⟨⟨"", none, "ConfigMap", name, none⟩, [⟨some "settings", "team", none⟩]⟩
  status := none

/-- The config map that both rivals copy to. -/
def rivalKey : ObjectKey := ⟨"", "ConfigMap", "team", "settings"⟩

/-- A server with two ObjectSyncs that copy different sources to one config map. -/
def rivalServer : Server :=
  (Server.empty.putSync ⟨"flags", "default"⟩ (some (rivalSync "flags"))
    (by rintro _ ⟨⟩; exact ⟨rfl, rfl⟩)).putSync ⟨"settings", "default"⟩
      (some (rivalSync "settings")) (by rintro _ ⟨⟩; exact ⟨rfl, rfl⟩)

/-- The two rivals for one config map. -/
def rivals (thread : Bool) : Contender :=
  ⟨configMaps, ⟨⟨markedName thread, "default"⟩⟩, ⟨⟨markedName thread, "default"⟩⟩⟩

/-- The resource versions that the writes of each rival get. -/
def rivalVersion : Bool → String
  | true => "3"
  | false => "2"

/-- The fields of everything that is stored while the rivals run. -/
def rivalContents : Contents := fun key revision =>
  if key.namespace_ = "default" then (markedSource key.name).fields
  else
    let name := markedName (revision.resourceVersion = some (rivalVersion true))
    (markedSource name).fields.copied ⟨⟨name, "default"⟩⟩

/-- The answers to the runs of a rival. -/
def rivalAnswer (thread : Bool) : Handler Call Reply Server :=
  Server.answer (some (rivals thread).o) ⟨"u", rivalVersion thread, 0, []⟩ settingsNamespaces "now"

/-- Whether an answer leaves the target of its request with the fields of its revision. -/
def rivalAnswers (thread : Bool) (server : Server) : Call → Bool
  | .api request => request.target.all fun key =>
    ((rivalAnswer thread server (.api request)).2.objects key).all fun stored =>
      stored.object.fields = rivalContents key stored.object.metadata.revision
  | _ => true

/-- A run of a rival to its end. -/
def rivalRun (thread : Bool) (server : Server) :
    Async (ObjectSyncModifications × Except ControllerError Unit) × Server :=
  (configMaps.reconcileSource (.new (rivalSync (markedName thread)))
    (markedSource (markedName thread))).runFor (rivalAnswer thread) 20 server

/-- All objects have the fields of their revisions, and none of them waits for nothing. -/
def RivalsKnown (server : Server) : Prop := server.Determined rivalContents ∧ server.Settled

/-- The answers to the rivals keep their objects at known fields. -/
theorem RivalsKnown.answer {server : Server} (known : RivalsKnown server)
    {thread : Bool} {call : Call} (answers : rivalAnswers thread server call = true) :
    RivalsKnown (rivalAnswer thread server call).2 := by
  cases call with
  | api request =>
    have effect := server.serve_effect (some (rivals thread).o)
      ⟨"u", rivalVersion thread, 0, []⟩ request
    refine ⟨fun key stored found => ?_, effect.settled known.2⟩
    by_cases target : request.target = some key
    · change (request.target.all _) = true at answers
      rw [target, Option.all_some, found, Option.all_some] at answers
      exact of_decide_eq_true answers
    · have same := effect.objects_eq target
      exact known.1 key stored (same.symm.trans found)
  | _ => exact known

/-- The rivals touch the config map `team/shared` only, on which nobody else has finalizers. -/
theorem rivals_owned {server : Server} (known : RivalsKnown server) (thread : Bool) :
    server.Owned (configMaps.touchedKeys (rivalSync (markedName thread)) settingsNamespaces) := by
  have touched : ∀ key ∈ configMaps.touchedKeys (rivalSync (markedName thread)) settingsNamespaces,
      key = rivalKey := by cases thread <;> decide +kernel
  intro key member stored found f listed
  rw [touched key member] at found
  have same : stored.object.metadata.finalizers = some [finalizer] :=
    congrArg Fields.finalizers (known.1 rivalKey stored found)
  rw [ObjectMeta.finalizerList, same] at listed
  exact List.mem_singleton.mp listed

/-- A run of a rival that ends is a turn. -/
theorem rivals_turn {server : Server} {thread : Bool} (known : RivalsKnown server)
    (found : server.syncs (rivals thread).o.name = some (rivalSync (markedName thread)))
    (answers : (configMaps.reconcileSource (.new (rivalSync (markedName thread)))
      (markedSource (markedName thread))).checkFor (rivalAnswer thread) (rivalAnswers thread) 20
        server = true)
    (ends : (rivalRun thread server).1.result.isSome = true) :
    (rivals thread).Turn rivalContents rivalKey server (rivalRun thread server).2 ∧
      RivalsKnown (rivalRun thread server).2 := by
  obtain ⟨steps, kept⟩ := @steps_runFor _ _ _ _
    (alone (some (rivals thread).o) settingsNamespaces (·.Determined rivalContents)).rely
    (alone (some (rivals thread).o) settingsNamespaces (·.Determined rivalContents)).answers
    (rivalAnswer thread) (rivalAnswers thread) RivalsKnown (fun _ => rfl)
    (fun server call known answers => by
      have next := known.answer answers
      cases call with
      | api request => exact ⟨⟨⟨_, rfl⟩, trivial, next.1⟩, next⟩
      | namespaces => exact ⟨⟨rfl, rfl, next.1⟩, next⟩
      | _ => exact ⟨⟨rfl, trivial, next.1⟩, next⟩)
    20 _ server known answers
  obtain ⟨value, finished⟩ := exists_done ends
  have source : SourceRevision rivalContents configMaps (rivals thread).ref
      (markedSource (markedName thread)) := by
    cases thread <;> exact ⟨rfl, by decide +kernel⟩
  have wanted : ("team", "settings", none) ∈ ResourceControllerImpl.expectedDestinations
      (rivalSync (markedName thread)) settingsNamespaces := by
    cases thread <;> decide +kernel
  have returned := finished ▸ steps
  exact ⟨.turn found (by cases thread <;> rfl) source wanted rfl (rivals_owned known thread)
    returned, kept⟩

/-- The settings are copied, then the flags take their place. -/
theorem rivals_contend : ∃ old new,
    (rivalRun false rivalServer).2.objects rivalKey = some old ∧
      (rivalRun true (rivalRun false rivalServer).2).2.objects rivalKey = some new ∧
      new.object.fields ≠ old.object.fields ∧
      new.object.metadata.revision ≠ old.object.metadata.revision := by
  have empty : RivalsKnown rivalServer := by
    constructor <;> rintro key stored ⟨⟩
  have recorded (thread : Bool) (sync : ObjectSync)
      (found : rivalServer.syncs (rivals thread).o.name = some sync) :
        sync.destinationList = [] := by
    cases thread <;> rw [← Option.some.inj found] <;> rfl
  have apart : Rivals rivals := by
    constructor
    · decide +kernel
    · decide +kernel
    · decide +kernel
  obtain ⟨first, known⟩ := @rivals_turn rivalServer false empty rfl (by decide +kernel)
    (by decide +kernel)
  obtain ⟨second, -⟩ := @rivals_turn (rivalRun false rivalServer).2 true known (by decide +kernel)
    (by decide +kernel) (by decide +kernel)
  have contention : Contention rivalContents rivalKey rivals false (rivalRun false rivalServer).2 :=
    .first (fun thread => .start empty.1 (recorded thread)) empty.2 first
  exact (contention_never_ends apart contention).2 true _ (by decide) second

end ObjectSyncer
