import ObjectSyncer.Sequence

/-!
# Calls that spare what others depend on

Copies depend on the finalizer of their source. A program spares the sources when it takes the
finalizer from no object that somebody depends on, and no call of the controller changes what an
ObjectSync designates as its source, so that who depends on what only changes where the run itself
writes destinations.
-/
namespace ObjectSyncer

open Interaction Interaction.Program

/-- An ObjectSync with persisted destinations designates an object as its source. -/
def Server.DependsOn (server : Server) (name : NamespacedName) (key : ObjectKey) : Prop :=
  ∃ sync, server.syncs name = some sync ∧ sync.sourceKey = key ∧ sync.destinationList ≠ []

/-- No finalizer is taken from an object while some ObjectSync depends on it, other than the one
that the run deletes. -/
def KeepsFinalizers (run : Run) (before after : Server) : Prop :=
  ∀ key, before.CarriesFinalizer key → ¬after.CarriesFinalizer key →
    ∀ name, before.DependsOn name key → run = .delete ⟨name⟩

/-- The object of a key is terminating. -/
def Server.Terminating (server : Server) (key : ObjectKey) : Prop :=
  ∃ stored, server.objects key = some stored ∧ stored.object.metadata.terminating = true

/-- The kind that a source is discovered to have, if any. -/
def Server.discovered (server : Server) (source : SourceObject) : Option GroupVersionKind :=
  (server.apis source.group).bind fun apigroup =>
    ((ObjectSyncController.findApiResource source apigroup).bind
      ObjectSyncController.requireNamespaced).toOption

/-- An object is the source of an ObjectSync that depends on it, or may come to depend on it during
the run, other than the one that is deleted. -/
def Server.Protects (server : Server) (run : Run) (writes : NamespacedName → Prop)
    (key : ObjectKey) : Prop :=
  ∃ name sync, server.syncs name = some sync ∧ sync.sourceKey = key ∧ run ≠ .delete ⟨name⟩ ∧
    (sync.destinationList ≠ [] ∨ writes name)

/-! ## What a request changes -/

section Requests

variable {maker : Option ObjectSyncRef} {server after : Server} {request : ApiRequest}
  {reply : Except KubeError (ApiValue request)}

/-- A written object that keeps the finalizer is there and carries it. -/
theorem Server.carries_write {key : ObjectKey} {stored : Stored}
    {change : DynamicObject → DynamicObject}
    (keeps : ∀ object, (change object).metadata.name = object.metadata.name ∧
      (change object).metadata.namespace_ = object.metadata.namespace_)
    (found : server.objects key = some stored)
    (carries : finalizer ∈ (change stored.object).metadata.finalizerList) :
    (server.write key change keeps).CarriesFinalizer key := by
  have filled : (change stored.object).metadata.finalizerList.isEmpty = false :=
    List.isEmpty_eq_false_iff.mpr (List.ne_nil_of_mem carries)
  have remains : (change stored.object).metadata.gone = false := by
    rw [ObjectMeta.gone, filled, Bool.and_false]
  refine ⟨{ stored with object := change stored.object }, ?_, carries⟩
  rw [Server.write_objects, Function.update_self, found, Option.bind_some, Stored.settled]
  exact if_neg (Bool.eq_false_iff.mp remains)

/-- What a write leaves of an object is what was written. -/
theorem Server.of_write {key : ObjectKey} {stored : Stored}
    {change : DynamicObject → DynamicObject}
    {keeps : ∀ object, (change object).metadata.name = object.metadata.name ∧
      (change object).metadata.namespace_ = object.metadata.namespace_}
    (found : (server.write key change keeps).objects key = some stored) :
    ∃ old, server.objects key = some old ∧ stored.object = change old.object := by
  rw [Server.write_objects, Function.update_self] at found
  obtain ⟨old, was, settled⟩ := Option.bind_eq_some_iff.mp found
  unfold Stored.settled at settled
  split at settled
  · cases settled
  · exact ⟨old, was, by rw [← Option.some.inj settled]⟩

/-- The requests that may take the finalizer from an object. -/
def ApiRequest.Strips (key : ObjectKey) : ApiRequest → Prop
  | .jsonPatch api name _ => api.key name = key
  | .replace _ _ body => finalizer ∉ body.metadata.finalizerList
  | _ => False

/-- No other request takes the finalizer from an object. -/
theorem Served.strips (served : Served maker server request reply after) {key : ObjectKey}
    (carries : server.CarriesFinalizer key) (lacks : ¬after.CarriesFinalizer key) :
    request.Strips key := by
  obtain ⟨choice, eq⟩ := served
  have left : (server.serve maker choice request).2 = after := congrArg Prod.snd eq
  have effect := server.serve_effect maker choice request
  rw [left] at effect
  have target : request.target = some key := by
    by_contra other
    refine lacks ?_
    unfold Server.CarriesFinalizer
    rw [effect.objects_eq other]
    exact carries
  obtain ⟨stored, found, listed⟩ := carries
  cases request with
  | create api body =>
    obtain rfl := Option.some.inj target
    simp only [Server.serve, found] at left
    exact absurd ⟨stored, left ▸ found, listed⟩ lacks
  | replace api name body =>
    obtain rfl := Option.some.inj target
    simp only [Server.serve, found] at left
    split at left
    · exact absurd ⟨stored, left ▸ found, listed⟩ lacks
    · intro carried
      rw [← left] at lacks
      exact lacks (@Server.carries_write _ _ _ (choice.replaced · body) (fun _ => ⟨rfl, rfl⟩) found
        carried)
  | apply api name body =>
    obtain rfl := Option.some.inj target
    simp only [Server.serve, found] at left
    split at left
    · exact absurd ⟨stored, left ▸ found, listed⟩ lacks
    · have kept : finalizer ∈ (choice.applied stored.object body).metadata.finalizerList := by
        cases given : body.metadata.finalizers with
        | none =>
          simp only [Choice.applied, ObjectMeta.finalizerList, given]
          cases current : stored.object.metadata.finalizers with
          | none =>
            rw [ObjectMeta.finalizerList, current] at listed
            cases listed
          | some finalizers =>
            rw [ObjectMeta.finalizerList, current] at listed
            exact listed
        | some finalizers =>
          simp only [Choice.applied, ObjectMeta.finalizerList, given, Option.getD_some]
          exact List.mem_append_left _ listed
      rw [← left] at lacks
      exact absurd (@Server.carries_write _ _ _ (choice.applied · body) (fun _ => ⟨rfl, rfl⟩) found
        kept) lacks
  | jsonPatch api name patch => exact Option.some.inj target
  | delete api name =>
    obtain rfl := Option.some.inj target
    simp only [Server.serve, found] at left
    rw [← left] at lacks
    exact absurd (@Server.carries_write _ _ _ choice.deleted (fun _ => ⟨rfl, rfl⟩) found listed)
      lacks
  | _ => cases target

/-- Only a deletion makes an object terminate. -/
theorem Served.terminates (served : Served maker server request reply after) {key : ObjectKey}
    (terminating : after.Terminating key) :
    server.Terminating key ∨ ∃ api name, request = .delete api name ∧ api.key name = key := by
  obtain ⟨choice, eq⟩ := served
  have left : (server.serve maker choice request).2 = after := congrArg Prod.snd eq
  have effect := server.serve_effect maker choice request
  rw [left] at effect
  by_cases target : request.target = some key
  · obtain ⟨stored, found, set⟩ := terminating
    have written {change : DynamicObject → DynamicObject}
        {keeps : ∀ object, (change object).metadata.name = object.metadata.name ∧
          (change object).metadata.namespace_ = object.metadata.namespace_}
        (wrote : server.write key change keeps = after)
        (keepsTime : ∀ object,
          (change object).metadata.terminating = object.metadata.terminating) :
        server.Terminating key := by
      rw [← wrote] at found
      obtain ⟨old, was, changed⟩ := Server.of_write found
      rw [changed, keepsTime] at set
      exact ⟨old, was, set⟩
    have same (still : server = after) : server.Terminating key := ⟨stored, still ▸ found, set⟩
    have created {api : DynamicApi} {name : String} {body : DynamicObject}
        (here : api.key name = key)
        (made : (server.create maker choice api name body).2 = after) : False := by
      subst here
      rw [← made, Server.create_objects, Function.update_self] at found
      rw [← Option.some.inj found] at set
      cases set
    cases request with
    | create api body =>
      simp only [Server.serve] at left
      split at left
      · exact .inl (same left)
      · exact (created (Option.some.inj target) left).elim
    | replace api name body =>
      obtain rfl := Option.some.inj target
      simp only [Server.serve] at left
      split at left
      · exact .inl (same left)
      · split at left
        · exact .inl (same left)
        · exact .inl (@written (choice.replaced · body) (fun _ => ⟨rfl, rfl⟩) left fun _ => rfl)
    | apply api name body =>
      have here := Option.some.inj target
      simp only [Server.serve] at left
      split at left
      · split at left
        · exact .inl (same left)
        · exact (created here left).elim
      · subst here
        split at left
        · exact .inl (same left)
        · exact .inl (@written (choice.applied · body) (fun _ => ⟨rfl, rfl⟩) left fun _ => rfl)
    | jsonPatch api name patch =>
      obtain rfl := Option.some.inj target
      simp only [Server.serve] at left
      split at left
      · exact .inl (same left)
      · split at left
        · exact .inl (same left)
        · exact .inl (@written (choice.finalized · _) (fun _ => ⟨rfl, rfl⟩) left fun _ => rfl)
    | delete api name => exact .inr ⟨api, name, rfl, Option.some.inj target⟩
    | _ => cases target
  · refine .inl ?_
    unfold Server.Terminating
    rw [← effect.objects_eq target]
    exact terminating

/-- A patch that leaves the specification. -/
def ApiRequest.KeepsSpec : ApiRequest → Prop
  | .jsonPatchSync _ patch => patch.spec = none
  | _ => True

/-- An ObjectSync keeps its specification, and but for status writes its tracked destinations. -/
theorem Served.keepsSync (served : Served maker server request reply after)
    (keeps : request.KeepsSpec) {name : NamespacedName} {sync : ObjectSync}
    (found : after.syncs name = some sync) :
    ∃ former, server.syncs name = some former ∧ sync.spec = former.spec ∧
      ((∀ body, request ≠ .replaceSyncStatus name body) →
        sync.destinationList = former.destinationList) := by
  obtain ⟨choice, eq⟩ := served
  have left : (server.serve maker choice request).2 = after := congrArg Prod.snd eq
  have effect := server.serve_effect maker choice request
  rw [left] at effect
  by_cases target : request.syncTarget = some name
  · have unchanged (same : server = after) : ∃ former, server.syncs name = some former ∧
        sync.spec = former.spec ∧ ((∀ body, request ≠ .replaceSyncStatus name body) →
          sync.destinationList = former.destinationList) :=
      ⟨sync, same ▸ found, rfl, fun _ => rfl⟩
    cases request with
    | replaceSyncStatus name' body =>
      obtain rfl := Option.some.inj target
      simp only [Server.serve] at left
      split at left
      · exact unchanged left
      · rename_i current there
        split at left
        · exact unchanged left
        · rw [← left, Server.writeSync_syncs, Function.update_self, there,
            Option.bind_some] at found
          unfold ObjectSync.settled at found
          split at found
          · cases found
          · rw [← Option.some.inj found]
            exact ⟨current, there, rfl, fun other => absurd rfl (other body)⟩
    | jsonPatchSync name' patch =>
      obtain rfl := Option.some.inj target
      have none : patch.spec = none := keeps
      simp only [Server.serve] at left
      split at left
      · exact unchanged left
      · rename_i current there
        split at left
        · exact unchanged left
        · split at left
          · exact unchanged left
          · rw [← left, Server.writeSync_syncs, Function.update_self, there,
              Option.bind_some] at found
            unfold ObjectSync.settled at found
            split at found
            · cases found
            · rw [← Option.some.inj found]
              refine ⟨current, there, ?_, fun _ => rfl⟩
              rw [Choice.patched, none, Option.getD_none]
    | _ => cases target
  · exact ⟨sync, effect.syncs_eq target ▸ found, rfl, fun _ => rfl⟩

end Requests

/-- An ObjectSync as it is read during a run: its specification and its namespace are those it had
when the run started, and so are its tracked destinations, unless the run writes its status. -/
def Former (first : Server) (writes : NamespacedName → Prop) (name : NamespacedName)
    (sync : ObjectSync) : Prop :=
  ∃ former, first.syncs name = some former ∧ sync.spec = former.spec ∧
    sync.metadata.namespace_ = former.metadata.namespace_ ∧
    (¬writes name → sync.destinationList = former.destinationList)

/-- What a run learns from a reply about the state in which it started. -/
def Learns (first : Server) (protects : ObjectKey → Prop) (writes : NamespacedName → Prop)
    (cache : List Namespace) : (call : Call) → Reply call → Prop
  | .namespaces, namespaces => namespaces = cache
  | .api (.get api name), .ok object => object.metadata.terminating = true →
    first.Terminating (api.key name) ∨ ¬protects (api.key name)
  | .api (.getSync name), .ok sync => Former first writes name sync
  | .api (.replaceSyncStatus name _), .ok sync => writes name → Former first writes name sync
  | .api (.jsonPatchSync name patch), .ok sync =>
    patch.spec = none → Former first writes name sync
  | .api (.discoverGroup group), .ok apigroup => first.apis group = some apigroup
  | _, _ => True

/-- A call that takes the finalizer from nothing that is protected and keeps the specifications. -/
def Sparing (protects : ObjectKey → Prop) (writes : NamespacedName → Prop) : Call → Prop
  | .memory _ => False
  | .api (.jsonPatch api name _) => ¬protects (api.key name)
  | .api (.delete api name) => ¬protects (api.key name)
  | .api (.replace _ _ body) => finalizer ∈ body.metadata.finalizerList
  | .api (.replaceSyncStatus name _) => writes name
  | .api (.jsonPatchSync _ patch) => patch.spec = none
  | _ => True

/-- Programs whose calls take the finalizer from nothing that is protected. -/
def learning (first : Server) (protects : ObjectKey → Prop) (writes : NamespacedName → Prop)
    (cache : List Namespace) : Contract Call Reply Unit :=
  .requests (fun call reply => Honest call reply ∧ Learns first protects writes cache call reply)
    (Sparing protects writes)

/-- What sparing calls leave of the server in whose state they started. -/
structure Under (first : Server) (protects : ObjectKey → Prop) (writes : NamespacedName → Prop)
    (now : Server) : Prop where
  syncs : ∀ name sync, now.syncs name = some sync → Former first writes name sync
  terminating : ∀ key, now.Terminating key → first.Terminating key ∨ ¬protects key
  apis : now.apis = first.apis

section Sparing

variable {first now after : Server} {protects : ObjectKey → Prop} {writes : NamespacedName → Prop}
  {cache : List Namespace} {maker : Option ObjectSyncRef}

/-- The server in whose state the calls started is under it. -/
theorem Under.refl (first : Server) (protects : ObjectKey → Prop) (writes : NamespacedName → Prop) :
    Under first protects writes first :=
  ⟨fun _ sync found => ⟨sync, found, rfl, rfl, fun _ => rfl⟩, fun _ => .inl, rfl⟩

/-- A sparing request leaves a server under the one in whose state the calls started. -/
theorem Under.served (under : Under first protects writes now) {request : ApiRequest}
    {reply : Except KubeError (ApiValue request)} (served : Served maker now request reply after)
    (sparing : Sparing protects writes (.api request)) : Under first protects writes after := by
  have keeps : request.KeepsSpec := by
    cases request with
    | jsonPatchSync name patch => exact sparing
    | _ => trivial
  refine ⟨fun name sync found => ?_, fun key set => ?_, ?_⟩
  · obtain ⟨middle, found', spec, listed⟩ := served.keepsSync keeps found
    obtain ⟨former, was, spec', -, listed'⟩ := under.syncs name middle found'
    have namespace_ := (after.syncNamed found).2.trans (first.syncNamed was).2.symm
    refine ⟨former, was, spec.trans spec', namespace_, fun unwritten => ?_⟩
    rw [listed, listed' unwritten]
    rintro body rfl
    exact unwritten sparing
  · rcases served.terminates set with former | ⟨api, name, rfl, rfl⟩
    · exact under.terminating key former
    · exact .inr sparing
  · obtain ⟨choice, eq⟩ := served
    have effect := now.serve_effect maker choice request
    rw [eq] at effect
    refine Eq.trans ?_ under.apis
    cases effect <;> rfl

/-- The replies tell about the state in which the run started. -/
theorem Under.learns (under : Under first protects writes now) {call : Call} {reply : Reply call}
    (answered : answersBy (Served maker) now call reply after) (cached : Cached cache call reply) :
    Learns first protects writes cache call reply := by
  cases call with
  | namespaces => exact cached
  | clock => trivial
  | memory op => trivial
  | api request =>
    obtain ⟨choice, eq⟩ := answered
    have value : (now.serve maker choice request).1 = reply := congrArg Prod.fst eq
    cases reply with
    | error e => cases request <;> trivial
    | ok value' =>
      cases request with
      | get api name =>
        intro set
        simp only [Server.serve] at value
        split at value
        · cases value
        · rename_i stored found
          obtain rfl := Except.ok.inj value
          exact under.terminating _ ⟨stored, found, set⟩
      | getSync name =>
        simp only [Server.serve] at value
        split at value
        · cases value
        · rename_i sync found
          obtain rfl := Except.ok.inj value
          exact under.syncs name sync found
      | replaceSyncStatus name body =>
        intro written
        simp only [Server.serve] at value
        split at value
        · cases value
        · rename_i sync found
          split at value
          · cases value
          · obtain rfl := Except.ok.inj value
            obtain ⟨former, was, spec, namespace_, -⟩ := under.syncs name sync found
            exact ⟨former, was, spec, namespace_, fun unwritten => absurd written unwritten⟩
      | jsonPatchSync name patch =>
        intro none
        simp only [Server.serve] at value
        split at value
        · cases value
        · rename_i sync found
          split at value
          · cases value
          · split at value
            · cases value
            · obtain rfl := Except.ok.inj value
              obtain ⟨former, was, spec, namespace_, listed⟩ := under.syncs name sync found
              refine ⟨former, was, ?_, namespace_, listed⟩
              rw [Choice.patched, none, Option.getD_none, spec]
      | discoverGroup group =>
        simp only [Server.serve] at value
        split at value
        · cases value
        · rename_i apigroup found
          obtain rfl := Except.ok.inj value
          show first.apis group = some apigroup
          rw [← under.apis]
          exact found
      | _ => trivial

/-- Undisturbed runs that keep the finalizers of what others depend on. -/
@[reducible] def protecting (run : Run) (cache : List Namespace) :
    Contract (Option ObjectSyncRef × Call) (fun call => Reply call.2) Cluster where
  rely := Eq
  answers := Cluster.answers cache
  guarantee := fun before _ _ after =>
    KeepsFinalizers run before.system.server after.system.server

/-- What is protected from the start covers what others depend on now. -/
theorem Under.covers {run : Run} {name : NamespacedName} {key : ObjectKey}
    (under : Under first protects writes now) (depends : now.DependsOn name key)
    (other : run ≠ .delete ⟨name⟩) : first.Protects run writes key := by
  obtain ⟨sync, found, designates, tracked⟩ := depends
  obtain ⟨former, was, spec, namespace_, listed⟩ := under.syncs name sync found
  refine ⟨name, former, was, ?_, other, ?_⟩
  · rw [← designates]
    exact (ObjectSync.sourceKey_eq spec namespace_).symm
  · by_cases written : writes name
    · exact .inr written
    · exact .inl (listed written ▸ tracked)

/-- Less protection, and more that may be written. -/
theorem Under.mono {protects' : ObjectKey → Prop} {writes' : NamespacedName → Prop}
    (under : Under first protects writes now) (fewer : ∀ key, protects' key → protects key)
    (more : ∀ name, writes name → writes' name) : Under first protects' writes' now := by
  refine ⟨fun name sync found => ?_, fun key terminating => ?_, under.apis⟩
  · obtain ⟨former, was, spec, namespace_, listed⟩ := under.syncs name sync found
    exact ⟨former, was, spec, namespace_, fun unwritten => listed fun written =>
      unwritten (more name written)⟩
  · exact (under.terminating key terminating).imp_right fun free known => free (fewer key known)

/-- Where the server stays as it is, no finalizer is taken. -/
theorem keepsFinalizers_of_eq {run : Run} (same : after = now) : KeepsFinalizers run now after := by
  subst same
  exact fun key carries lacks => absurd carries lacks

/-- A program of sparing calls keeps the finalizers of what others depend on, and leaves the server
under them. -/
theorem wp_sparing {α : Type} {result : α → Prop} {program : Async α} {run : Run}
    {cluster : Cluster} (covers : ∀ key, first.Protects run writes key → protects key)
    (shape : program.wp (learning first protects writes cache) (fun value _ => result value) ())
    (under : Under first protects writes cluster.system.server) (maker : Option ObjectSyncRef) :
    program.wp ((protecting run cache).under maker)
      (fun value after => result value ∧ Under first protects writes after.system.server ∧
        after.system.memory = cluster.system.memory) cluster := by
  unfold learning at shape
  refine @wp_requests_of _ _ _ _ ((protecting run cache).under maker) _ _
    (fun after => Under first protects writes after.system.server ∧
      after.system.memory = cluster.system.memory) _ _ _ shape ?_ ?_ ?_ ⟨under, rfl⟩
  · intro before call reply after kept answered
    have answered' : System.answersBy (Served maker) before.system call reply after.system :=
      answered.1
    exact ⟨Cluster.answers_honest answered,
      kept.1.learns (System.server_of_answered answered') answered.2.1⟩
  · intro before moved kept same
    exact same ▸ kept
  · intro before call reply after kept sparing answered
    have answered' : System.answersBy (Served maker) before.system call reply after.system :=
      answered.1
    cases call with
    | memory op => exact sparing.elim
    | api request =>
      refine ⟨fun key carries lacks name depends => ?_, kept.1.served answered'.1 sparing,
        answered'.2.trans kept.2⟩
      by_contra other
      have protected_ := covers key (kept.1.covers depends other)
      have strips := Served.strips answered'.1 carries lacks
      cases request with
      | jsonPatch api name' patch =>
        rw [← strips] at protected_
        exact sparing protected_
      | replace api name' body => exact strips sparing
      | _ => exact strips.elim
    | namespaces =>
      have same : after.system = before.system := answered'
      exact ⟨keepsFinalizers_of_eq (congrArg System.server same), same ▸ kept⟩
    | clock =>
      have same : after.system = before.system := answered'
      exact ⟨keepsFinalizers_of_eq (congrArg System.server same), same ▸ kept⟩

end Sparing

/-! ## The functions of the controller make such calls -/

/-- Requests to a destination that is not protected. -/
theorem DestinationStatus.Removal.sparing {d : DestinationStatus} {request : ApiRequest}
    {protects : ObjectKey → Prop} {writes : NamespacedName → Prop} (removal : d.Removal request)
    (free : ¬protects d.key) : Sparing protects writes (.api request) := by
  cases removal with
  | get => trivial
  | release patch => exact free
  | delete => exact free

/-- The working copy addresses an ObjectSync of a given name, and has its specification and
namespace. -/
structure WorksOn (name : NamespacedName) (sync : ObjectSync) (event : ObjectSyncModifications) :
    Prop where
  address : event.address = name
  spec : event.modified.spec = sync.spec
  namespace_ : event.modified.metadata.namespace_ = sync.metadata.namespace_

section Shapes

variable {first : Server} {protects : ObjectKey → Prop} {writes : NamespacedName → Prop}
  {cache : List Namespace} {name : NamespacedName} {sync : ObjectSync}
  {event : ObjectSyncModifications}

/-- What is known of a program for honest replies is known of it for replies under a server. -/
theorem wp_learning {α : Type} {post : α → Unit → Prop} {program : Async α}
    (shape : program.wp (.requests Honest (Sparing protects writes)) post ()) :
    program.wp (learning first protects writes cache) post () := by
  refine wp_mono ?_ ?_ ?_ ?_ shape
  · exact fun _ _ => id
  · exact fun _ _ _ _ answered => answered.1
  · exact fun _ _ _ _ _ => id
  · exact fun _ _ => id

/-- A stored ObjectSync is a working copy of itself. -/
theorem worksOn_new (found : first.syncs name = some sync) : WorksOn name sync (.new sync) := by
  have named := first.syncNamed found
  refine ⟨?_, rfl, rfl⟩
  unfold ObjectSyncModifications.address ObjectSyncModifications.new
  rw [ObjectMeta.nameAny, named.1, named.2]
  rfl

/-- Changing anything but the specification and the identity. -/
theorem WorksOn.modify (works : WorksOn name sync event) {change : ObjectSync → ObjectSync}
    (named : (change event.modified).metadata.nameAny = event.modified.metadata.nameAny)
    (spec : (change event.modified).spec = event.modified.spec)
    (namespace_ : (change event.modified).metadata.namespace_ =
      event.modified.metadata.namespace_) : WorksOn name sync (event.modify change) := by
  refine ⟨?_, spec.trans works.spec, namespace_.trans works.namespace_⟩
  rw [← works.address]
  unfold ObjectSyncModifications.address ObjectSyncModifications.modify
  rw [named]

/-- A run works on its ObjectSync after putting other finalizers into the working copy. -/
theorem WorksOn.setFinalizers (works : WorksOn name sync event) (finalizers : List String) :
    WorksOn name sync (ObjectSyncController.setFinalizers event finalizers) :=
  ⟨works.address, works.spec, works.namespace_⟩

/-- What was read or written replaces the working copy. -/
theorem WorksOn.of_former (found : first.syncs name = some sync) {written : ObjectSync}
    (identity : ObjectSyncRef.ofSync written = ⟨name⟩) (former : Former first writes name written) :
    WorksOn name sync ⟨written, written⟩ := by
  obtain ⟨former, was, spec, namespace_, -⟩ := former
  rw [found] at was
  obtain rfl := Option.some.inj was
  exact ⟨congrArg ObjectSyncRef.name identity, spec, namespace_⟩

/-- Replacing the status spares what is protected. -/
theorem replaceStatus_sparing (found : first.syncs name = some sync) (written : writes name)
    (works : WorksOn name sync event) :
    event.replaceStatus.wp (learning first protects writes cache)
      (fun value _ => WorksOn name sync value.1 ∧ value.1.modified.status = event.modified.status)
      () := by
  unfold ObjectSyncModifications.replaceStatus
  split
  · unfold ObjectSyncModifications.latest
    rw [works.address, wp_api]
    intro _ _ reply _ _
    refine ⟨trivial, ?_⟩
    cases reply with
    | error e => exact ⟨works, rfl⟩
    | ok latest =>
      dsimp only
      rw [wp_bind]
      unfold ObjectSyncModifications.replaceStatusWith
      dsimp only
      rw [ObjectSyncModifications.address_withResourceVersion, works.address, wp_api]
      intro _ _ reply _ answered
      refine ⟨written, ?_⟩
      cases reply with
      | error e =>
        exact ⟨@WorksOn.modify _ _ _ works
          (·.withResourceVersion latest.metadata.resourceVersion) rfl
          rfl rfl, rfl⟩
      | ok new => exact ⟨.of_former found answered.1.1 (answered.2 written), answered.1.2⟩
  · exact ⟨works, rfl⟩

/-- Updating a condition spares what is protected. -/
theorem updateCondition_sparing (works : WorksOn name sync event) (condition : Condition) :
    (event.updateCondition condition).wp (learning first protects writes cache)
      (fun value _ => WorksOn name sync value) () := by
  unfold ObjectSyncModifications.updateCondition
  rw [wp_clock]
  intro _ _ time _ _
  exact ⟨trivial, works.modify rfl rfl rfl⟩

/-- Deleting the tracked destinations spares what is protected, if none of them is. -/
theorem deleteDestinations_sparing (found : first.syncs name = some sync) (written : writes name)
    (works : WorksOn name sync event)
    (free : ∀ d ∈ event.modified.destinationList, ¬protects d.key) :
    (ObjectSyncController.deleteDestinations event).wp (learning first protects writes cache)
      (fun value _ => WorksOn name sync value.1) () := by
  unfold ObjectSyncController.deleteDestinations
  cases tracked : event.modified.statusDestinations with
  | none => exact works
  | some destinations =>
    have listed : event.modified.destinationList = destinations :=
      ObjectSync.destinationList_of_tracked tracked
    rw [listed] at free
    dsimp only
    rw [wp_bind]
    refine wp_imp (fun result _ _ => ?_) (wp_learning (requests_deleteDestinations destinations
      fun d member request removal => removal.sparing (free d member)))
    cases result with
    | error e => exact works
    | ok remaining =>
      dsimp only
      rw [wp_bind]
      refine wp_imp (fun event' _ works' => ?_) (updateCondition_sparing works _)
      have works'' : WorksOn name sync (event'.updateDestinations remaining) :=
        works'.modify rfl rfl rfl
      rw [wp_bind]
      refine wp_imp (fun value _ kept => ?_) (replaceStatus_sparing found written works'')
      obtain ⟨event'', result⟩ := value
      cases result with
      | error e => exact kept.1
      | ok =>
        dsimp only
        split <;> exact kept.1

/-- Patching an ObjectSync whose specification has not changed. -/
theorem patchSpec_sparing (found : first.syncs name = some sync) (works : WorksOn name sync event) :
    event.patchSpec.wp (learning first protects writes cache)
      (fun value _ => WorksOn name sync value.1 ∧ (value.1.modified = event.modified ∨
        Former first writes name value.1.modified)) () := by
  unfold ObjectSyncModifications.patchSpec
  split
  · unfold ObjectSyncModifications.patchSpecNow
    rw [works.address, wp_api]
    intro _ _ reply _ answered
    refine ⟨trivial, ?_⟩
    cases reply with
    | error e => exact ⟨works, .inl rfl⟩
    | ok latest =>
      obtain ⟨former, was, spec, -⟩ := answered.2
      rw [found] at was
      obtain rfl := Option.some.inj was
      have none : (ObjectSyncPatch.diff latest event.modified).spec = none :=
        if_pos (spec.trans works.spec.symm)
      dsimp only
      unfold ObjectSyncModifications.getSpecPatch
      dsimp only
      split
      · exact ⟨works, .inl rfl⟩
      · rename_i patch given
        split at given
        · cases given
        · obtain rfl := Option.some.inj given
          rw [wp_api]
          intro _ _ reply _ answered
          refine ⟨none, ?_⟩
          cases reply with
          | error e => exact ⟨works, .inl rfl⟩
          | ok new =>
            have former := answered.2 none
            exact ⟨.of_former found answered.1 former, .inr former⟩
  · exact ⟨works, .inl rfl⟩

/-- Adding the finalizer of an ObjectSync. -/
theorem addFinalizerIfMissing_sparing (found : first.syncs name = some sync) :
    (ObjectSyncController.addFinalizerIfMissing (.new sync)).wp
      (learning first protects writes cache) (fun value _ => WorksOn name sync value.1 ∧
        (¬writes name → value.1.modified.destinationList = sync.destinationList)) () := by
  unfold ObjectSyncController.addFinalizerIfMissing
  dsimp only
  have works := worksOn_new found
  split
  · exact ⟨works.setFinalizers _, fun _ => rfl⟩
  · rw [wp_bind]
    refine wp_imp (fun value _ kept => ⟨kept.1, fun unwritten => ?_⟩)
      (patchSpec_sparing found (works.setFinalizers _))
    rcases kept.2 with same | ⟨former, was, -, -, listed⟩
    · rw [same]
      rfl
    · rw [found] at was
      obtain rfl := Option.some.inj was
      exact listed unwritten

/-- Removing the finalizer of an ObjectSync. -/
theorem removeFinalizer_sparing (found : first.syncs name = some sync)
    (works : WorksOn name sync event) :
    (ObjectSyncController.removeFinalizer event).wp (learning first protects writes cache)
      (fun _ _ => True) () := by
  unfold ObjectSyncController.removeFinalizer
  dsimp only
  split
  · rw [wp_bind]
    exact wp_imp (fun _ _ _ => trivial) (patchSpec_sparing found (works.setFinalizers _))
  · trivial

/-- Discovering the kind of a source spares what is protected. -/
theorem getGvk_sparing (source : SourceObject) :
    (ObjectSyncController.getGvk source).wp (learning first protects writes cache)
      (fun value _ => ∀ gvk, value = .ok gvk → first.discovered source = some gvk) () := by
  unfold ObjectSyncController.getGvk
  rw [wp_api]
  intro _ _ reply _ answered
  refine ⟨trivial, ?_⟩
  cases reply with
  | error e =>
    cases e <;>
    · intro gvk same
      cases same
  | ok apigroup =>
    intro gvk same
    have listed : first.apis source.group = some apigroup := answered.2
    rw [Server.discovered, listed, Option.bind_some, same]
    rfl

/-- Releasing the source spares what is protected, if the source is not. -/
theorem releaseSource_sparing (works : WorksOn name sync event)
    (free : ∀ gvk, first.discovered sync.spec.source = some gvk →
      ¬protects (DynamicApi.key ⟨gvk, sync.sourceNamespace.getD ""⟩ sync.sourceName)) :
    (ObjectSyncController.releaseSource event).wp (learning first protects writes cache)
      (fun _ _ => True) () := by
  unfold ObjectSyncController.releaseSource
  have sourceName : event.modified.sourceName = sync.sourceName := by
    rw [ObjectSync.sourceName, works.spec]
    rfl
  have sourceNamespace : event.modified.sourceNamespace = sync.sourceNamespace := by
    rw [ObjectSync.sourceNamespace, works.spec, works.namespace_]
    rfl
  rw [works.spec, wp_bind]
  refine wp_imp (fun result _ discovered => ?_) (getGvk_sparing sync.spec.source)
  split
  · rename_i gvk
    have spared := free gvk (discovered gvk rfl)
    dsimp only
    rw [sourceName, sourceNamespace, wp_api]
    intro _ _ reply _ answered
    refine ⟨trivial, ?_⟩
    cases reply with
    | ok object =>
      have named : (ensureGvk object gvk).metadata.nameAny = sync.sourceName := answered.1
      dsimp only
      rw [wp_bind]
      refine wp_imp (fun _ _ _ => trivial)
        (wp_learning (requests_removeFinalizer _ _ _ fun patch => ?_))
      rw [named]
      exact spared
    | error e =>
      dsimp only
      split <;> trivial
  · trivial
  · trivial

/-- Publishing a condition spares what is protected. -/
theorem publish_sparing (found : first.syncs name = some sync) (written : writes name)
    (works : WorksOn name sync event) (condition : Condition) :
    (ObjectSyncController.publish event condition).wp (learning first protects writes cache)
      (fun _ _ => True) () := by
  unfold ObjectSyncController.publish
  rw [wp_bind]
  refine wp_imp (fun event' _ works' => ?_) (updateCondition_sparing works condition)
  exact wp_imp (fun _ _ _ => trivial) (replaceStatus_sparing found written works')

end Shapes

namespace ResourceControllerImpl

section Upsert

variable {first : Server} {protects : ObjectKey → Prop} {writes : NamespacedName → Prop}
  {cache : List Namespace} {api : DynamicApi} {srcVersion : ObjectRevision}
  {d : DestinationStatus} {state : UpsertState}

/-- The template of a copy, which carries the finalizer. -/
structure Fits (d : DestinationStatus) (template : DynamicObject) : Prop where
  named : template.metadata.nameAny = d.name
  finalizers : template.metadata.finalizers = some [finalizer]

/-- Updating a copy spares what is protected. -/
theorem updateExisting_sparing {current : DynamicObject} (fits : Fits d state.template) :
    (updateExisting api srcVersion current d state).wp (learning first protects writes cache)
      (fun value _ => value.1.target = d.target ∧ Fits d value.2.1.template) () := by
  unfold updateExisting
  dsimp only
  have fits' : Fits d (withRevision state.template current.metadata.revision) :=
    ⟨fits.named, fits.finalizers⟩
  have carries : finalizer ∈ (withRevision state.template
      current.metadata.revision).metadata.finalizerList := by
    rw [ObjectMeta.finalizerList, fits'.finalizers]
    exact List.mem_singleton_self _
  split
  · cases d.effectiveStrategy <;> dsimp only <;> rw [wp_api] <;> intro _ _ reply _ _
    · refine ⟨trivial, ?_⟩
      cases reply with
      | ok updated => exact ⟨rfl, fits'⟩
      | error e =>
        dsimp only
        split <;> exact ⟨rfl, fits'⟩
    · refine ⟨carries, ?_⟩
      cases reply with
      | ok updated => exact ⟨rfl, fits'⟩
      | error e =>
        dsimp only
        split <;> exact ⟨rfl, fits'⟩
  · exact ⟨rfl, fits⟩

/-- Creating a copy spares what is protected. -/
theorem createMissing_sparing (fits : Fits d state.template) :
    (createMissing api srcVersion d state).wp (learning first protects writes cache)
      (fun value _ => value.1.target = d.target ∧ Fits d value.2.1.template) () := by
  unfold createMissing
  rw [wp_api]
  intro _ _ reply _ _
  refine ⟨trivial, ?_⟩
  cases reply with
  | ok created => exact ⟨rfl, fits⟩
  | error e =>
    dsimp only
    split <;> exact ⟨rfl, fits⟩

/-- An attempt releases a terminating copy. -/
theorem upsertAttempt_sparing (fits : Fits d state.template)
    (renewed : first.Terminating (api.key d.name) → ¬protects (api.key d.name)) :
    (upsertAttempt api srcVersion d state).wp (learning first protects writes cache)
      (fun value _ => value.1.target = d.target ∧ Fits d value.2.1.template) () := by
  unfold upsertAttempt
  dsimp only
  have fits' : Fits d (withRevision state.template ⟨none, none⟩) := ⟨fits.named, fits.finalizers⟩
  rw [wp_api]
  intro _ _ reply _ answered
  refine ⟨trivial, ?_⟩
  cases reply with
  | ok current =>
    dsimp only
    split
    · rename_i terminating
      have free : ¬protects (api.key current.metadata.nameAny) := by
        have named : current.metadata.nameAny = d.name := answered.1
        rw [named]
        exact (answered.2 terminating).elim renewed id
      rw [wp_bind]
      refine wp_imp (fun value _ _ => ?_)
        (wp_learning (requests_removeFinalizer api current finalizer fun _ => free))
      split
      · exact ⟨rfl, fits'⟩
      · exact updateExisting_sparing fits'
    · exact updateExisting_sparing fits'
  | error e =>
    dsimp only
    split
    · exact createMissing_sparing fits'
    · exact ⟨rfl, fits'⟩

/-- All attempts for a copy spare what is protected, unless it is terminating. -/
theorem upsertLoop_sparing (attempts : Nat) (fits : Fits d state.template)
    (renewed : first.Terminating (api.key d.name) → ¬protects (api.key d.name)) :
    (upsertLoop api srcVersion attempts d state).wp (learning first protects writes cache)
      (fun _ _ => True) () := by
  induction attempts generalizing d state with
  | zero => trivial
  | succ attempts ih =>
    rw [upsertLoop, wp_bind]
    refine wp_imp ?_ (upsertAttempt_sparing fits renewed)
    rintro ⟨d', state', flow⟩ _ ⟨same, fits'⟩
    have name : d'.name = d.name := congrArg (·.name) same
    cases flow with
    | continue_ =>
      refine ih ⟨fits'.named.trans name.symm, fits'.finalizers⟩ ?_
      rw [name]
      exact renewed
    | break_ => trivial

variable {self : ResourceControllerImpl} {name : NamespacedName} {sync : ObjectSync}
  {event : ObjectSyncModifications} {source : DynamicObject}

/-- Creating and updating the destinations, and writing the status. -/
theorem syncDestinations_sparing (found : first.syncs name = some sync) (written : writes name)
    (works : WorksOn name sync event) (staleRemnants : List DestinationStatus)
    (removedCount : Nat)
    (renewed : ∀ d ∈ event.modified.destinationList, isRemnant staleRemnants d = false →
      first.Terminating ((self.namespacedApi d.namespace_).key d.name) →
        ¬protects ((self.namespacedApi d.namespace_).key d.name)) :
    (self.syncDestinations event source staleRemnants removedCount).wp
      (learning first protects writes cache) (fun _ _ => True) () := by
  unfold syncDestinations
  cases tracked : event.modified.statusDestinations with
  | none => trivial
  | some destinations =>
    have listed : event.modified.destinationList = destinations :=
      ObjectSync.destinationList_of_tracked tracked
    rw [listed] at renewed
    unfold upsertDestinations
    dsimp only
    rw [wp_bind, wp_bind]
    refine wp_imp (fun value _ _ => ?_) (@wp_upsertEach_loop _ _ _
      (fun _ todo _ _ => ∀ d ∈ todo, d ∈ destinations) self staleRemnants
      (fun _ _ _ _ _ _ listed other member => listed other (List.mem_cons_of_mem _ member)) ?_ []
      destinations ⟨sourceTemplate source, false, 0⟩ () fun _ => id)
    · rw [pure_eq, wp_done]
      dsimp only
      have works' : WorksOn name sync (event.updateDestinations value.1) :=
        works.modify rfl rfl rfl
      split
      · rw [wp_bind]
        refine wp_imp (fun event' _ works'' => ?_) (updateCondition_sparing works' _)
        exact wp_imp (fun _ _ _ => trivial) (replaceStatus_sparing found written works'')
      · trivial
    · intro handled d todo state _ other listed
      refine wp_imp (fun _ _ _ d' member => listed d' (List.mem_cons_of_mem _ member))
        (upsertLoop_sparing 3 ⟨rfl, rfl⟩ (renewed d (listed d List.mem_cons_self) other))

/-- Synchronizing an ObjectSync spares what is protected, if no stale or terminating destination is.
-/
theorem reconcileSource_sparing (found : first.syncs name = some sync) (written : writes name)
    (stale : ∀ d ∈ (self.splitDestinations (expectedDestinations sync cache)
      sync.destinationList).2, ¬protects d.key)
    (renewed : ∀ target ∈ expectedDestinations sync cache,
      first.Terminating (self.expectedStatus target).key →
        ¬protects (self.expectedStatus target).key) :
    (self.reconcileSource (.new sync) source).wp (learning first protects writes cache)
      (fun _ _ => True) () := by
  unfold reconcileSource
  rw [wp_namespaces]
  intro _ _ cache' _ answered
  obtain rfl : cache' = cache := answered.2
  refine ⟨trivial, ?_⟩
  have unmodified : (ObjectSyncModifications.new sync).modified = sync := rfl
  dsimp only
  rw [unmodified]
  have designates := fun d => @exists_target_of_mem_expected self
    (expectedDestinations sync cache') sync.destinationList d
  generalize self.splitDestinations (expectedDestinations sync cache') sync.destinationList =
    split at designates stale ⊢
  obtain ⟨expected, staleEntries⟩ := split
  dsimp only at designates stale ⊢
  rw [wp_bind]
  refine wp_imp (fun result _ sublist => ?_) (wp_learning (requests_deleteDestinations staleEntries
    fun d member request removal => removal.sparing (stale d member)))
  cases result with
  | error e => trivial
  | ok staleRemnants =>
    dsimp only
    rw [wp_bind]
    have works : WorksOn name sync ((ObjectSyncModifications.new sync).updateDestinations
        (sortDestinations (expected ++ staleRemnants))) := (worksOn_new found).modify rfl rfl rfl
    refine wp_imp (fun value _ kept => ?_) (replaceStatus_sparing found written works)
    obtain ⟨event', result⟩ := value
    cases result with
    | error e => trivial
    | ok =>
      refine syncDestinations_sparing found written kept.1 staleRemnants _ ?_
      -- The entries tracked now are the expected ones and the remnants.
      intro d member current terminating
      rw [ObjectSync.destinationList_eq_of_status kept.2] at member
      obtain ⟨target, wanted, same⟩ := designates d (mem_of_not_isRemnant member current)
      have key : (self.namespacedApi d.namespace_).key d.name =
          (self.expectedStatus target).key := by
        rw [namespacedApi_key same, same, DestinationStatus.target_key]
      rw [key] at terminating ⊢
      exact renewed target wanted terminating

end Upsert

end ResourceControllerImpl

end ObjectSyncer
