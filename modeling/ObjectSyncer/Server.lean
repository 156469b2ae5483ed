import ObjectSyncer.Requests

/-!
# The API server

The objects and ObjectSyncs that the API server stores, and how it serves a request. What it is free
to choose, such as the next resource version, is an argument, so that serving is executable for
given choices and a relation over all of them. Every object remembers the ObjectSync for which the
controller created it; that is never read by the controller.
-/
namespace ObjectSyncer

open Interaction Interaction.Program

/-- An object and the ObjectSync for which the controller created it, if any. -/
structure Stored where
  object : DynamicObject
  copyOf : Option ObjectSyncRef
  deriving DecidableEq, Repr

/-- An object lies under its own name and namespace. -/
def ObjectMeta.Named (metadata : ObjectMeta) (namespace_ name : String) : Prop :=
  metadata.name = some name ∧ metadata.namespace_ = some namespace_

/-- An ObjectSync is identified by its name. -/
theorem ObjectMeta.Named.ofSync {sync : ObjectSync} {name : NamespacedName}
    (named : sync.metadata.Named name.namespace_ name.name) :
    ObjectSyncRef.ofSync sync = ⟨name⟩ := by
  rw [ObjectSyncRef.ofSync, ObjectMeta.nameAny, named.1, named.2]
  rfl

/-- The state of the API server. -/
structure Server where
  /-- The objects of all kinds but ObjectSyncs. -/
  objects : ObjectKey → Option Stored
  /-- The ObjectSyncs. -/
  syncs : NamespacedName → Option ObjectSync
  /-- The discovered API groups. -/
  apis : String → Option ApiGroup
  /-- Objects are stored under their names. -/
  named : ∀ {key stored}, objects key = some stored →
    stored.object.metadata.Named key.namespace_ key.name
  /-- ObjectSyncs are stored under their names. -/
  syncNamed : ∀ {name sync}, syncs name = some sync → sync.metadata.Named name.namespace_ name.name

/-- What the server chooses when it serves a request. -/
structure Choice where
  /-- The UID of an object to be created. -/
  uid : String
  /-- The next resource version. -/
  resourceVersion : String
  /-- The time. -/
  time : Int
  /-- The fields that an apply drops when its configuration omits them. -/
  dropped : List String
  deriving DecidableEq, Repr

/-- A body as it is stored by a create. -/
def Choice.created (choice : Choice) (namespace_ name : String) (body : DynamicObject) :
    DynamicObject :=
  { body with
    metadata :=
      { body.metadata with
        name := some name
        namespace_ := some namespace_
        uid := some choice.uid
        resourceVersion := some choice.resourceVersion
        creationTimestamp := some choice.time
        deletionTimestamp := none } }

/-- A body as it is stored by a replace. -/
def Choice.replaced (choice : Choice) (current body : DynamicObject) : DynamicObject :=
  { body with
    metadata :=
      { body.metadata with
        name := current.metadata.name
        namespace_ := current.metadata.namespace_
        uid := current.metadata.uid
        resourceVersion := some choice.resourceVersion
        creationTimestamp := current.metadata.creationTimestamp
        deletionTimestamp := current.metadata.deletionTimestamp } }

/-- Put all fields of a configuration into a map, dropping some of the others. -/
def mergeFields (dropped : List String) (current body : StringMap) : StringMap :=
  body.foldr (fun field fields => StringMap.insert fields field.1 field.2)
    (current.filter fun field => field.1 ∉ dropped)

/-- `mergeFields` where a map may be absent. -/
def mergeOptional (dropped : List String) : Option StringMap → Option StringMap → Option StringMap
  | none, none => none
  | current, body => some (mergeFields dropped (current.getD []) (body.getD []))

/-- A configuration merged into an object by a forced server-side apply. -/
def Choice.applied (choice : Choice) (current body : DynamicObject) : DynamicObject where
  types := current.types
  metadata :=
    { current.metadata with
      resourceVersion := some choice.resourceVersion
      labels := mergeOptional choice.dropped current.metadata.labels body.metadata.labels
      annotations :=
        mergeOptional choice.dropped current.metadata.annotations body.metadata.annotations
      finalizers :=
        match current.metadata.finalizers, body.metadata.finalizers with
        | finalizers, none => finalizers
        | finalizers, some added =>
          some (finalizers.getD [] ++ added.filter (· ∉ finalizers.getD [])) }
  data := mergeFields choice.dropped current.data body.data

/-- A list of finalizers put into an object. -/
def Choice.finalized (choice : Choice) (current : DynamicObject)
    (finalizers : Option (List String)) : DynamicObject :=
  { current with
    metadata :=
      { current.metadata with
        finalizers := finalizers, resourceVersion := some choice.resourceVersion } }

/-- An object asked to terminate; the first request sets the time. -/
def Choice.deleted (choice : Choice) (current : DynamicObject) : DynamicObject :=
  { current with
    metadata :=
      { current.metadata with
        deletionTimestamp := current.metadata.deletionTimestamp.or (some choice.time)
        resourceVersion := some choice.resourceVersion } }

/-- A terminating object without finalizers is gone. -/
def ObjectMeta.gone (metadata : ObjectMeta) : Bool :=
  metadata.terminating && metadata.finalizerList.isEmpty

/-- What is left of an object once it was written. -/
def Stored.settled (stored : Stored) : Option Stored :=
  if stored.object.metadata.gone then none else some stored

/-- Whether a body names another object or revision than the current one. -/
def ObjectMeta.conflicts (body current : ObjectMeta) : Bool :=
  (body.uid.isSome && body.uid != current.uid) ||
    (body.resourceVersion.isSome && body.resourceVersion != current.resourceVersion)

/-- A status put into an ObjectSync. -/
def Choice.withStatus (choice : Choice) (current body : ObjectSync) : ObjectSync where
  metadata := { current.metadata with resourceVersion := some choice.resourceVersion }
  spec := current.spec
  status := body.status

/-- A patch applied to an ObjectSync, whose finalizers are given. The server keeps what only it may
change. -/
def Choice.patched (choice : Choice) (current : ObjectSync) (patch : ObjectSyncPatch)
    (finalizers : Option (List String)) : ObjectSync where
  metadata :=
    { patch.metadata.getD current.metadata with
      name := current.metadata.name
      namespace_ := current.metadata.namespace_
      uid := current.metadata.uid
      resourceVersion := some choice.resourceVersion
      generation := current.metadata.generation
      creationTimestamp := current.metadata.creationTimestamp
      deletionTimestamp := current.metadata.deletionTimestamp
      finalizers := finalizers }
  spec := patch.spec.getD current.spec
  status := current.status

/-- What is left of an ObjectSync once it was written. -/
def ObjectSync.settled (sync : ObjectSync) : Option ObjectSync :=
  if sync.metadata.gone then none else some sync

/-- What is left of an object has its name. -/
theorem Stored.settled_named {stored : Stored} {namespace_ name : String}
    (named : stored.object.metadata.Named namespace_ name) {new : Stored}
    (settled : stored.settled = some new) : new.object.metadata.Named namespace_ name := by
  unfold Stored.settled at settled
  split at settled
  · contradiction
  · exact Option.some.inj settled ▸ named

/-- What is left of an ObjectSync has its name. -/
theorem ObjectSync.settled_named {sync : ObjectSync} {namespace_ name : String}
    (named : sync.metadata.Named namespace_ name) {new : ObjectSync}
    (settled : sync.settled = some new) : new.metadata.Named namespace_ name := by
  unfold ObjectSync.settled at settled
  split at settled
  · contradiction
  · exact Option.some.inj settled ▸ named

namespace Server

/-- Store an object under its name, or remove it. -/
def put (server : Server) (key : ObjectKey) (stored : Option Stored)
    (named : ∀ {new}, stored = some new → new.object.metadata.Named key.namespace_ key.name) :
    Server where
  objects := Function.update server.objects key stored
  syncs := server.syncs
  apis := server.apis
  named := by
    intro key' stored' found
    by_cases same : key' = key
    · subst same
      rw [Function.update_self] at found
      exact named found
    · rw [Function.update_of_ne same] at found
      exact server.named found
  syncNamed := server.syncNamed

/-- Store an ObjectSync under its name, or remove it. -/
def putSync (server : Server) (name : NamespacedName) (sync : Option ObjectSync)
    (named : ∀ {new}, sync = some new → new.metadata.Named name.namespace_ name.name) : Server where
  objects := server.objects
  syncs := Function.update server.syncs name sync
  apis := server.apis
  named := server.named
  syncNamed := by
    intro name' sync' found
    by_cases same : name' = name
    · subst same
      rw [Function.update_self] at found
      exact named found
    · rw [Function.update_of_ne same] at found
      exact server.syncNamed found

/-- Change a stored object without renaming it. -/
def write (server : Server) (key : ObjectKey) (change : DynamicObject → DynamicObject)
    (keeps : ∀ object, (change object).metadata.name = object.metadata.name ∧
      (change object).metadata.namespace_ = object.metadata.namespace_) : Server :=
  server.put key
    ((server.objects key).bind fun stored => { stored with object := change stored.object }.settled)
    (by
      intro new found
      obtain ⟨stored, old, settled⟩ := Option.bind_eq_some_iff.mp found
      have named := server.named old
      exact @Stored.settled_named { stored with object := change stored.object } _ _
        ⟨(keeps _).1.trans named.1, (keeps _).2.trans named.2⟩ _ settled)

/-- Change a stored ObjectSync without renaming it. -/
def writeSync (server : Server) (name : NamespacedName) (change : ObjectSync → ObjectSync)
    (keeps : ∀ sync, (change sync).metadata.name = sync.metadata.name ∧
      (change sync).metadata.namespace_ = sync.metadata.namespace_) : Server :=
  server.putSync name ((server.syncs name).bind fun sync => (change sync).settled)
    (by
      intro new found
      obtain ⟨sync, old, settled⟩ := Option.bind_eq_some_iff.mp found
      have named := server.syncNamed old
      exact @ObjectSync.settled_named (change sync) _ _
        ⟨(keeps _).1.trans named.1, (keeps _).2.trans named.2⟩ _ settled)

/-- Putting an object stores it under its key. -/
@[simp] theorem put_objects (server : Server) (key : ObjectKey) (stored : Option Stored)
    (named : ∀ {new}, stored = some new → new.object.metadata.Named key.namespace_ key.name) :
    (server.put key stored named).objects = Function.update server.objects key stored := rfl

/-- Putting an object leaves the ObjectSyncs. -/
@[simp] theorem put_syncs (server : Server) (key : ObjectKey) (stored : Option Stored)
    (named : ∀ {new}, stored = some new → new.object.metadata.Named key.namespace_ key.name) :
    (server.put key stored named).syncs = server.syncs := rfl

/-- Putting an object leaves the kinds that are served. -/
@[simp] theorem put_apis (server : Server) (key : ObjectKey) (stored : Option Stored)
    (named : ∀ {new}, stored = some new → new.object.metadata.Named key.namespace_ key.name) :
    (server.put key stored named).apis = server.apis := rfl

/-- Writing an object changes what is stored under its key, which is gone once it is terminating
without finalizers. -/
@[simp] theorem write_objects (server : Server) (key : ObjectKey)
    (change : DynamicObject → DynamicObject)
    (keeps : ∀ object, (change object).metadata.name = object.metadata.name ∧
      (change object).metadata.namespace_ = object.metadata.namespace_) :
    (server.write key change keeps).objects = Function.update server.objects key
      ((server.objects key).bind fun stored =>
        { stored with object := change stored.object }.settled) := rfl

/-- Writing an object leaves the ObjectSyncs. -/
@[simp] theorem write_syncs (server : Server) (key : ObjectKey)
    (change : DynamicObject → DynamicObject)
    (keeps : ∀ object, (change object).metadata.name = object.metadata.name ∧
      (change object).metadata.namespace_ = object.metadata.namespace_) :
    (server.write key change keeps).syncs = server.syncs := rfl

/-- Writing an ObjectSync leaves the objects. -/
@[simp] theorem writeSync_objects (server : Server) (name : NamespacedName)
    (change : ObjectSync → ObjectSync)
    (keeps : ∀ sync, (change sync).metadata.name = sync.metadata.name ∧
      (change sync).metadata.namespace_ = sync.metadata.namespace_) :
    (server.writeSync name change keeps).objects = server.objects := rfl

/-- Writing an ObjectSync changes what is stored under its name, which is gone once it is
terminating without finalizers. -/
@[simp] theorem writeSync_syncs (server : Server) (name : NamespacedName)
    (change : ObjectSync → ObjectSync)
    (keeps : ∀ sync, (change sync).metadata.name = sync.metadata.name ∧
      (change sync).metadata.namespace_ = sync.metadata.namespace_) :
    (server.writeSync name change keeps).syncs = Function.update server.syncs name
      ((server.syncs name).bind fun sync => (change sync).settled) := rfl

/-! ## Serving requests -/

/-- Create an object that does not exist yet. -/
def create (server : Server) (maker : Option ObjectSyncRef) (choice : Choice) (api : DynamicApi)
    (name : String) (body : DynamicObject) : DynamicObject × Server :=
  let object := choice.created api.namespace_ name body
  (object, server.put (api.key name) (some ⟨object, maker⟩) (by rintro _ ⟨⟩; exact ⟨rfl, rfl⟩))

/-- A created object is stored under its key. -/
@[simp] theorem create_objects (server : Server) (maker : Option ObjectSyncRef) (choice : Choice)
    (api : DynamicApi) (name : String) (body : DynamicObject) :
    (server.create maker choice api name body).2.objects =
      Function.update server.objects (api.key name)
        (some ⟨choice.created api.namespace_ name body, maker⟩) := rfl

/-- Creating an object leaves the ObjectSyncs. -/
@[simp] theorem create_syncs (server : Server) (maker : Option ObjectSyncRef) (choice : Choice)
    (api : DynamicApi) (name : String) (body : DynamicObject) :
    (server.create maker choice api name body).2.syncs = server.syncs := rfl

/-- Serve a request made on behalf of an ObjectSync, when nothing fails that need not fail. -/
def serve (maker : Option ObjectSyncRef) (choice : Choice) (server : Server) :
    (request : ApiRequest) → Except KubeError (ApiValue request) × Server
  | .get api name =>
    match server.objects (api.key name) with
    | none => (.error (.api 404 "not found"), server)
    | some stored => (.ok stored.object, server)
  | .create api body =>
    match server.objects (api.key body.metadata.nameAny) with
    | some _ => (.error (.api 409 "already exists"), server)
    | none =>
      let (object, server) := server.create maker choice api body.metadata.nameAny body
      (.ok object, server)
  | .replace api name body =>
    match server.objects (api.key name) with
    | none => (.error (.api 404 "not found"), server)
    | some stored =>
      if body.metadata.conflicts stored.object.metadata then (.error (.api 409 "conflict"), server)
      else (.ok (choice.replaced stored.object body),
        server.write (api.key name) (choice.replaced · body) fun _ => ⟨rfl, rfl⟩)
  | .apply api name body =>
    match server.objects (api.key name) with
    | none =>
      if body.metadata.uid.isSome || body.metadata.resourceVersion.isSome then
        (.error (.api 409 "conflict"), server)
      else
        let (object, server) := server.create maker choice api name body
        (.ok object, server)
    | some stored =>
      if body.metadata.conflicts stored.object.metadata then (.error (.api 409 "conflict"), server)
      else (.ok (choice.applied stored.object body),
        server.write (api.key name) (choice.applied · body) fun _ => ⟨rfl, rfl⟩)
  | .jsonPatch api name patch =>
    match server.objects (api.key name) with
    | none => (.error (.api 404 "not found"), server)
    | some stored =>
      match applyFinalizerOps patch stored.object.metadata.finalizers with
      | none => (.error (.api 422 "invalid"), server)
      | some finalizers =>
        (.ok (choice.finalized stored.object finalizers),
          server.write (api.key name) (choice.finalized · finalizers) fun _ => ⟨rfl, rfl⟩)
  | .delete api name =>
    match server.objects (api.key name) with
    | none => (.error (.api 404 "not found"), server)
    | some _ => (.ok (), server.write (api.key name) choice.deleted fun _ => ⟨rfl, rfl⟩)
  | .getSync sync | .getSyncStatus sync =>
    match server.syncs sync with
    | none => (.error (.api 404 "not found"), server)
    | some current => (.ok current, server)
  | .replaceSyncStatus sync body =>
    match server.syncs sync with
    | none => (.error (.api 404 "not found"), server)
    | some current =>
      if body.metadata.resourceVersion ≠ current.metadata.resourceVersion then
        (.error (.api 409 "conflict"), server)
      else (.ok (choice.withStatus current body),
        server.writeSync sync (choice.withStatus · body) fun _ => ⟨rfl, rfl⟩)
  | .jsonPatchSync sync patch =>
    match server.syncs sync with
    | none => (.error (.api 404 "not found"), server)
    | some current =>
      match applyFinalizerOps patch.finalizers current.metadata.finalizers with
      | none => (.error (.api 422 "invalid"), server)
      | some finalizers =>
        if patch.resourceVersion.any (· ≠ current.metadata.resourceVersion) then
          (.error (.api 409 "conflict"), server)
        else (.ok (choice.patched current patch finalizers),
          server.writeSync sync (choice.patched · patch finalizers) fun _ => ⟨rfl, rfl⟩)
  | .discoverGroup group =>
    match server.apis group with
    | none => (.error (.discovery "no such group"), server)
    | some apigroup => (.ok apigroup, server)

end Server

open Server

/-- A request is served, for some choices of the server. -/
def Served (maker : Option ObjectSyncRef) (server : Server) (request : ApiRequest)
    (reply : Except KubeError (ApiValue request)) (after : Server) : Prop :=
  ∃ choice, server.serve maker choice request = (reply, after)

/-- What a client may see of a server over an unreliable network: an answer, an error for a request
that was not served or whose answer was lost, and either code for what does not exist. -/
inductive Faulty (maker : Option ObjectSyncRef) (server : Server) (request : ApiRequest) :
    Except KubeError (ApiValue request) → Server → Prop
  /-- The request is served. -/
  | served {reply : Except KubeError (ApiValue request)} {after : Server} :
      Served maker server request reply after → Faulty maker server request reply after
  /-- The request is not served. -/
  | refused {e : KubeError} : ¬e.isNotFound → Faulty maker server request (.error e) server
  /-- The request is served and its answer is lost. -/
  | lost {e : KubeError} {reply : Except KubeError (ApiValue request)} {after : Server} :
      ¬e.isNotFound → Served maker server request reply after →
      Faulty maker server request (.error e) after
  /-- What does not exist may also be reported as gone for good. -/
  | absent {e e' : KubeError} {after : Server} : e.isNotFound → e'.isNotFound →
      Served maker server request (.error e') after → Faulty maker server request (.error e) after

/-- A success means that the request was served. -/
theorem Faulty.of_ok {maker : Option ObjectSyncRef} {server after : Server} {request : ApiRequest}
    {value : ApiValue request} (faulty : Faulty maker server request (.ok value) after) :
    Served maker server request (.ok value) after := by
  cases faulty with
  | served served => exact served

/-- An object that is not found does not exist. -/
theorem Faulty.of_notFound {maker : Option ObjectSyncRef} {server after : Server}
    {request : ApiRequest} {e : KubeError} (faulty : Faulty maker server request (.error e) after)
    (missing : e.isNotFound) :
    ∃ e', e'.isNotFound ∧ Served maker server request (.error e') after := by
  cases faulty with
  | served served => exact ⟨e, missing, served⟩
  | refused present => exact absurd missing present
  | lost present _ => exact absurd missing present
  | absent _ missing' served => exact ⟨_, missing', served⟩

/-- The server carries a request out, whether or not the client receives the answer. -/
def CarriedOut (maker : Option ObjectSyncRef) (server : Server) : Call → Server → Prop
  | .api request, after => ∃ value, Served maker server request (.ok value) after
  | _, _ => False

/-- A request that is served with an error changes nothing. -/
theorem Served.error_same {maker : Option ObjectSyncRef} {server after : Server}
    {request : ApiRequest} {e : KubeError} (served : Served maker server request (.error e) after) :
    after = server := by
  obtain ⟨choice, eq⟩ := served
  cases request <;> simp only [Server.serve] at eq <;> grind

/-- A request that is not carried out changes nothing. -/
theorem Faulty.same_or_carriedOut {maker : Option ObjectSyncRef} {server after : Server}
    {request : ApiRequest} {reply : Except KubeError (ApiValue request)}
    (faulty : Faulty maker server request reply after) :
    after = server ∨ CarriedOut maker server (.api request) after := by
  have once (reply' : Except KubeError (ApiValue request))
      (served : Served maker server request reply' after) :
      after = server ∨ CarriedOut maker server (.api request) after := by
    cases reply' with
    | error e => exact .inl served.error_same
    | ok value => exact .inr ⟨value, served⟩
  cases faulty with
  | served served => exact once _ served
  | refused => exact .inl rfl
  | lost _ served => exact once _ served
  | absent _ _ served => exact once _ served

/-- Requests are answered by a relation on servers; other calls leave the server alone. -/
def answersBy (serves : Server → (request : ApiRequest) → Except KubeError (ApiValue request) →
    Server → Prop) : Answers Call Reply Server
  | server, .api request, reply, after => serves server request reply after
  | server, _, _, after => after = server

/-- A reply of a shared memory that holds nothing. -/
def MemoryOp.idleReply : (op : MemoryOp) → MemoryReply op
  | .getInstance _ | .removeInstance _ | .lookup .. => none
  | .insertInstance .. | .dropInstance .. => ()
  | .upgradeOrNew .. => 0
  | .register id controller src => ⟨0, controller, src, id⟩

/-- Answer all calls for given choices of the server, namespaces and clock readings. -/
def Server.answer (maker : Option ObjectSyncRef) (choice : Choice) (cache : List Namespace)
    (time : String) : Handler Call Reply Server
  | server, .api request => server.serve maker choice request
  | server, .memory op => (op.idleReply, server)
  | server, .namespaces => (cache, server)
  | server, .clock => (time, server)

/-- The answers for given choices of the server are possible. -/
theorem Server.answer_allowed (maker : Option ObjectSyncRef) (choice : Choice)
    (cache : List Namespace) (time : String) (server : Server) (call : Call) :
    answersBy (Faulty maker) server call (server.answer maker choice cache time call).1
      (server.answer maker choice cache time call).2 := by
  cases call with
  | api request => exact .served ⟨choice, rfl⟩
  | _ => rfl

/-- The core group with config maps. -/
def coreApis (group : String) : Option ApiGroup :=
  if group = "" then some ⟨[(⟨"", "v1", "ConfigMap"⟩, .namespaced)]⟩ else none

/-- A server without objects. -/
def Server.empty : Server where
  objects := fun _ => none
  syncs := fun _ => none
  apis := coreApis
  named := fun found => by contradiction
  syncNamed := fun found => by contradiction

/-- An ObjectSync that copies a config map to the namespace `team`. -/
def settingsSync : ObjectSync where
  metadata :=
    { name := some "settings", namespace_ := some "default", uid := some "o",
      resourceVersion := some "1", finalizers := some [finalizer] }
  spec := ⟨⟨"", none, "ConfigMap", "settings", none⟩, [⟨none, "team", none⟩]⟩
  status := none

/-- The identity of the ObjectSync of the settings. -/
def settingsRef : ObjectSyncRef := ⟨⟨"settings", "default"⟩⟩

/-- The source of the settings. -/
def settingsSource : DynamicObject :=
  ⟨none, { name := some "settings", namespace_ := some "default" }, []⟩

/-- The source is stored under its name. -/
theorem settingsSource_named {new : Stored} (stored : some ⟨settingsSource, none⟩ = some new) :
    new.object.metadata.Named "default" "settings" := by
  cases stored
  exact ⟨rfl, rfl⟩

/-- The namespaces of the runs for the settings. -/
def settingsNamespaces : List Namespace := [⟨"team", none, none⟩]

/-- A server with that ObjectSync and nothing else. -/
def settingsServer : Server :=
  Server.empty.putSync settingsRef.name (some settingsSync) (by rintro _ ⟨⟩; exact ⟨rfl, rfl⟩)

/-- The ObjectSync that a request writes. -/
def ApiRequest.syncTarget : ApiRequest → Option NamespacedName
  | .replaceSyncStatus sync _ | .jsonPatchSync sync _ => some sync
  | _ => none

/-- A request that may bring an object into being. -/
def ApiRequest.Creates : ApiRequest → Prop
  | .create .. | .apply .. => True
  | _ => False

/-- All that a request can do to a server. -/
inductive Effect (maker : Option ObjectSyncRef) (server : Server) (request : ApiRequest) :
    Server → Prop
  /-- Nothing changes. -/
  | nothing : Effect maker server request server
  /-- An object is written, and does not come back from termination. -/
  | write {key : ObjectKey} {change : DynamicObject → DynamicObject}
      (keeps : ∀ object, (change object).metadata.name = object.metadata.name ∧
        (change object).metadata.namespace_ = object.metadata.namespace_) :
      request.target = some key →
      (∀ object, object.metadata.terminating → (change object).metadata.terminating) →
      Effect maker server request (server.write key change keeps)
  /-- An object is created. -/
  | create (choice : Choice) {api : DynamicApi} {name : String} (body : DynamicObject) :
      request.Creates → request.target = some (api.key name) →
      server.objects (api.key name) = none →
      Effect maker server request (server.create maker choice api name body).2
  /-- An ObjectSync is written. -/
  | writeSync {name : NamespacedName} {change : ObjectSync → ObjectSync}
      (keeps : ∀ sync, (change sync).metadata.name = sync.metadata.name ∧
        (change sync).metadata.namespace_ = sync.metadata.namespace_) :
      request.syncTarget = some name →
        Effect maker server request (server.writeSync name change keeps)

/-- Serving a request has one of the effects on the server. -/
theorem Server.serve_effect (maker : Option ObjectSyncRef) (choice : Choice) (server : Server)
    (request : ApiRequest) :
    Effect maker server request (server.serve maker choice request).2 := by
  cases request with
  | get api name =>
    simp only [serve]
    split <;> exact .nothing
  | create api body =>
    simp only [serve]
    split
    · exact .nothing
    · exact .create _ _ trivial rfl (by assumption)
  | replace api name body =>
    simp only [serve]
    split
    · exact .nothing
    · split
      · exact .nothing
      · dsimp only
        exact .write _ rfl fun _ => id
  | apply api name body =>
    simp only [serve]
    split
    · split
      · exact .nothing
      · exact .create _ _ trivial rfl (by assumption)
    · split
      · exact .nothing
      · dsimp only
        exact .write _ rfl fun _ => id
  | jsonPatch api name patch =>
    simp only [serve]
    split
    · exact .nothing
    · split
      · exact .nothing
      · dsimp only
        exact .write _ rfl fun _ => id
  | delete api name =>
    simp only [serve]
    split
    · exact .nothing
    · dsimp only
      refine .write _ rfl fun object terminating => ?_
      obtain ⟨time, set⟩ := Option.isSome_iff_exists.mp terminating
      simp [Choice.deleted, ObjectMeta.terminating, set]
  | getSync sync =>
    simp only [serve]
    split <;> exact .nothing
  | getSyncStatus sync =>
    simp only [serve]
    split <;> exact .nothing
  | replaceSyncStatus sync body =>
    simp only [serve]
    split
    · exact .nothing
    · split
      · exact .nothing
      · dsimp only
        exact .writeSync _ rfl
  | jsonPatchSync sync patch =>
    simp only [serve]
    split
    · exact .nothing
    · split
      · exact .nothing
      · split
        · exact .nothing
        · dsimp only
          exact .writeSync _ rfl
  | discoverGroup group =>
    simp only [serve]
    split <;> exact .nothing

/-- Whatever a client sees of a request, it has one of the effects on the server. -/
theorem Faulty.effect {maker : Option ObjectSyncRef} {server after : Server} {request : ApiRequest}
    {reply : Except KubeError (ApiValue request)}
    (faulty : Faulty maker server request reply after) : Effect maker server request after := by
  have served (reply' : Except KubeError (ApiValue request))
      (served : Served maker server request reply' after) : Effect maker server request after := by
    obtain ⟨choice, eq⟩ := served
    obtain rfl : (server.serve maker choice request).2 = after := congrArg Prod.snd eq
    exact server.serve_effect maker choice request
  cases faulty with
  | served once => exact served _ once
  | refused => exact .nothing
  | lost _ once => exact served _ once
  | absent _ _ once => exact served _ once

namespace Effect

variable {maker : Option ObjectSyncRef} {server after : Server} {request : ApiRequest}

/-- Objects other than the target of a request stay as they are. -/
theorem objects_eq {key : ObjectKey} (effect : Effect maker server request after)
    (other : request.target ≠ some key) : after.objects key = server.objects key := by
  cases effect with
  | nothing => rfl
  | write keeps target _ =>
    rw [write_objects, Function.update_of_ne]
    rintro rfl
    exact other target
  | create choice body _ target _ =>
    rw [create_objects, Function.update_of_ne]
    rintro rfl
    exact other target
  | writeSync keeps target => rfl

/-- ObjectSyncs other than the target of a request stay as they are. -/
theorem syncs_eq {name : NamespacedName} (effect : Effect maker server request after)
    (other : request.syncTarget ≠ some name) : after.syncs name = server.syncs name := by
  cases effect with
  | nothing => rfl
  | write keeps target _ => rfl
  | create choice body _ target _ => rfl
  | writeSync keeps target =>
    rw [writeSync_syncs, Function.update_of_ne]
    rintro rfl
    exact other target

end Effect

/-- An object is a live copy of an ObjectSync: the controller created it for that ObjectSync, and
it is not terminating. -/
def Server.LiveCopy (server : Server) (sync : ObjectSyncRef) (key : ObjectKey) : Prop :=
  ∃ stored, server.objects key = some stored ∧ stored.copyOf = some sync ∧
    stored.object.metadata.terminating = false

/-- Whether an object is a live copy can be computed. -/
theorem Server.liveCopy_iff (server : Server) (sync : ObjectSyncRef) (key : ObjectKey) :
    server.LiveCopy sync key ↔ (server.objects key).any fun stored =>
      stored.copyOf == some sync && !stored.object.metadata.terminating := by
  simp [LiveCopy, Option.any_eq_true]

/-- Whether an ObjectSync has a live copy under a key can be computed. -/
instance (server : Server) (sync : ObjectSyncRef) (key : ObjectKey) :
    Decidable (server.LiveCopy sync key) :=
  decidable_of_iff _ (server.liveCopy_iff sync key).symm

/-- All live copies are among some keys. -/
def Within (o : ObjectSyncRef) (keys : List ObjectKey) (server : Server) : Prop :=
  ∀ key, server.LiveCopy o key → key ∈ keys

/-- Only creating requests make live copies, at their targets and for their makers. -/
theorem Effect.liveCopy {maker : Option ObjectSyncRef} {server after : Server}
    {request : ApiRequest} {sync : ObjectSyncRef} {key : ObjectKey}
    (effect : Effect maker server request after) (live : after.LiveCopy sync key) :
    server.LiveCopy sync key ∨ maker = some sync ∧ request.Creates ∧
      request.target = some key ∧ server.objects key = none := by
  by_cases target : request.target = some key
  · obtain ⟨stored, found, copy, current⟩ := live
    cases effect with
    | nothing => exact .inl ⟨stored, found, copy, current⟩
    | write keeps target' terminates =>
      obtain rfl := Option.some.inj (target'.symm.trans target)
      rw [write_objects, Function.update_self] at found
      obtain ⟨old, present, settled⟩ := Option.bind_eq_some_iff.mp found
      unfold Stored.settled at settled
      split at settled
      · contradiction
      · obtain rfl := Option.some.inj settled
        refine .inl ⟨old, present, copy, ?_⟩
        cases terminating : old.object.metadata.terminating with
        | false => rfl
        | true => exact absurd (terminates _ terminating) (Bool.eq_false_iff.mp current)
    | create choice body creates target' absent =>
      obtain rfl := Option.some.inj (target'.symm.trans target)
      rw [create_objects, Function.update_self] at found
      obtain rfl := Option.some.inj found
      exact .inr ⟨copy, creates, target, absent⟩
    | writeSync keeps _ => exact .inl ⟨stored, found, copy, current⟩
  · unfold Server.LiveCopy at live
    rw [effect.objects_eq target] at live
    exact .inl live

section Requests

variable {maker : Option ObjectSyncRef} {server after : Server}

/-- Every answer is about the object that was asked for. -/
theorem Faulty.honest {request : ApiRequest} {reply : Except KubeError (ApiValue request)}
    (faulty : Faulty maker server request reply after) : Honest (.api request) reply := by
  cases reply with
  | error e => cases request <;> trivial
  | ok value =>
    obtain ⟨choice, served⟩ := faulty.of_ok
    cases request with
    | get api name =>
      simp only [serve] at served
      split at served
      · cases served
      · rename_i stored found
        obtain ⟨⟨⟩, -⟩ := Prod.mk.inj served
        show stored.object.metadata.nameAny = name
        rw [ObjectMeta.nameAny, (server.named found).1]
        rfl
    | getSync sync =>
      simp only [serve] at served
      split at served
      · cases served
      · rename_i current found
        obtain ⟨⟨⟩, -⟩ := Prod.mk.inj served
        exact (server.syncNamed found).ofSync
    | getSyncStatus sync =>
      simp only [serve] at served
      split at served
      · cases served
      · rename_i current found
        obtain ⟨⟨⟩, -⟩ := Prod.mk.inj served
        exact (server.syncNamed found).ofSync
    | replaceSyncStatus sync body =>
      simp only [serve] at served
      split at served
      · cases served
      · rename_i current found
        have named := server.syncNamed found
        split at served
        · cases served
        · obtain ⟨⟨⟩, -⟩ := Prod.mk.inj served
          exact ⟨ObjectMeta.Named.ofSync ⟨named.1, named.2⟩, rfl⟩
    | jsonPatchSync sync patch =>
      simp only [serve] at served
      split at served
      · cases served
      · rename_i current found
        have named := server.syncNamed found
        split at served
        · cases served
        · split at served
          · cases served
          · obtain ⟨⟨⟩, -⟩ := Prod.mk.inj served
            exact ObjectMeta.Named.ofSync ⟨named.1, named.2⟩
    | _ => trivial

/-- Replies of the server are about what was asked for. -/
theorem answersBy_faulty_honest {call : Call} {reply : Reply call}
    (answered : answersBy (Faulty maker) server call reply after) :
    Honest call reply := by
  cases call with
  | api request => exact Faulty.honest answered
  | _ => trivial

/-- After a deletion succeeded or found nothing, there is no live copy. -/
theorem Faulty.deleted {api : DynamicApi} {name : String} {reply : Except KubeError Unit}
    {sync : ObjectSyncRef} (faulty : Faulty maker server (.delete api name) reply after)
    (settled : ∀ e, reply = .error e → e.isNotFound) : ¬after.LiveCopy sync (api.key name) := by
  rintro ⟨stored, found, -, current⟩
  cases reply with
  | ok value =>
    obtain ⟨choice, served⟩ := faulty.of_ok
    simp only [serve] at served
    split at served
    · cases served
    · obtain ⟨-, rfl⟩ := Prod.mk.inj served
      rw [write_objects, Function.update_self] at found
      obtain ⟨old, -, settled⟩ := Option.bind_eq_some_iff.mp found
      unfold Stored.settled at settled
      split at settled
      · contradiction
      · obtain rfl := Option.some.inj settled
        cases set : old.object.metadata.deletionTimestamp <;>
          simp [Choice.deleted, ObjectMeta.terminating, set] at current
  | error e =>
    obtain ⟨e', missing, choice, served⟩ := faulty.of_notFound (settled e rfl)
    simp only [serve] at served
    split at served
    · rename_i absent
      obtain ⟨-, rfl⟩ := Prod.mk.inj served
      rw [absent] at found
      contradiction
    · cases served

/-- A status write either does nothing, and then does not succeed, or writes the current
ObjectSync at the revision of the body. -/
def StatusWritten (server : Server) (sync : NamespacedName) (body : ObjectSync)
    (reply : Except KubeError ObjectSync) (after : Server) : Prop :=
  (after = server ∧ ∀ written, reply ≠ .ok written) ∨
    ∃ (choice : Choice) (current : ObjectSync), server.syncs sync = some current ∧
      body.metadata.resourceVersion = current.metadata.resourceVersion ∧
      after = server.writeSync sync (choice.withStatus · body) (fun _ => ⟨rfl, rfl⟩) ∧
      ∀ written, reply = .ok written → written = choice.withStatus current body

/-- Without an answer less is known of the reply. -/
theorem StatusWritten.lost {sync : NamespacedName} {body : ObjectSync}
    {reply : Except KubeError ObjectSync} (e : KubeError)
    (write : StatusWritten server sync body reply after) :
    StatusWritten server sync body (.error e) after := by
  rcases write with ⟨same, -⟩ | ⟨choice, current, found, agrees, written, -⟩
  · exact .inl ⟨same, fun _ same => by cases same⟩
  · exact .inr ⟨choice, current, found, agrees, written, fun _ same => by cases same⟩

/-- A status write that is served persists the status and returns it, or is refused. -/
theorem Served.statusWritten {sync : NamespacedName} {body : ObjectSync}
    {reply : Except KubeError ObjectSync}
    (served : Served maker server (.replaceSyncStatus sync body) reply after) :
    StatusWritten server sync body reply after := by
  obtain ⟨choice, eq⟩ := served
  simp only [serve] at eq
  split at eq
  · obtain ⟨rfl, rfl⟩ := Prod.mk.inj eq
    exact .inl ⟨rfl, fun _ same => by cases same⟩
  · rename_i current found
    split at eq
    · obtain ⟨rfl, rfl⟩ := Prod.mk.inj eq
      exact .inl ⟨rfl, fun _ same => by cases same⟩
    · rename_i agrees
      obtain ⟨rfl, rfl⟩ := Prod.mk.inj eq
      exact .inr ⟨choice, current, found, not_not.mp agrees, rfl, fun _ same => by cases same; rfl⟩

/-- A status write persists the status or not, whatever the client sees of it. -/
theorem Faulty.statusWritten {sync : NamespacedName} {body : ObjectSync}
    {reply : Except KubeError (ApiValue (.replaceSyncStatus sync body))}
    (faulty : Faulty maker server (.replaceSyncStatus sync body) reply after) :
    StatusWritten server sync body reply after := by
  cases faulty with
  | served once => exact once.statusWritten
  | refused => exact .inl ⟨rfl, fun _ same => by cases same⟩
  | lost _ once => exact StatusWritten.lost _ (Served.statusWritten once)
  | absent _ _ once => exact StatusWritten.lost _ (Served.statusWritten once)

/-- A patch of an ObjectSync either does nothing, and then does not succeed, or is applied to the
current ObjectSync. -/
def SyncPatched (server : Server) (sync : NamespacedName) (patch : ObjectSyncPatch)
    (reply : Except KubeError ObjectSync) (after : Server) : Prop :=
  (after = server ∧ ∀ written, reply ≠ .ok written) ∨
    ∃ (choice : Choice) (current : ObjectSync) (finalizers : Option (List String)),
      server.syncs sync = some current ∧
      applyFinalizerOps patch.finalizers current.metadata.finalizers = some finalizers ∧
      after = server.writeSync sync (choice.patched · patch finalizers) (fun _ => ⟨rfl, rfl⟩) ∧
      ∀ written, reply = .ok written → written = choice.patched current patch finalizers

/-- A patch of an ObjectSync that is served changes the specification and the metadata, or is
refused. -/
theorem Served.syncPatched {sync : NamespacedName} {patch : ObjectSyncPatch}
    {reply : Except KubeError ObjectSync}
    (served : Served maker server (.jsonPatchSync sync patch) reply after) :
    SyncPatched server sync patch reply after := by
  obtain ⟨choice, eq⟩ := served
  simp only [serve] at eq
  split at eq
  · obtain ⟨rfl, rfl⟩ := Prod.mk.inj eq
    exact .inl ⟨rfl, fun _ same => by cases same⟩
  · rename_i current found
    split at eq
    · obtain ⟨rfl, rfl⟩ := Prod.mk.inj eq
      exact .inl ⟨rfl, fun _ same => by cases same⟩
    · rename_i finalizers applied
      split at eq
      · obtain ⟨rfl, rfl⟩ := Prod.mk.inj eq
        exact .inl ⟨rfl, fun _ same => by cases same⟩
      · obtain ⟨rfl, rfl⟩ := Prod.mk.inj eq
        exact .inr ⟨choice, current, finalizers, found, applied, rfl,
          fun _ same => by cases same; rfl⟩

/-- A patch of an ObjectSync changes it or not, whatever the client sees of it. -/
theorem Faulty.syncPatched {sync : NamespacedName} {patch : ObjectSyncPatch}
    {reply : Except KubeError (ApiValue (.jsonPatchSync sync patch))}
    (faulty : Faulty maker server (.jsonPatchSync sync patch) reply after) :
    SyncPatched server sync patch reply after := by
  have lost (reply : Except KubeError ObjectSync) (e : KubeError)
      (once : SyncPatched server sync patch reply after) :
      SyncPatched server sync patch (.error e) after := by
    rcases once with ⟨same, -⟩ | ⟨choice, current, finalizers, found, applied, written, -⟩
    · exact .inl ⟨same, fun _ same => by cases same⟩
    · exact .inr ⟨choice, current, finalizers, found, applied, written,
        fun _ same => by cases same⟩
  cases faulty with
  | served once => exact once.syncPatched
  | refused => exact .inl ⟨rfl, fun _ same => by cases same⟩
  | lost _ once => exact lost _ _ (Served.syncPatched once)
  | absent _ _ once => exact lost _ _ (Served.syncPatched once)

/-- A patch leaves the status: of what is stored, and of what is returned. -/
theorem SyncPatched.status {sync : NamespacedName} {patch : ObjectSyncPatch}
    {reply : Except KubeError ObjectSync} (patched : SyncPatched server sync patch reply after) :
    (∀ later, after.syncs sync = some later →
      ∃ current, server.syncs sync = some current ∧ later.status = current.status) ∧
    ∀ written, reply = .ok written →
      ∃ current, server.syncs sync = some current ∧ written.status = current.status := by
  rcases patched with ⟨rfl, none⟩ | ⟨choice, current, finalizers, found, -, rfl, returned⟩
  · exact ⟨fun later found => ⟨later, found, rfl⟩, fun written same => absurd same (none written)⟩
  · constructor
    · intro later stored
      rw [writeSync_syncs, Function.update_self, found, Option.bind_some] at stored
      unfold ObjectSync.settled at stored
      split at stored
      · cases stored
      · refine ⟨current, found, ?_⟩
        rw [← Option.some.inj stored]
        rfl
    · intro written same
      refine ⟨current, found, ?_⟩
      rw [returned written same]
      rfl

end Requests

end ObjectSyncer
