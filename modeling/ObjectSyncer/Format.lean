import ObjectSyncer.Modifications
import ObjectSyncer.Serialization.Schema

/-!
# The stored form of an ObjectSync

How the API crate writes and reads the spec and the status of an ObjectSync, and the schema under
which the API server admits and stores them. What the controller writes comes back as it was, so a
status has changed exactly when its JSON has. What users write can be read unless it names a
strategy that does not exist, which the schema lets pass.
-/
namespace ObjectSyncer

open Serialization

/-- The least `i64`. -/
def int64Min : Int := -9223372036854775808

/-- The greatest `i64`. -/
def int64Max : Int := 9223372036854775807

/-- `Condition`. -/
def Condition.fields : Fields Condition :=
  ((Fields.optional "lastTransitionTime" .string).pair
    ((Fields.required "message" .string).pair
      ((Fields.optional "observedGeneration" (.integer int64Min int64Max)).pair
        ((Fields.required "reason" .string).pair
          ((Fields.required "status" .string).pair (.required "type" .string) (by decide))
          (by decide)) (by decide)) (by decide)) (by decide)).map
    (fun (time, message, generation, reason, status, type_) =>
      ⟨time, message, generation, reason, status, type_⟩)
    (fun c => (c.lastTransitionTime, c.message, c.observedGeneration, c.reason, c.status, c.type_))
    fun _ => rfl

/-- `SourceObject`. -/
def SourceObject.fields : Fields SourceObject :=
  ((Fields.required "group" .string).pair
    ((Fields.optional "version" .string).pair
      ((Fields.required "kind" .string).pair
        ((Fields.required "name" .string).pair (.optional "namespace" .string) (by decide))
        (by decide)) (by decide)) (by decide)).map
    (fun (group, version, kind, name, namespace_) => ⟨group, version, kind, name, namespace_⟩)
    (fun s => (s.group, s.version, s.kind, s.name, s.namespace_))
    fun _ => rfl

namespace SyncStrategy

/-- The name of a strategy. -/
def name : SyncStrategy → String
  | .apply => "apply"
  | .replace => "replace"

/-- The strategy of a name. -/
def ofName : String → Option SyncStrategy
  | "apply" => some .apply
  | "replace" => some .replace
  | _ => none

/-- A strategy is found under its name. -/
theorem ofName_name (strategy : SyncStrategy) : ofName strategy.name = some strategy := by
  cases strategy <;> rfl

/-- The names of all strategies. -/
def names : List String := ["apply", "replace"]

/-- No other name has a strategy. -/
theorem ofName_isSome (text : String) : (ofName text).isSome ↔ text ∈ names := by
  unfold ofName
  split <;> simp_all [names]

/-- `SyncStrategy`. -/
def codec : Codec SyncStrategy := .enum name ofName ofName_name

end SyncStrategy

/-- `Destination`. -/
def Destination.fields : Fields Destination :=
  ((Fields.optional "name" .string).pair
    ((Fields.required "namespace" .string).pair (.optional "strategy" SyncStrategy.codec)
      (by decide)) (by decide)).map
    (fun (name, namespace_, strategy) => ⟨name, namespace_, strategy⟩)
    (fun d => (d.name, d.namespace_, d.strategy))
    fun _ => rfl

/-- `ObjectSyncSpec`. -/
def ObjectSyncSpec.fields : Fields ObjectSyncSpec :=
  ((Fields.required "source" (.record SourceObject.fields)).pair
    (.required "destinations" (Codec.record Destination.fields).list) (by decide)).map
    (fun (source, destinations) => ⟨source, destinations⟩)
    (fun s => (s.source, s.destinations))
    fun _ => rfl

/-- `ObjectSyncSpec`. -/
def ObjectSyncSpec.codec : Codec ObjectSyncSpec := .record ObjectSyncSpec.fields

example : ObjectSyncSpec.codec.encode ⟨⟨"", none, "ConfigMap", "x", none⟩, []⟩ =
    .object [("destinations", .array []), ("source", .object [("group", .string ""),
      ("kind", .string "ConfigMap"), ("name", .string "x")])] := rfl

/-- `ObjectRevision`. -/
def ObjectRevision.fields : Fields ObjectRevision :=
  ((Fields.optional "uid" .string).pair (.optional "resource_version" .string) (by decide)).map
    (fun (uid, resourceVersion) => ⟨uid, resourceVersion⟩)
    (fun r => (r.uid, r.resourceVersion))
    fun _ => rfl

/-- `DestinationStatus`. -/
def DestinationStatus.fields : Fields DestinationStatus :=
  ((Fields.required "name" .string).pair
    ((Fields.required "namespace" .string).pair
      ((Fields.required "group" .string).pair
        ((Fields.required "version" .string).pair
          ((Fields.required "kind" .string).pair
            ((Fields.optional "sourceVersion" (.record ObjectRevision.fields)).pair
              ((Fields.optional "syncedVersion" (.record ObjectRevision.fields)).pair
                (.optional "strategy" SyncStrategy.codec)
                (by decide)) (by decide)) (by decide)) (by decide)) (by decide)) (by decide))
    (by decide)).map
    (fun (name, namespace_, group, version, kind, sourceVersion, syncedVersion, strategy) =>
      ⟨name, namespace_, group, version, kind, sourceVersion, syncedVersion, strategy⟩)
    (fun d => (d.name, d.namespace_, d.group, d.version, d.kind, d.sourceVersion, d.syncedVersion,
      d.strategy))
    fun _ => rfl

/-- `ObjectSyncStatus`. -/
def ObjectSyncStatus.fields : Fields ObjectSyncStatus :=
  ((Fields.optional "conditions" (Codec.record Condition.fields).list).pair
    (.optional "destinations" (Codec.record DestinationStatus.fields).list) (by decide)).map
    (fun (conditions, destinations) => ⟨conditions, destinations⟩)
    (fun s => (s.conditions, s.destinations))
    fun _ => rfl

/-- `ObjectSyncStatus`. -/
def ObjectSyncStatus.codec : Codec ObjectSyncStatus := .record ObjectSyncStatus.fields

/-- `ObjectSync`, without its metadata. -/
def ObjectSync.fields : Fields (ObjectSyncSpec × Option ObjectSyncStatus) :=
  (Fields.required "spec" ObjectSyncSpec.codec).pair
    (.optional "status" ObjectSyncStatus.codec) (by decide)

/-- `ObjectSync`, without its metadata. -/
def ObjectSync.codec : Codec (ObjectSyncSpec × Option ObjectSyncStatus) := .record ObjectSync.fields

/-- `serde_json::to_value` of the status of an ObjectSync. -/
def statusValue : Option ObjectSyncStatus → Json
  | none => .null
  | some status => ObjectSyncStatus.codec.encode status

/-- Items of `spec.destinations`. -/
def destinationProperties (strategy : Schema) : List (String × Schema) :=
  [("name", Schema.string.nullable), ("namespace", .string), ("strategy", strategy.nullable)]

/-- `spec.source`. -/
def sourceProperties : List (String × Schema) :=
  [("group", .string), ("kind", .string), ("name", .string), ("namespace", Schema.string.nullable),
    ("version", Schema.string.nullable)]

/-- `spec`. -/
def specProperties (strategy : Schema) : List (String × Schema) :=
  [("destinations", (Schema.object (destinationProperties strategy) ["namespace"]).array),
    ("source", .object sourceProperties ["group", "kind", "name"])]

/-- `spec`. -/
def specSchemaWith (strategy : Schema) : Schema :=
  .object (specProperties strategy) ["destinations", "source"]

/-- Items of `status.conditions`. -/
def conditionProperties : List (String × Schema) :=
  [("lastTransitionTime", Schema.string.nullable), ("message", .string),
    ("observedGeneration", (Schema.integer int64Min int64Max).nullable), ("reason", .string),
    ("status", .string), ("type", .string)]

/-- The revisions of `status.destinations`. -/
def revisionProperties : List (String × Schema) :=
  [("resource_version", Schema.string.nullable), ("uid", Schema.string.nullable)]

/-- Items of `status.destinations`. -/
def destinationStatusProperties (strategy : Schema) : List (String × Schema) :=
  [("group", .string), ("kind", .string), ("name", .string), ("namespace", .string),
    ("sourceVersion", (Schema.object revisionProperties []).nullable),
    ("strategy", strategy.nullable),
    ("syncedVersion", (Schema.object revisionProperties []).nullable), ("version", .string)]

/-- `status`. -/
def statusProperties (strategy : Schema) : List (String × Schema) :=
  [("conditions", (Schema.object conditionProperties
      ["message", "reason", "status", "type"]).array.nullable),
    ("destinations", (Schema.object (destinationStatusProperties strategy)
      ["group", "kind", "name", "namespace", "version"]).array.nullable)]

/-- `status`. -/
def statusSchemaWith (strategy : Schema) : Schema :=
  (Schema.object (statusProperties strategy) []).nullable

/-- The whole resource. -/
def objectSyncProperties (strategy : Schema) : List (String × Schema) :=
  [("spec", specSchemaWith strategy), ("status", statusSchemaWith strategy)]

/-- The schema of the custom resource, given that of a strategy. -/
def objectSyncSchemaWith (strategy : Schema) : Schema :=
  .object (objectSyncProperties strategy) ["spec"]

/-- The schema of the custom resource: any string is a strategy. -/
def objectSyncSchema : Schema := objectSyncSchemaWith .string

/-- The schema of the spec in the custom resource definition. -/
def specSchema : Schema := specSchemaWith .string

/-- The schema of the status in the custom resource definition. -/
def statusSchema : Schema := statusSchemaWith .string

/-- Strategies that exist can be read. -/
theorem SyncStrategy.agrees :
    Schema.Agrees .string (.oneOf SyncStrategy.names) SyncStrategy.codec :=
  .enum SyncStrategy.ofName_name SyncStrategy.ofName_isSome

/-- The schema of conditions agrees with how they are written. -/
theorem Condition.agrees :
    Schema.Agrees (.object conditionProperties ["message", "reason", "status", "type"])
      (.object conditionProperties ["message", "reason", "status", "type"])
      (.record Condition.fields) := by
  refine .object ?_ rfl (by decide) (by decide) (by decide)
  exact .map (.pair (.optional .string rfl rfl (by decide)) <|
    .pair (.required .string rfl rfl (by decide)) <|
    .pair (.optional (.integer _ _) rfl rfl (by decide)) <|
    .pair (.required .string rfl rfl (by decide)) <|
    .pair (.required .string rfl rfl (by decide)) <|
    .required .string rfl rfl (by decide))

/-- The schema of the source agrees with how it is written. -/
theorem SourceObject.agrees :
    Schema.Agrees (.object sourceProperties ["group", "kind", "name"])
      (.object sourceProperties ["group", "kind", "name"]) (.record SourceObject.fields) := by
  refine .object ?_ rfl (by decide) (by decide) (by decide)
  exact .map (.pair (.required .string rfl rfl (by decide)) <|
    .pair (.optional .string rfl rfl (by decide)) <|
    .pair (.required .string rfl rfl (by decide)) <|
    .pair (.required .string rfl rfl (by decide)) <|
    .optional .string rfl rfl (by decide))

/-- Destinations can be read when their strategies exist. -/
theorem Destination.agrees :
    Schema.Agrees (.object (destinationProperties .string) ["namespace"])
      (.object (destinationProperties (.oneOf SyncStrategy.names)) ["namespace"])
      (.record Destination.fields) := by
  refine .object ?_ rfl (by decide) (by decide) (by decide)
  exact .map (.pair (.optional .string rfl rfl (by decide)) <|
    .pair (.required .string rfl rfl (by decide)) <|
    .optional SyncStrategy.agrees rfl rfl (by decide))

/-- The spec can be read when its strategies exist. -/
theorem ObjectSyncSpec.agrees :
    Schema.Agrees (specSchemaWith .string) (specSchemaWith (.oneOf SyncStrategy.names))
      ObjectSyncSpec.codec := by
  refine .object ?_ rfl (by decide) (by decide) (by decide)
  exact .map (.pair (.required SourceObject.agrees rfl rfl (by decide))
    (.required Destination.agrees.array rfl rfl (by decide)))

/-- The schema of revisions agrees with how they are written. -/
theorem ObjectRevision.agrees :
    Schema.Agrees (.object revisionProperties []) (.object revisionProperties [])
      (.record ObjectRevision.fields) := by
  refine .object ?_ rfl (by decide) (by decide) (by decide)
  exact .map (.pair (.optional .string rfl rfl (by decide)) (.optional .string rfl rfl (by decide)))

/-- Tracked destinations can be read when their strategies exist. -/
theorem DestinationStatus.agrees :
    Schema.Agrees (.object (destinationStatusProperties .string)
        ["group", "kind", "name", "namespace", "version"])
      (.object (destinationStatusProperties (.oneOf SyncStrategy.names))
        ["group", "kind", "name", "namespace", "version"]) (.record DestinationStatus.fields) := by
  refine .object ?_ rfl (by decide) (by decide) (by decide)
  exact .map (.pair (.required .string rfl rfl (by decide)) <|
    .pair (.required .string rfl rfl (by decide)) <|
    .pair (.required .string rfl rfl (by decide)) <|
    .pair (.required .string rfl rfl (by decide)) <|
    .pair (.required .string rfl rfl (by decide)) <|
    .pair (.optional ObjectRevision.agrees rfl rfl (by decide)) <|
    .pair (.optional ObjectRevision.agrees rfl rfl (by decide)) <|
    .optional SyncStrategy.agrees rfl rfl (by decide))

/-- The status can be read when its strategies exist. -/
theorem ObjectSyncStatus.agrees :
    Schema.Agrees (.object (statusProperties .string) [])
      (.object (statusProperties (.oneOf SyncStrategy.names)) []) ObjectSyncStatus.codec := by
  refine .object ?_ rfl (by decide) (by decide) (by decide)
  exact .map (.pair (.optional Condition.agrees.array rfl rfl (by decide))
    (.optional DestinationStatus.agrees.array rfl rfl (by decide)))

/-- An ObjectSync can be read when its strategies exist. -/
theorem ObjectSync.agrees :
    objectSyncSchema.Agrees (objectSyncSchemaWith (.oneOf SyncStrategy.names))
      ObjectSync.codec := by
  refine .object ?_ rfl (by decide) (by decide) (by decide)
  exact .pair (.required ObjectSyncSpec.agrees rfl rfl (by decide))
    (.optional ObjectSyncStatus.agrees rfl rfl (by decide))

/-- A write to an ObjectSync. -/
inductive SyncWrite where
  /-- A user replaces the object. -/
  | replace (body : Json)
  /-- The controller replaces the status, sending the whole object. -/
  | replaceStatus (spec : ObjectSyncSpec) (status : ObjectSyncStatus)

/-- An object with a spec and a status. -/
def withParts (spec status : Option Json) : Json :=
  .object ((spec.map ("spec", ·)).toList ++ (status.map ("status", ·)).toList)

/-- What the API server stores of an ObjectSync that a user creates: it has no status yet. -/
def storedOnCreate (body : Json) : Option Json :=
  objectSyncSchema.stores (withParts (body.member "spec") none)

namespace SyncWrite

/-- What the API server stores. The status is a subresource: a user's write leaves it alone, and a
write of the status leaves everything else alone. -/
def stores (stored : Json) : SyncWrite → Option Json
  | .replace body =>
    objectSyncSchema.stores (withParts (body.member "spec") (stored.member "status"))
  | .replaceStatus spec status =>
    objectSyncSchema.stores (withParts (stored.member "spec")
      ((ObjectSync.codec.encode (spec, some status)).member "status"))

/-- What is stored afterwards. A write that is refused changes nothing. -/
def after (stored : Json) (write : SyncWrite) : Json := (write.stores stored).getD stored

end SyncWrite

/-- The generations of the conditions of a status are those of an `i64`. -/
def ObjectSyncStatus.Representable (status : ObjectSyncStatus) : Prop :=
  ∀ conditions ∈ status.conditions, ∀ c ∈ conditions, ∀ generation ∈ c.observedGeneration,
    int64Min ≤ generation ∧ generation ≤ int64Max

/-- A status whose integers are representable can be stored. -/
theorem ObjectSyncStatus.Representable.fits {status : ObjectSyncStatus}
    (representable : status.Representable) : ObjectSyncStatus.codec.Fits status := by
  refine ⟨fun conditions listed c member => ?_, fun destinations listed d member => ?_⟩
  · exact ⟨fun _ _ => trivial, trivial, representable conditions listed c member, trivial, trivial,
      trivial⟩
  · exact ⟨trivial, trivial, trivial, trivial, trivial,
      fun _ _ => ⟨fun _ _ => trivial, fun _ _ => trivial⟩,
      fun _ _ => ⟨fun _ _ => trivial, fun _ _ => trivial⟩, fun _ _ => trivial⟩

/-- The specification of an object that is made of its parts. -/
@[simp] theorem withParts_spec (spec status : Option Json) :
    (withParts spec status).member "spec" = spec := by
  cases spec <;> cases status <;> rfl

/-- The status of an object that is made of its parts. -/
@[simp] theorem withParts_status (spec status : Option Json) :
    (withParts spec status).member "status" = status := by
  cases spec <;> cases status <;> rfl

/-- The parts of an object are stored apart. -/
theorem stores_withParts (spec status : Option Json) :
    objectSyncSchema.stores (withParts spec status) =
      (spec.bind specSchema.stores).bind fun spec =>
        if (status.map statusSchema.prune).all statusSchema.admits then
          some (withParts (some spec) (status.map statusSchema.prune))
        else none := by
  have pruned : objectSyncSchema.prune (withParts spec status) =
      withParts (spec.map specSchema.prune) (status.map statusSchema.prune) := by
    cases spec <;> cases status <;> rfl
  have admitted (spec status : Option Json) : objectSyncSchema.admits (withParts spec status) =
      ((spec.all specSchema.admits && status.all statusSchema.admits) && spec.isSome) := by
    show ((((withParts spec status).member "spec").all specSchema.admits &&
      (((withParts spec status).member "status").all statusSchema.admits && true)) &&
      (((withParts spec status).member "spec").isSome && true)) = _
    rw [withParts_spec, withParts_status, Bool.and_true, Bool.and_true]
  rw [Schema.stores, pruned, admitted]
  cases spec with
  | none => simp
  | some spec =>
    by_cases good : specSchema.admits (specSchema.prune spec) <;> simp [Schema.stores, good]

/-- The parts of an object are read apart. -/
theorem decode_withParts (spec : Json) {status : Option ObjectSyncStatus}
    (representable : ∀ present ∈ status, present.Representable) :
    ObjectSync.codec.decode (withParts (some spec) (status.map ObjectSyncStatus.codec.encode)) =
      (ObjectSyncSpec.codec.decode spec).map (·, status) := by
  have back := Fields.decodeOptional_map ObjectSyncStatus.codec status
    fun present there => (representable present there).fits
  have read (spec status : Option Json) : ObjectSync.codec.decode (withParts spec status) =
      (((withParts spec status).member "spec").bind ObjectSyncSpec.codec.decode).bind fun first =>
        (Fields.decodeOptional ObjectSyncStatus.codec
          ((withParts spec status).member "status")).bind
          fun second => some (first, second) := rfl
  rw [read, withParts_spec, withParts_status, back, Option.bind_some]
  cases ObjectSyncSpec.codec.decode spec <;> rfl

/-- A status that can be stored is stored as it is written. -/
theorem keeps_status {status : Option ObjectSyncStatus}
    (representable : ∀ present ∈ status, present.Representable) :
    (status.map ObjectSyncStatus.codec.encode).map statusSchema.prune =
        status.map ObjectSyncStatus.codec.encode ∧
      (status.map ObjectSyncStatus.codec.encode).all statusSchema.admits := by
  cases status with
  | none => exact ⟨rfl, rfl⟩
  | some status =>
    have fits := (representable status rfl).fits
    have kept := ObjectSyncStatus.agrees.kept status fits
    have admitted := ObjectSyncStatus.agrees.admitted status fits
    exact ⟨congrArg some kept, admitted⟩

/-- What readers see of an ObjectSync: the spec, if it can be read, and the status. -/
structure SyncView where
  spec : Option ObjectSyncSpec
  status : Option ObjectSyncStatus

namespace SyncView

/-- What readers see after a write. -/
def after (view : SyncView) : SyncWrite → SyncView
  | .replace body =>
    match (body.member "spec").bind specSchema.stores with
    | some spec => { view with spec := ObjectSyncSpec.codec.decode spec }
    | none => view
  | .replaceStatus _ status => { view with status := some status }

/-- What is stored is what readers see. -/
structure Mirrors (view : SyncView) (stored : Json) : Prop where
  parts : ∃ spec, stored = withParts (some spec) (view.status.map ObjectSyncStatus.codec.encode) ∧
    specSchema.stores spec = some spec ∧ ObjectSyncSpec.codec.decode spec = view.spec
  representable : ∀ status ∈ view.status, status.Representable

/-- A status that the controller writes is stored. -/
theorem Mirrors.stores_replaceStatus {view : SyncView} {stored : Json}
    (mirrors : view.Mirrors stored)
    (spec : ObjectSyncSpec) {status : ObjectSyncStatus} (representable : status.Representable) :
    ∃ stored', (SyncWrite.replaceStatus spec status).stores stored = some stored' ∧
      (view.after (.replaceStatus spec status)).Mirrors stored' := by
  obtain ⟨kept, rfl, stable, read⟩ := mirrors.parts
  have written : (ObjectSync.codec.encode (spec, some status)).member "status" =
      some (ObjectSyncStatus.codec.encode status) :=
    (Json.member_ofMembers (ObjectSync.fields.encode_distinct (spec, some status)) "status").trans
      rfl
  have keeps := @keeps_status (some status) fun present there =>
    Option.some.inj there ▸ representable
  refine ⟨withParts (some kept) (some (ObjectSyncStatus.codec.encode status)), ?_,
    ⟨kept, rfl, stable, read⟩, fun present there => Option.some.inj there ▸ representable⟩
  rw [Option.map_some] at keeps
  simp only [SyncWrite.stores, written, withParts_spec, stores_withParts, Option.bind_some, stable,
    keeps.1, keeps.2, if_true]

/-- A write of a user is stored when its spec is admitted. -/
theorem Mirrors.stores_replace {view : SyncView} {stored : Json} (mirrors : view.Mirrors stored)
    (body : Json) :
    (view.after (.replace body)).Mirrors ((SyncWrite.replace body).after stored) := by
  obtain ⟨kept, rfl, stable, read⟩ := mirrors.parts
  have keeps := keeps_status mirrors.representable
  have stores : (SyncWrite.replace body).stores
      (withParts (some kept) (view.status.map ObjectSyncStatus.codec.encode)) =
      ((body.member "spec").bind specSchema.stores).map fun spec =>
        withParts (some spec) (view.status.map ObjectSyncStatus.codec.encode) := by
    simp only [SyncWrite.stores, withParts_status, stores_withParts, keeps.1, keeps.2, if_true]
    cases (body.member "spec").bind specSchema.stores <;> rfl
  rw [SyncWrite.after, stores, SyncView.after]
  cases found : (body.member "spec").bind specSchema.stores with
  | none => exact mirrors
  | some spec =>
    obtain ⟨spec', -, stored⟩ := Option.bind_eq_some_iff.mp found
    exact ⟨⟨spec, rfl, specSchema.stores_stores stored, rfl⟩, mirrors.representable⟩

/-- Whatever is written, readers see what is stored. -/
theorem Mirrors.after {view : SyncView} {stored : Json} (mirrors : view.Mirrors stored)
    (write : SyncWrite)
    (representable : ∀ spec status, write = .replaceStatus spec status → status.Representable) :
    (view.after write).Mirrors (write.after stored) := by
  cases write with
  | replace body => exact mirrors.stores_replace body
  | replaceStatus spec status =>
    obtain ⟨stored', stores, mirrors'⟩ :=
      mirrors.stores_replaceStatus spec (representable spec status rfl)
    rw [SyncWrite.after, stores]
    exact mirrors'

/-- The stored object mirrors what readers see after any number of writes. -/
theorem Mirrors.run {view : SyncView} {stored : Json} (mirrors : view.Mirrors stored)
    (writes : List SyncWrite) (representable : ∀ spec status,
      SyncWrite.replaceStatus spec status ∈ writes → status.Representable) :
    (writes.foldl SyncView.after view).Mirrors (writes.foldl SyncWrite.after stored) := by
  induction writes generalizing view stored with
  | nil => exact mirrors
  | cons write rest ih =>
    refine ih (mirrors.after write ?_) fun spec status member =>
      representable spec status (List.mem_cons_of_mem _ member)
    rintro spec status rfl
    exact representable spec status List.mem_cons_self

end SyncView

/-- Readers see the spec of an ObjectSync that was created. -/
theorem mirrors_created {body stored : Json} (created : storedOnCreate body = some stored) :
    (SyncView.mk ((stored.member "spec").bind ObjectSyncSpec.codec.decode) none).Mirrors
      stored := by
  rw [storedOnCreate, stores_withParts] at created
  obtain ⟨spec, found, rest⟩ := Option.bind_eq_some_iff.mp created
  obtain rfl := Option.some.inj rest
  obtain ⟨spec', -, stores⟩ := Option.bind_eq_some_iff.mp found
  exact ⟨⟨spec, rfl, specSchema.stores_stores stores, by simp⟩, fun _ => nofun⟩

/-- **The stored form is faithful.** However users and the controller write to an ObjectSync: what
is read is the last spec that a user wrote and was admitted, if its strategies exist, together with
the last status that the controller wrote, unchanged. No status that the controller writes is
refused. -/
theorem stored_sync_faithful {body stored : Json} (created : storedOnCreate body = some stored)
    (writes : List SyncWrite) (representable : ∀ spec status,
      SyncWrite.replaceStatus spec status ∈ writes → status.Representable) :
    let view := writes.foldl SyncView.after
      ⟨(stored.member "spec").bind ObjectSyncSpec.codec.decode, none⟩
    let final := writes.foldl SyncWrite.after stored
    ObjectSync.codec.decode final = view.spec.map (·, view.status) ∧
      ∀ spec status, status.Representable →
        ((SyncWrite.replaceStatus spec status).stores final).isSome := by
  intro view final
  have mirrors : view.Mirrors final := (mirrors_created created).run writes representable
  constructor
  · obtain ⟨spec, stored', -, read⟩ := mirrors.parts
    rw [stored', decode_withParts spec mirrors.representable, read]
  · intro spec status representable
    obtain ⟨_, stores, -⟩ := mirrors.stores_replaceStatus spec representable
    rw [stores]
    rfl

/-- An ObjectSync for a ConfigMap, with a strategy. -/
def settingsBody (strategy : String) : Json :=
  .object [("spec", .object [
    ("destinations", .array [.object [("namespace", .string "*"), ("strategy", .string strategy)]]),
    ("source", .object [("group", .string ""), ("kind", .string "ConfigMap"),
      ("name", .string "settings")])])]

/-- A status with a condition, of the last generation that there can be. -/
def settingsSyncedStatus : ObjectSyncStatus :=
  ⟨some [⟨some "now", "", some int64Max, "Synced", "True", "InSync"⟩], some []⟩

/-- The controller writes that status, a user changes the strategy to one that does not exist, sends
something that is not admitted, and then a strategy that exists. -/
def settingsWrites : List SyncWrite :=
  [.replaceStatus ⟨⟨"", none, "ConfigMap", "settings", none⟩, []⟩ settingsSyncedStatus,
    .replace (settingsBody "merge"), .replace .null, .replace (settingsBody "apply")]

/-- What is read then is the last spec with the status. -/
theorem settingsWrites_faithful :
    ObjectSync.codec.decode (settingsWrites.foldl SyncWrite.after (settingsBody "replace")) =
      some (⟨⟨"", none, "ConfigMap", "settings", none⟩, [⟨none, "*", some .apply⟩]⟩,
        some settingsSyncedStatus) := by
  have representable : ∀ spec status, SyncWrite.replaceStatus spec status ∈ settingsWrites →
      status.Representable := by
    intro spec status member
    simp only [settingsWrites, List.mem_cons, SyncWrite.replaceStatus.injEq, reduceCtorEq,
      List.not_mem_nil, or_false] at member
    obtain ⟨-, rfl⟩ := member
    simp [ObjectSyncStatus.Representable, settingsSyncedStatus, int64Min, int64Max]
  exact (@stored_sync_faithful (settingsBody "replace") _ rfl settingsWrites representable).1

/-- **What can be read.** An ObjectSync that is admitted can be read exactly if all its strategies,
those of its destinations and those that it has recorded, are ones that exist. -/
theorem admitted_readable_iff {body : Json} (admitted : objectSyncSchema.admits body) :
    (ObjectSync.codec.decode body).isSome ↔
      (objectSyncSchemaWith (.oneOf SyncStrategy.names)).admits body :=
  ObjectSync.agrees.read body admitted

/-- An ObjectSync with another strategy is admitted, and cannot be read. -/
theorem settingsBody_merge :
    objectSyncSchema.admits (settingsBody "merge") ∧
      ¬(ObjectSync.codec.decode (settingsBody "merge")).isSome :=
  ⟨rfl, fun read => absurd ((admitted_readable_iff rfl).mp read) (by decide)⟩

/-- The status of an ObjectSync has changed exactly when its JSON has. -/
theorem ObjectSyncModifications.statusHasChanged_iff (self : ObjectSyncModifications)
    (original : ∀ status ∈ self.original.status, status.Representable)
    (modified : ∀ status ∈ self.modified.status, status.Representable) :
    self.statusHasChanged = true ↔
      statusValue self.original.status ≠ statusValue self.modified.status := by
  have back (status : Option ObjectSyncStatus)
      (representable : ∀ present ∈ status, present.Representable) :
      Fields.decodeOptional ObjectSyncStatus.codec (some (statusValue status)) = some status := by
    cases status with
    | none => rfl
    | some status =>
      have fits : ∀ present ∈ some status, ObjectSyncStatus.codec.Fits present :=
        fun present there => (representable present there).fits
      exact Fields.decodeOptional_map ObjectSyncStatus.codec (some status) fits
  rw [statusHasChanged, bne_iff_ne, Ne, Ne, not_iff_not]
  constructor
  · exact fun same => same ▸ rfl
  · intro same
    have read := back _ original
    rw [same, back _ modified] at read
    exact (Option.some.inj read).symm

end ObjectSyncer
