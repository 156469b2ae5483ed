import ObjectSyncer.Registry
import ObjectSyncer.ResourceController

/-!
# What watch events trigger

`ResourceControllerImpl::start` maps events of namespaces, of ObjectSyncs and of destination
objects to the source objects to reconcile. The first two mappers read the registry. They turn
its values, which name ObjectSyncs, into references to source objects, where its keys would name
the sources: what they trigger is right exactly when both have the same names.
-/
namespace ObjectSyncer

open Collections

/-- `ObjectRef<DynamicObject>`. -/
structure ObjectRef where
  resource : GroupVersionKind
  name : String
  namespace_ : String
  deriving DecidableEq, Repr

/-- `NamespacedName::object_ref`. -/
def NamespacedName.objectRef (self : NamespacedName) (ar : GroupVersionKind) : ObjectRef :=
  ⟨ar, self.name, self.namespace_⟩

/-- References of one resource differ when their names do. -/
theorem NamespacedName.objectRef_inj {left right : NamespacedName} {ar : GroupVersionKind} :
    left.objectRef ar = right.objectRef ar ↔ left = right := by
  cases left
  cases right
  simp [objectRef]

/-- An ObjectSync of a given identity. -/
def ObjectSync.named (id : ObjectSyncRef) : ObjectSync where
  metadata := { name := some id.name.name, namespace_ := some id.name.namespace_ }
  spec := ⟨⟨"", none, "", "", none⟩, []⟩
  status := none

namespace ResourceControllerImpl

/-- Whether a namespace is one that copies may be made in. -/
def isTargetNamespace (self : ResourceControllerImpl) (namespace_ : String) : Bool :=
  match self.configuration.targetNamespaces with
  | none => true
  | some v => v.contains namespace_

/-- Whether the namespace mapper lets an event through: the namespace is being deleted, or is
younger than three full reconcile intervals. -/
def shouldReconcile (now : Int) (namespace_ : Namespace) : Bool :=
  namespace_.deletionTimestamp.isSome ||
    match namespace_.creationTimestamp with
    | some ct => now - ct < (fullReconcileIntervalSecs : Int) * 3
    | none => false

/-- The namespace watch mapper of `start`. -/
def namespaceMapper (self : ResourceControllerImpl) (sources : Registry) (now : Int)
    (namespace_ : Namespace) : List ObjectRef :=
  if !self.isTargetNamespace namespace_.name then []
  else if shouldReconcile now namespace_ then
    (SetMap.values sources).map fun v => v.name.objectRef self.gvk
  else []

/-- The ObjectSync watch mapper of `start`. -/
def objectSyncMapper (self : ResourceControllerImpl) (sources : Registry) (rs : ObjectSync) :
    List ObjectRef :=
  let objectSyncRef := ObjectSyncRef.ofSync rs
  ((SetMap.values sources).filter fun v => v == objectSyncRef).map fun v =>
    v.name.objectRef self.gvk

/-- The destination watch mapper of `start`: the object named by the annotation of a copy. -/
def destinationMapper (self : ResourceControllerImpl) (rs : DynamicObject) : Option ObjectRef :=
  let isTarget := self.isTargetNamespace (rs.metadata.namespace_.getD "")
  match (rs.metadata.annotations.getD []).lookup sourceObjectAnnotation with
  | none => none
  | some annotation =>
    match annotation.splitOn "/" with
    | ns :: name :: rest =>
      let name := String.intercalate "/" (name :: rest)
      if isTarget && name != "" then some (NamespacedName.objectRef ⟨name, ns⟩ self.gvk) else none
    | _ => none

variable (self : ResourceControllerImpl) (sources : Registry)

/-- The sources that an event of an ObjectSync should reconcile. -/
def TriggersSources (rs : ObjectSync) : Prop :=
  ∀ ref, ref ∈ self.objectSyncMapper sources rs ↔
    ∃ src, Registry.Registered sources src (ObjectSyncRef.ofSync rs) ∧
      src.name.objectRef self.gvk = ref

/-- The sources that an event of a namespace should reconcile. -/
def TriggersAllSources (now : Int) (namespace_ : Namespace) : Prop :=
  ∀ ref, ref ∈ self.namespaceMapper sources now namespace_ ↔
    ∃ src, src ∈ sources ∧ src.name.objectRef self.gvk = ref

/-- The ObjectSync mapper triggers an object exactly when that object is named like the
ObjectSync and the ObjectSync is registered anywhere. -/
theorem mem_objectSyncMapper (rs : ObjectSync) (ref : ObjectRef) :
    ref ∈ self.objectSyncMapper sources rs ↔
      (∃ src, Registry.Registered sources src (ObjectSyncRef.ofSync rs)) ∧
        (ObjectSyncRef.ofSync rs).name.objectRef self.gvk = ref := by
  simp only [objectSyncMapper, List.mem_map, List.mem_filter, beq_iff_eq, SetMap.mem_values]
  constructor
  · rintro ⟨_, ⟨held, rfl⟩, rfl⟩
    exact ⟨held, rfl⟩
  · rintro ⟨held, rfl⟩
    exact ⟨_, ⟨held, rfl⟩, rfl⟩

/-- The namespace mapper triggers the objects named like registered ObjectSyncs. -/
theorem mem_namespaceMapper {now : Int} {namespace_ : Namespace}
    (target : self.isTargetNamespace namespace_.name) (due : shouldReconcile now namespace_)
    (ref : ObjectRef) :
    ref ∈ self.namespaceMapper sources now namespace_ ↔
      ∃ src crd, Registry.Registered sources src crd ∧ crd.name.objectRef self.gvk = ref := by
  simp only [namespaceMapper, target, due, Bool.not_true, Bool.false_eq_true, ↓reduceIte,
    List.mem_map, SetMap.mem_values]
  constructor
  · rintro ⟨crd, ⟨src, held⟩, same⟩
    exact ⟨src, crd, held, same⟩
  · rintro ⟨src, crd, held, same⟩
    exact ⟨crd, ⟨src, held⟩, same⟩

/-- An ObjectSync event triggers the right sources exactly when every source of the ObjectSync
is named like it. -/
theorem triggersSources_iff (rs : ObjectSync) :
    self.TriggersSources sources rs ↔
      ∀ src, Registry.Registered sources src (ObjectSyncRef.ofSync rs) →
        src.name = (ObjectSyncRef.ofSync rs).name := by
  constructor
  · intro triggers src held
    have triggered := (triggers (src.name.objectRef self.gvk)).mpr ⟨src, held, rfl⟩
    rw [mem_objectSyncMapper] at triggered
    exact (NamespacedName.objectRef_inj.mp triggered.2).symm
  · intro named ref
    rw [mem_objectSyncMapper]
    constructor
    · rintro ⟨⟨src, held⟩, rfl⟩
      exact ⟨src, held, by rw [named src held]⟩
    · rintro ⟨src, held, rfl⟩
      exact ⟨⟨src, held⟩, by rw [named src held]⟩

/-- A namespace event triggers the right sources exactly when the registered ObjectSyncs and the
registered sources have the same names. -/
theorem triggersAllSources_iff {now : Int} {namespace_ : Namespace}
    (target : self.isTargetNamespace namespace_.name) (due : shouldReconcile now namespace_) :
    self.TriggersAllSources sources now namespace_ ↔
      ∀ name, (∃ src crd, Registry.Registered sources src crd ∧ crd.name = name) ↔
        ∃ src, src ∈ sources ∧ src.name = name := by
  unfold TriggersAllSources
  simp only [self.mem_namespaceMapper sources target due]
  constructor
  · intro triggers name
    simpa only [NamespacedName.objectRef_inj] using triggers (name.objectRef self.gvk)
  · intro same ref
    constructor
    · rintro ⟨src, crd, held, rfl⟩
      obtain ⟨src', member, named⟩ := (same crd.name).mp ⟨src, crd, held, rfl⟩
      exact ⟨src', member, by rw [named]⟩
    · rintro ⟨src, member, rfl⟩
      obtain ⟨src', crd, held, named⟩ := (same src.name).mpr ⟨src, member, rfl⟩
      exact ⟨src', crd, held, by rw [named]⟩

/-- All events trigger the right sources exactly when every ObjectSync is registered only under
sources with its own name and namespace. -/
theorem triggers_all_iff (full : SetMap.NonEmpty sources) :
    ((∀ rs, self.TriggersSources sources rs) ∧
      ∀ now namespace_, self.isTargetNamespace namespace_.name → shouldReconcile now namespace_ →
        self.TriggersAllSources sources now namespace_) ↔
      ∀ src crd, Registry.Registered sources src crd → src.name = crd.name := by
  constructor
  · rintro ⟨triggers, -⟩ src crd held
    exact (self.triggersSources_iff sources (ObjectSync.named crd)).mp (triggers _) src held
  · intro named
    refine ⟨fun rs => (self.triggersSources_iff sources rs).mpr fun src held => named src _ held,
      fun now namespace_ target due => ?_⟩
    rw [self.triggersAllSources_iff sources target due]
    intro name
    constructor
    · rintro ⟨src, crd, held, rfl⟩
      exact ⟨src, (SetMap.mem_iff_holds full src).mpr ⟨crd, held⟩, named src crd held⟩
    · rintro ⟨src, member, rfl⟩
      obtain ⟨crd, held⟩ := (SetMap.mem_iff_holds full src).mp member
      exact ⟨src, crd, held, (named src crd held).symm⟩

/-- **Watch triggers.** In every registry that registrations and drops of handles lead to: an
ObjectSync event triggers exactly the sources of the ObjectSync if and only if these have its own
name and namespace; an admitted namespace event triggers exactly the registered sources if and only
if these have the same names as the registered ObjectSyncs; and all events trigger what they should
if and only if every ObjectSync is registered only under sources with its own name and
namespace. -/
theorem watch_triggers_iff {handles : List (SourceRef × ObjectSyncRef)}
    (reachable : Registry.Reachable sources handles) :
    (∀ rs, self.TriggersSources sources rs ↔
      ∀ src, Registry.Registered sources src (ObjectSyncRef.ofSync rs) →
        src.name = (ObjectSyncRef.ofSync rs).name) ∧
    (∀ now namespace_, self.isTargetNamespace namespace_.name → shouldReconcile now namespace_ →
      (self.TriggersAllSources sources now namespace_ ↔
        ∀ name, (∃ src crd, Registry.Registered sources src crd ∧ crd.name = name) ↔
          ∃ src, src ∈ sources ∧ src.name = name)) ∧
    (((∀ rs, self.TriggersSources sources rs) ∧
      ∀ now namespace_, self.isTargetNamespace namespace_.name → shouldReconcile now namespace_ →
        self.TriggersAllSources sources now namespace_) ↔
      ∀ src crd, Registry.Registered sources src crd → src.name = crd.name) :=
  ⟨self.triggersSources_iff sources,
    fun _ _ target due => self.triggersAllSources_iff sources target due,
    self.triggers_all_iff sources reachable.nonEmpty⟩

end ResourceControllerImpl

/-- The registry after one ObjectSync `distributor` was registered under its source
`my-config-map`. -/
def distributed : Registry :=
  Registry.register ∅ ⟨⟨"my-config-map", "default"⟩⟩ ⟨⟨"distributor", "default"⟩⟩

/-- The handle of the registration under the source of the distributor. -/
def distributedHandles : List (SourceRef × ObjectSyncRef) :=
  [(⟨⟨"my-config-map", "default"⟩⟩, ⟨⟨"distributor", "default"⟩⟩)]

/-- One registration leads to the registry of the distributed settings. -/
theorem distributed_reachable : Registry.Reachable distributed distributedHandles :=
  Registry.Reachable.start.register _ _

/-- An event of the ObjectSync of the distributed settings triggers an object named like the
ObjectSync, and not its source. An event of a new namespace does the same. -/
theorem watch_triggers_miss_source :
    Registry.Reachable distributed distributedHandles ∧
      ¬configMaps.TriggersSources distributed (ObjectSync.named ⟨⟨"distributor", "default"⟩⟩) ∧
      ¬configMaps.TriggersAllSources distributed 100 ⟨"team", some 0, none⟩ := by
  have held : Registry.Registered distributed ⟨⟨"my-config-map", "default"⟩⟩
      ⟨⟨"distributor", "default"⟩⟩ := (SetMap.holds_add ..).mpr (.inl ⟨rfl, rfl⟩)
  refine ⟨distributed_reachable, fun triggers => ?_, fun triggers => ?_⟩
  · have source := (triggers ⟨⟨"", "v1", "ConfigMap"⟩, "my-config-map", "default"⟩).mpr
      ⟨_, held, rfl⟩
    revert source
    decide
  · have source := (triggers ⟨⟨"", "v1", "ConfigMap"⟩, "my-config-map", "default"⟩).mpr
      ⟨_, (SetMap.mem_iff_holds distributed_reachable.nonEmpty _).mpr ⟨_, held⟩, rfl⟩
    revert source
    decide

/-- The equivalences at that registry, for an event of its ObjectSync and of a new namespace. -/
theorem watch_triggers_distributed :
    (configMaps.TriggersSources distributed (ObjectSync.named ⟨⟨"distributor", "default"⟩⟩) ↔
      ∀ src, Registry.Registered distributed src ⟨⟨"distributor", "default"⟩⟩ →
        src.name = ⟨"distributor", "default"⟩) ∧
    (configMaps.TriggersAllSources distributed 100 ⟨"team", some 0, none⟩ ↔
      ∀ name, (∃ src crd, Registry.Registered distributed src crd ∧ crd.name = name) ↔
        ∃ src, src ∈ distributed ∧ src.name = name) :=
  have triggers := configMaps.watch_triggers_iff distributed distributed_reachable
  ⟨triggers.1 (ObjectSync.named ⟨⟨"distributor", "default"⟩⟩),
    triggers.2.1 100 ⟨"team", some 0, none⟩ rfl (by decide)⟩

end ObjectSyncer
