import ObjectSyncer.Access.Roles
import ObjectSyncer.Settings

/-!
# Authorization

The chart grants the controller roles from the values that it also configures it with: what they
grant, what requests to the API server ask for, and which of the watches that the controllers open
are granted.
-/
namespace ObjectSyncer

open Access

namespace Values

/-- The verbs of `source-roles.yaml`. -/
def sourceVerbs : List Verb := [.list, .get, .watch, .patch]

/-- The verbs of `target-roles.yaml`. -/
def targetVerbs : List Verb := [.list, .get, .watch, .create, .delete, .patch, .update]

/-- The rules of `source-roles.yaml` and `target-roles.yaml`. -/
def rules (values : Values) (verbs : List Verb) : List PolicyRule :=
  values.allowedResources.map fun r => ⟨r.apiGroups, r.resources, verbs⟩

/-- The rule of `watch-roles.yaml`. -/
def watchRule : PolicyRule where
  apiGroups := ["sync.rustrial.org"]
  resources := ["objectsyncs", "objectsyncs/status"]
  verbs := [.list, .get, .watch, .create, .delete, .patch, .update]

/-- The namespaces of `watch-roles.yaml`: a single watched namespace, or else all of them. -/
def watchRoleNamespaces (values : Values) : List String :=
  if values.watchNamespaces.length = 1 ∧ "*" ∉ values.watchNamespaces then values.watchNamespaces
  else ["*"]

/-- The rule of `cluster-role.yaml`. -/
def clusterRule : PolicyRule where
  apiGroups := [""]
  resources := ["namespaces"]
  verbs := [.list, .get, .watch]

/-- The roles that the chart binds to its service account. -/
def roles (values : Values) : List Role :=
  if values.serviceAccountCreate then
    ⟨none, [clusterRule]⟩ :: (rolesFor values.sourceNamespaces (values.rules sourceVerbs) ++
      rolesFor values.targetNamespaces (values.rules targetVerbs) ++
      rolesFor values.watchRoleNamespaces [watchRule])
  else []

/-- The roles grant what is asked for. -/
def Granted (values : Values) (asked : Attributes) : Prop :=
  ∃ role ∈ values.roles, role.grants asked = true

/-- Whether the roles grant what is asked for can be computed. -/
instance (values : Values) (asked : Attributes) : Decidable (values.Granted asked) :=
  inferInstanceAs (Decidable (∃ role ∈ values.roles, role.grants asked = true))

/-- The values allow a resource to be synchronized. -/
def Allows (values : Values) (resource : Resource) : Prop :=
  ∃ r ∈ values.allowedResources, resource.within r.apiGroups r.resources = true

/-- Whether the values allow a resource can be computed. -/
instance (values : Values) (resource : Resource) : Decidable (values.Allows resource) :=
  inferInstanceAs (Decidable (∃ r ∈ values.allowedResources, _ = true))

section Grants

variable {values : Values} {asked : Attributes}

/-- The rules allow their verbs on the resources that the values allow. -/
theorem exists_rule_iff {verbs : List Verb} :
    (∃ rule ∈ values.rules verbs, rule.allows asked = true) ↔
      asked.verb ∈ verbs ∧ values.Allows asked.resource := by
  unfold rules Allows
  constructor
  · intro found
    obtain ⟨rule, member, allowed⟩ := found
    obtain ⟨r, listed, same⟩ := List.mem_map.mp member
    rw [← same, PolicyRule.allows_iff] at allowed
    exact ⟨allowed.1, r, listed, allowed.2⟩
  · intro found
    obtain ⟨verb, r, listed, within⟩ := found
    exact ⟨_, List.mem_map_of_mem listed, PolicyRule.allows_iff.mpr ⟨verb, within⟩⟩

/-- What the roles of the chart grant: no more and no less. -/
theorem granted_iff :
    values.Granted asked ↔ values.serviceAccountCreate = true ∧
      (clusterRule.allows asked = true ∨
        values.Allows asked.resource ∧
          (asked.verb ∈ sourceVerbs ∧ Reaches values.sourceNamespaces asked.namespace_ ∨
            asked.verb ∈ targetVerbs ∧ Reaches values.targetNamespaces asked.namespace_) ∨
        watchRule.allows asked = true ∧ Reaches values.watchRoleNamespaces asked.namespace_) := by
  have both (reached reached' verb verb' allowed : Prop) :
      reached ∧ verb ∧ allowed ∨ reached' ∧ verb' ∧ allowed ↔
        allowed ∧ (verb ∧ reached ∨ verb' ∧ reached') := by tauto
  have source := @rolesFor_grants_iff values.sourceNamespaces (values.rules sourceVerbs) asked
  have target := @rolesFor_grants_iff values.targetNamespaces (values.rules targetVerbs) asked
  have watch := @rolesFor_grants_iff values.watchRoleNamespaces [watchRule] asked
  have cluster := @Role.grants_everywhere_iff [clusterRule] asked
  have single (rule : PolicyRule) :
      (∃ rule' ∈ [rule], rule'.allows asked = true) ↔ rule.allows asked = true := by simp
  rw [exists_rule_iff] at source target
  rw [single] at watch cluster
  unfold Granted roles
  cases values.serviceAccountCreate with
  | false => simp
  | true =>
    simp only [if_true, List.exists_mem_cons_iff, List.mem_append, or_and_right, exists_or, source,
      target, watch, cluster]
    rw [true_and]
    exact or_congr Iff.rfl (or_congr (both _ _ _ _ _) and_comm)

/-- The resources and the verbs of the source roles, in the source namespaces. -/
theorem granted_source (created : values.serviceAccountCreate = true)
    (allows : values.Allows asked.resource) (verb : asked.verb ∈ sourceVerbs)
    (reaches : Reaches values.sourceNamespaces asked.namespace_) : values.Granted asked :=
  granted_iff.mpr ⟨created, .inr (.inl ⟨allows, .inl ⟨verb, reaches⟩⟩)⟩

/-- The resources of the target roles, in the target namespaces. -/
theorem granted_target (created : values.serviceAccountCreate = true)
    (allows : values.Allows asked.resource)
    (reaches : Reaches values.targetNamespaces asked.namespace_) : values.Granted asked := by
  have every : asked.verb ∈ targetVerbs := by cases asked.verb <;> decide
  exact granted_iff.mpr ⟨created, .inr (.inl ⟨allows, .inr ⟨every, reaches⟩⟩)⟩

/-- ObjectSyncs and their status, in the watched namespaces. -/
theorem granted_sync {verb : Verb} {subresource : String} {ns : Option String}
    (created : values.serviceAccountCreate = true)
    (below : subresource = "" ∨ subresource = "status")
    (reaches : Reaches values.watchRoleNamespaces ns) :
    values.Granted ⟨verb, ⟨"sync.rustrial.org", "objectsyncs", subresource⟩, ns⟩ := by
  have every : verb ∈ watchRule.verbs := by cases verb <;> decide
  have within : Resource.within ⟨"sync.rustrial.org", "objectsyncs", subresource⟩
      watchRule.apiGroups watchRule.resources = true := by
    rcases below with rfl | rfl <;> decide
  exact granted_iff.mpr ⟨created, .inr (.inr ⟨PolicyRule.allows_iff.mpr ⟨every, within⟩, reaches⟩)⟩

/-- The watch roles reach every namespace that the values cover. -/
theorem reaches_watchRole {ns : String} (covers : Covers values.watchNamespaces ns) :
    Reaches values.watchRoleNamespaces (some ns) := by
  unfold watchRoleNamespaces
  split
  · rename_i single
    rcases covers with none | wildcard | listed
    · rw [none] at single
      cases single.1
    · exact absurd wildcard single.2
    · exact reaches_some_iff.mpr (.inr listed)
  · exact .inl List.mem_cons_self

/-- A list of namespaces that is not empty reaches what it covers. -/
theorem reaches_of_covers {namespaces : List String} {ns : String} (some_ : namespaces ≠ [])
    (covers : Covers namespaces ns) : Reaches namespaces (some ns) :=
  reaches_some_iff.mpr (covers.resolve_left some_)

end Grants

end Values

/-- The resource of a kind, whose plural name `ApiResource::from_gvk` infers. -/
def GroupVersionKind.resource (gvk : GroupVersionKind) (plural : GroupVersionKind → String) :
    Resource :=
  ⟨gvk.group, plural gvk, ""⟩

/-- What a request asks for, depending on which objects are present. An apply asks for a patch, and
for a creation where it brings the object into being; discovery is open to everybody. -/
def ApiRequest.access (plural : GroupVersionKind → String) (present : ObjectKey → Bool) :
    ApiRequest → List Attributes
  | .get target _ => [⟨.get, target.resource.resource plural, some target.namespace_⟩]
  | .create target _ => [⟨.create, target.resource.resource plural, some target.namespace_⟩]
  | .replace target _ _ => [⟨.update, target.resource.resource plural, some target.namespace_⟩]
  | .apply target name _ =>
    ⟨.patch, target.resource.resource plural, some target.namespace_⟩ ::
      if present (target.key name) then []
      else [⟨.create, target.resource.resource plural, some target.namespace_⟩]
  | .jsonPatch target _ _ => [⟨.patch, target.resource.resource plural, some target.namespace_⟩]
  | .delete target _ => [⟨.delete, target.resource.resource plural, some target.namespace_⟩]
  | .getSync sync => [⟨.get, ⟨"sync.rustrial.org", "objectsyncs", ""⟩, some sync.namespace_⟩]
  | .getSyncStatus sync =>
    [⟨.get, ⟨"sync.rustrial.org", "objectsyncs", "status"⟩, some sync.namespace_⟩]
  | .replaceSyncStatus sync _ =>
    [⟨.update, ⟨"sync.rustrial.org", "objectsyncs", "status"⟩, some sync.namespace_⟩]
  | .jsonPatchSync sync _ =>
    [⟨.patch, ⟨"sync.rustrial.org", "objectsyncs", ""⟩, some sync.namespace_⟩]
  | .discoverGroup _ => []

/-- An apply asks for a patch, and at most for a creation besides. -/
theorem ApiRequest.access_apply {plural : GroupVersionKind → String} {present : ObjectKey → Bool}
    {target : DynamicApi} {name : String} {patch : DynamicObject} {asked : Attributes}
    (asks : asked ∈ (ApiRequest.apply target name patch).access plural present) :
    asked = ⟨.patch, target.resource.resource plural, some target.namespace_⟩ ∨
      present (target.key name) = false ∧
        asked = ⟨.create, target.resource.resource plural, some target.namespace_⟩ := by
  rcases List.mem_cons.mp asks with patches | creates
  · exact .inl patches
  · split at creates
    · cases creates
    · rename_i absent
      exact .inr ⟨Bool.eq_false_iff.mpr absent, List.mem_singleton.mp creates⟩

/-- ObjectSyncs, where the configuration has them listed. -/
def Configuration.syncAttributes (configuration : Configuration) (verb : Verb) : Attributes :=
  ⟨verb, ⟨"sync.rustrial.org", "objectsyncs", ""⟩, configuration.resourceSync⟩

/-- Watching all namespaces of the cluster. -/
def namespaceAttributes : Attributes := ⟨.watch, ⟨"", "namespaces", ""⟩, none⟩

/-- What the controller asks for before it knows of any ObjectSync: the reflector of namespaces of
`main`, which streams its lists, and `ObjectSyncController::start`. -/
def Configuration.opened (configuration : Configuration) : List Attributes :=
  [namespaceAttributes, configuration.syncAttributes .list, configuration.syncAttributes .watch]

/-- What `ResourceControllerImpl::start` asks for. All its lists are streamed. -/
def ResourceControllerImpl.opened (self : ResourceControllerImpl)
    (plural : GroupVersionKind → String) : List Attributes :=
  [⟨.watch, self.gvk.resource plural, api self.configuration.sourceNamespaces⟩, namespaceAttributes,
    self.configuration.syncAttributes .watch,
    ⟨.watch, self.gvk.resource plural, api self.configuration.targetNamespaces⟩]

open Values

section Watches

variable {values : Values} {plural : GroupVersionKind → String}

/-- One namespace is listed if there is exactly one, and no wildcard. -/
theorem api_restriction_iff {namespaces : List String} {ns : String} :
    ResourceControllerImpl.api (restriction namespaces) = some ns ↔
      "*" ∉ namespaces ∧ namespaces.dedup = [ns] := by
  rw [ResourceControllerImpl.api_eq_some_iff]
  unfold restriction
  by_cases all : namespaces = [] ∨ "*" ∈ namespaces
  · rw [if_pos all]
    constructor
    · intro found
      obtain ⟨names, given, unique⟩ := found
      cases given
    · intro found
      rcases all with none | wildcard
      · rw [none] at found
        cases found.2
      · exact absurd wildcard found.1
  · rw [if_neg all]
    constructor
    · intro found
      obtain ⟨names, given, unique⟩ := found
      rw [← Option.some.inj given, List.dedup_idem] at unique
      exact ⟨(not_or.mp all).2, unique⟩
    · intro found
      exact ⟨_, rfl, by rw [List.dedup_idem, found.2]⟩

/-- What is listed of namespaces is reached by them or by others, unless there are several or none,
and no wildcard on either side. -/
theorem reaches_api_iff {namespaces others : List String} :
    Reaches namespaces (ResourceControllerImpl.api (restriction namespaces)) ∨
        Reaches others (ResourceControllerImpl.api (restriction namespaces)) ↔
      "*" ∈ namespaces ∨ "*" ∈ others ∨ ∃ ns, namespaces.dedup = [ns] := by
  cases single : ResourceControllerImpl.api (restriction namespaces) with
  | none =>
    rw [reaches_none_iff, reaches_none_iff]
    constructor
    · intro found
      exact found.imp_right Or.inl
    · intro found
      rcases found with wildcard | wildcard | found
      · exact .inl wildcard
      · exact .inr wildcard
      · obtain ⟨ns, unique⟩ := found
        by_cases wildcard : "*" ∈ namespaces
        · exact .inl wildcard
        · rw [api_restriction_iff.mpr ⟨wildcard, unique⟩] at single
          cases single
  | some ns =>
    have only := (api_restriction_iff.mp single).2
    have member : ns ∈ namespaces := by
      rw [← List.mem_dedup, only]
      exact List.mem_cons_self
    constructor
    · intro _
      exact .inr (.inr ⟨ns, only⟩)
    · intro _
      exact .inl (reaches_some_iff.mpr (.inr member))

/-- The watch roles reach the ObjectSyncs that are listed. -/
theorem reaches_resourceSync (plain : values.Plain) :
    Reaches values.watchRoleNamespaces (Configuration.new values.environment).resourceSync := by
  unfold watchRoleNamespaces
  split
  · rename_i single
    obtain ⟨ns, only⟩ := List.length_eq_one_iff.mp single.1
    have some_ : ¬(values.watchNamespaces = [] ∨ "*" ∈ values.watchNamespaces) := by
      rw [only] at single ⊢
      simpa using single.2
    have listed : (Configuration.new values.environment).resourceSync = some ns := by
      rw [Configuration.new_environment plain]
      apply Configuration.resourceSync_eq_some_iff.mpr
      exact ⟨_, if_neg some_, by rw [List.dedup_idem, only]; rfl⟩
    rw [listed, only]
    exact reaches_some_iff.mpr (.inr List.mem_cons_self)
  · exact .inl List.mem_cons_self

/-- The controller may always watch namespaces. -/
theorem granted_namespaces (created : values.serviceAccountCreate = true) :
    values.Granted namespaceAttributes :=
  granted_iff.mpr ⟨created, .inl (by decide)⟩

/-- Objects may be watched if the values allow their kind, in the source and the target namespaces.
-/
theorem granted_watch_iff {gvk : GroupVersionKind} {ns : Option String}
    (other : gvk.group ≠ "sync.rustrial.org")
    (other' : ¬(gvk.group = "" ∧ plural gvk = "namespaces")) :
    values.Granted ⟨.watch, gvk.resource plural, ns⟩ ↔ values.serviceAccountCreate = true ∧
      values.Allows (gvk.resource plural) ∧
        (Reaches values.sourceNamespaces ns ∨ Reaches values.targetNamespaces ns) := by
  have cluster : ¬clusterRule.allows ⟨.watch, gvk.resource plural, ns⟩ = true := by
    rw [PolicyRule.allows_iff]
    intro allowed
    have within : gvk.group = "" ∧ plural gvk = "namespaces" := by
      simpa [Resource.within, Resource.combined, clusterRule, GroupVersionKind.resource]
        using allowed.2
    exact other' within
  have watch : ¬watchRule.allows ⟨.watch, gvk.resource plural, ns⟩ = true := by
    rw [PolicyRule.allows_iff]
    intro allowed
    have within : gvk.group = "sync.rustrial.org" ∧
        (plural gvk = "objectsyncs" ∨ plural gvk = "objectsyncs/status") := by
      simpa [Resource.within, Resource.combined, watchRule, GroupVersionKind.resource]
        using allowed.2
    exact other within.1
  have source : Verb.watch ∈ sourceVerbs := by decide
  have target : Verb.watch ∈ targetVerbs := by decide
  rw [granted_iff]
  constructor
  · intro granted
    refine ⟨granted.1, ?_⟩
    rcases granted.2 with allowed | found | allowed
    · exact absurd allowed cluster
    · exact ⟨found.1, found.2.imp And.right And.right⟩
    · exact absurd allowed.1 watch
  · intro granted
    exact ⟨granted.1, .inr (.inl ⟨granted.2.1, granted.2.2.imp (⟨source, ·⟩) (⟨target, ·⟩)⟩)⟩

/-- **Watches.** The watches for namespaces and ObjectSyncs are granted. A resource controller is
granted all of its watches exactly if the values allow its kind and there is a wildcard among the
source or the target namespaces, or else one namespace on each side: it lists all namespaces where
it is configured for several, or for none. -/
theorem watches_granted_iff (plain : values.Plain) {self : ResourceControllerImpl}
    (configured : self.configuration = .new values.environment)
    (other : self.gvk.group ≠ "sync.rustrial.org")
    (other' : ¬(self.gvk.group = "" ∧ plural self.gvk = "namespaces")) :
    (values.serviceAccountCreate = true →
      ∀ asked ∈ self.configuration.opened, values.Granted asked) ∧
    ((∀ asked ∈ self.opened plural, values.Granted asked) ↔
      values.serviceAccountCreate = true ∧ values.Allows (self.gvk.resource plural) ∧
        ("*" ∈ values.sourceNamespaces ∨ "*" ∈ values.targetNamespaces ∨
          (∃ ns, values.sourceNamespaces.dedup = [ns]) ∧
            ∃ ns, values.targetNamespaces.dedup = [ns])) := by
  have syncs (created : values.serviceAccountCreate = true) (verb : Verb) :
      values.Granted ((Configuration.new values.environment).syncAttributes verb) :=
    granted_sync created (.inl rfl) (reaches_resourceSync plain)
  have source : values.Granted ⟨.watch, self.gvk.resource plural,
      ResourceControllerImpl.api self.configuration.sourceNamespaces⟩ ↔
      values.serviceAccountCreate = true ∧ values.Allows (self.gvk.resource plural) ∧
        ("*" ∈ values.sourceNamespaces ∨ "*" ∈ values.targetNamespaces ∨
          ∃ ns, values.sourceNamespaces.dedup = [ns]) := by
    rw [granted_watch_iff other other', configured, Configuration.new_environment plain,
      reaches_api_iff]
  have target : values.Granted ⟨.watch, self.gvk.resource plural,
      ResourceControllerImpl.api self.configuration.targetNamespaces⟩ ↔
      values.serviceAccountCreate = true ∧ values.Allows (self.gvk.resource plural) ∧
        ("*" ∈ values.targetNamespaces ∨ "*" ∈ values.sourceNamespaces ∨
          ∃ ns, values.targetNamespaces.dedup = [ns]) := by
    rw [granted_watch_iff other other', configured, Configuration.new_environment plain,
      or_comm, reaches_api_iff]
  constructor
  · intro created asked member
    have opened : asked = namespaceAttributes ∨ asked = self.configuration.syncAttributes .list ∨
        asked = self.configuration.syncAttributes .watch := by
      simpa [Configuration.opened] using member
    rw [configured] at opened
    rcases opened with rfl | rfl | rfl
    · exact granted_namespaces created
    · exact syncs created .list
    · exact syncs created .watch
  · constructor
    · intro granted
      have first := source.mp (granted _ (by simp [ResourceControllerImpl.opened]))
      have last := target.mp (granted _ (by simp [ResourceControllerImpl.opened]))
      refine ⟨first.1, first.2.1, ?_⟩
      rcases first.2.2 with wildcard | wildcard | single
      · exact .inl wildcard
      · exact .inr (.inl wildcard)
      · rcases last.2.2 with wildcard | wildcard | single'
        · exact .inr (.inl wildcard)
        · exact .inl wildcard
        · exact .inr (.inr ⟨single, single'⟩)
    · intro held
      obtain ⟨created, allows, spread⟩ := held
      intro asked member
      have opened : asked = ⟨.watch, self.gvk.resource plural,
            ResourceControllerImpl.api self.configuration.sourceNamespaces⟩ ∨
          asked = namespaceAttributes ∨ asked = self.configuration.syncAttributes .watch ∨
          asked = ⟨.watch, self.gvk.resource plural,
            ResourceControllerImpl.api self.configuration.targetNamespaces⟩ := by
        simpa [ResourceControllerImpl.opened] using member
      rcases opened with same | same | same | same
      · rw [same]
        exact source.mpr ⟨created, allows, spread.imp_right (Or.imp_right And.left)⟩
      · rw [same]
        exact granted_namespaces created
      · rw [same, configured]
        exact syncs created .watch
      · rw [same]
        refine target.mpr ⟨created, allows, ?_⟩
        rcases spread with wildcard | wildcard | single
        · exact .inr (.inl wildcard)
        · exact .inl wildcard
        · exact .inr (.inr single.2)

/-- The plural names of kinds, config maps among them. -/
def settingsPlural (gvk : GroupVersionKind) : String :=
  if gvk.kind = "ConfigMap" then "configmaps" else gvk.kind

/-- The default values, with copies in one namespace only. -/
def Values.narrow : Values := { Values.default with targetNamespaces := ["team"] }

/-- The default values with copies in one namespace only have plain namespaces. -/
theorem Values.narrow_plain : Values.narrow.Plain where
  watch := by decide
  source := by decide
  target := by decide

/-- With the default values all watches are granted, but not when copies are restricted to one
namespace, as there are two for sources. -/
theorem default_watches_granted :
    (∀ asked ∈ ResourceControllerImpl.opened
        ⟨.new Values.default.environment, ⟨"", "v1", "ConfigMap"⟩, 0⟩ settingsPlural,
      Values.default.Granted asked) ∧
    ¬∀ asked ∈ ResourceControllerImpl.opened
        ⟨.new Values.narrow.environment, ⟨"", "v1", "ConfigMap"⟩, 0⟩ settingsPlural,
      Values.narrow.Granted asked := by
  constructor
  · have spec := @watches_granted_iff _ settingsPlural Values.default_plain
      ⟨.new Values.default.environment, ⟨"", "v1", "ConfigMap"⟩, 0⟩ rfl (by decide) (by decide)
    exact spec.2.mpr ⟨rfl, by decide, .inr (.inl (by decide))⟩
  · have spec := @watches_granted_iff _ settingsPlural Values.narrow_plain
      ⟨.new Values.narrow.environment, ⟨"", "v1", "ConfigMap"⟩, 0⟩ rfl (by decide) (by decide)
    intro granted
    have source : "*" ∉ Values.narrow.sourceNamespaces := by decide
    have target : "*" ∉ Values.narrow.targetNamespaces := by decide
    have spread := ((spec.2.mp granted).2.2.resolve_left source).resolve_left target
    obtain ⟨ns, only⟩ := spread.1
    have two : Values.narrow.sourceNamespaces.dedup.length = 2 := by decide
    rw [only] at two
    cases two

end Watches

end ObjectSyncer
