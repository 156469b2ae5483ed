import ObjectSyncer.SourceProtection

/-!
# Target namespaces

A configuration may name the namespaces for copies. The expansion of destinations does not read it,
so that a copy is expected in every live namespace of the cache that an entry of the specification
selects.
-/
namespace ObjectSyncer

open Interaction Interaction.Program

/-- The cached namespaces that an entry selects by their names: all of them, or the one it names. -/
def Destination.selected (d : Destination) (cache : List Namespace) : List Namespace :=
  if d.appliesToAllNamespaces then cache
  else (cache.find? fun ns => ns.name == d.namespace_).toList

/-- The copy that an entry designates in a namespace would be the source itself. -/
def Destination.IsSource (d : Destination) (sync : ObjectSync) (namespace_ : String) : Prop :=
  d.name.getD sync.sourceName = sync.sourceName ∧ namespace_ = sync.sourceNamespace.getD ""

/-- Every live namespace that the specification selects is one of the given ones, up to those where
the copy would be the source itself. -/
def SelectsWithin (targets : List String) (sync : ObjectSync) (cache : List Namespace) : Prop :=
  ∀ d ∈ sync.spec.destinations, ∀ ns ∈ d.selected cache, ns.deletionTimestamp = none →
    ¬d.IsSource sync ns.name → ns.name ∈ targets

/-- A request creates, replaces and patches nothing outside of the given namespaces, but for the
release of a recorded destination that is to be deleted. -/
def WritesWithin (targets : List String) (recorded : List DestinationStatus) : Call → Prop
  | .api (.create api _) | .api (.replace api _ _) | .api (.apply api _ _) =>
    api.namespace_ ∈ targets
  | .api (.jsonPatch api name _) =>
    api.namespace_ ∈ targets ∨ ∃ d ∈ recorded, api = d.api ∧ name = d.name
  | _ => True

/-- An entry applies to the namespaces that it selects, but not to the source itself. -/
theorem Destination.appliesTo_eq_some_iff {d : Destination} {sync : ObjectSync}
    {namespace_ : String} {target : String × String} :
    d.appliesTo sync namespace_ = some target ↔ d.appliesToNamespace namespace_ = true ∧
      ¬d.IsSource sync namespace_ ∧ target = (namespace_, d.name.getD sync.sourceName) := by
  have distinct : (sync.spec.source.name ≠ d.name.getD sync.spec.source.name ∨
      (sync.spec.source.namespace_.or sync.metadata.namespace_).getD "" ≠ namespace_) ↔
      ¬d.IsSource sync namespace_ := by
    unfold IsSource ObjectSync.sourceName ObjectSync.sourceNamespace
    rw [not_and_or]
    exact or_congr (not_congr eq_comm) (not_congr eq_comm)
  unfold appliesTo
  dsimp only
  by_cases applies : d.appliesToNamespace namespace_ = true ∧ ¬d.IsSource sync namespace_
  · rw [if_pos ⟨applies.1, distinct.mpr applies.2⟩]
    constructor
    · intro same
      exact ⟨applies.1, applies.2, (Option.some.inj same).symm⟩
    · intro found
      exact congrArg some found.2.2.symm
  · rw [if_neg fun both => applies ⟨both.1, distinct.mp both.2⟩]
    constructor
    · intro absent
      cases absent
    · intro found
      exact absurd ⟨found.1, found.2.1⟩ applies

/-- An entry applies to every namespace that it selects. -/
theorem Destination.appliesToNamespace_of_selected {d : Destination} {cache : List Namespace}
    {ns : Namespace} (member : ns ∈ d.selected cache) : d.appliesToNamespace ns.name = true := by
  unfold selected at member
  unfold appliesToNamespace
  by_cases all : d.appliesToAllNamespaces = true
  · rw [all, Bool.or_true]
  · rw [if_neg all] at member
    have named := List.find?_some (Option.mem_toList.mp member)
    have same : ns.name = d.namespace_ := eq_of_beq named
    rw [same, beq_self_eq_true, Bool.true_or]

namespace ResourceControllerImpl

section Expand

variable {sync : ObjectSync} {cache : List Namespace} {d : Destination} {ns : Namespace}
  {target : String × String × Option SyncStrategy}

/-- What a selected namespace contributes does not depend on how it was selected. -/
theorem contributes_iff (selected : ns ∈ d.selected cache) :
    (∃ pair, d.appliesTo sync ns.name = some pair ∧ (pair.1, pair.2, d.strategy) = target) ↔
      ¬d.IsSource sync ns.name ∧ target = (ns.name, d.name.getD sync.sourceName, d.strategy) := by
  have admits := d.appliesToNamespace_of_selected selected
  constructor
  · intro found
    obtain ⟨pair, applies, same⟩ := found
    have spec := Destination.appliesTo_eq_some_iff.mp applies
    rw [← same, spec.2.2]
    exact ⟨spec.2.1, rfl⟩
  · intro found
    exact ⟨_, Destination.appliesTo_eq_some_iff.mpr ⟨admits, found.1, rfl⟩, found.2.symm⟩

/-- An entry for all namespaces expands to the live ones. -/
theorem mem_expand_all (all : d.appliesToAllNamespaces = true) :
    target ∈ expand sync cache d ↔ ∃ ns ∈ d.selected cache, ns.deletionTimestamp = none ∧
      ¬d.IsSource sync ns.name ∧
      target = (ns.name, d.name.getD sync.sourceName, d.strategy) := by
  have every : d.selected cache = cache := if_pos all
  unfold expand
  rw [if_pos all, List.mem_filterMap]
  constructor
  · intro found
    obtain ⟨ns, member, expands⟩ := found
    have selected : ns ∈ d.selected cache := by
      rw [every]
      exact member
    by_cases live : ns.deletionTimestamp.isNone = true
    · rw [if_pos live] at expands
      have rest := (contributes_iff selected).mp (Option.map_eq_some_iff.mp expands)
      exact ⟨ns, selected, Option.isNone_iff_eq_none.mp live, rest⟩
    · rw [if_neg live] at expands
      cases expands
  · intro found
    obtain ⟨ns, listed, live, rest⟩ := found
    have selected := listed
    rw [every] at selected
    refine ⟨ns, selected, ?_⟩
    rw [if_pos (Option.isNone_iff_eq_none.mpr live)]
    exact Option.map_eq_some_iff.mpr ((contributes_iff listed).mpr rest)

/-- An entry for one namespace expands to that, if it is live. -/
theorem mem_expand_one (all : ¬d.appliesToAllNamespaces = true) :
    target ∈ expand sync cache d ↔ ∃ ns ∈ d.selected cache, ns.deletionTimestamp = none ∧
      ¬d.IsSource sync ns.name ∧
      target = (ns.name, d.name.getD sync.sourceName, d.strategy) := by
  have one : d.selected cache = (cache.find? fun ns => ns.name == d.namespace_).toList :=
    if_neg all
  unfold expand
  rw [if_neg all]
  cases cached : cache.find? fun ns => ns.name == d.namespace_ with
  | none =>
    rw [cached] at one
    constructor
    · intro found
      split at found <;> cases found
    · intro found
      obtain ⟨ns, selected, -⟩ := found
      rw [one] at selected
      cases selected
  | some ns =>
    rw [cached] at one
    have selected : ns ∈ d.selected cache := by
      rw [one]
      exact List.mem_singleton.mpr rfl
    have matched := List.find?_some cached
    have named : ns.name = d.namespace_ := eq_of_beq matched
    have rest := @contributes_iff sync _ _ _ target selected
    rw [named] at rest
    constructor
    · intro found
      cases applies : d.appliesTo sync d.namespace_ with
      | none =>
        rw [applies] at found
        cases found
      | some pair =>
        rw [applies] at found
        dsimp only at found
        by_cases live : ns.deletionTimestamp.isNone = true
        · rw [if_pos live] at found
          have same := List.mem_singleton.mp found
          have known := rest.mp ⟨pair, applies, same.symm⟩
          refine ⟨ns, selected, Option.isNone_iff_eq_none.mp live, ?_⟩
          rw [named]
          exact known
        · rw [if_neg live] at found
          cases found
    · intro found
      obtain ⟨ns', selected', live, known⟩ := found
      rw [one] at selected'
      obtain rfl := List.mem_singleton.mp selected'
      rw [named] at known
      obtain ⟨pair, applies, same⟩ := rest.mpr known
      rw [applies]
      dsimp only
      rw [if_pos (Option.isNone_iff_eq_none.mpr live)]
      exact List.mem_singleton.mpr same.symm

/-- An entry of the specification expands to the live namespaces that it selects. -/
theorem mem_expand :
    target ∈ expand sync cache d ↔ ∃ ns ∈ d.selected cache, ns.deletionTimestamp = none ∧
      ¬d.IsSource sync ns.name ∧
      target = (ns.name, d.name.getD sync.sourceName, d.strategy) := by
  by_cases all : d.appliesToAllNamespaces = true
  · exact mem_expand_all all
  · exact mem_expand_one all

end Expand

/-- The expected destinations are the live namespaces that the specification selects. -/
theorem mem_expectedDestinations {sync : ObjectSync} {cache : List Namespace}
    {target : String × String × Option SyncStrategy} :
    target ∈ expectedDestinations sync cache ↔
      ∃ d ∈ sync.spec.destinations, ∃ ns ∈ d.selected cache, ns.deletionTimestamp = none ∧
        ¬d.IsSource sync ns.name ∧
        target = (ns.name, d.name.getD sync.sourceName, d.strategy) := by
  unfold expectedDestinations
  rw [List.mem_flatMap]
  simp only [mem_expand]

/-- All expected destinations lie in some namespaces exactly when the specification selects no
other live namespace. -/
theorem expectedDestinations_within_iff {targets : List String} {sync : ObjectSync}
    {cache : List Namespace} :
    (∀ target ∈ expectedDestinations sync cache, target.1 ∈ targets) ↔
      SelectsWithin targets sync cache := by
  constructor
  · intro within d member ns selected live other
    exact within _ (mem_expectedDestinations.mpr ⟨d, member, ns, selected, live, other, rfl⟩)
  · intro within target expected
    obtain ⟨d, member, ns, selected, live, other, same⟩ := mem_expectedDestinations.mp expected
    rw [same]
    exact within d member ns selected live other

/-- A run writes destinations that are expected and releases recorded ones that are to be deleted.
-/
theorem wp_reconcileSource_within {self : ResourceControllerImpl} {event : ObjectSyncModifications}
    {source : DynamicObject} {cache : List Namespace} {targets : List String}
    (within : ∀ target ∈ expectedDestinations event.modified cache, target.1 ∈ targets) :
    (self.reconcileSource event source).wp (.requests (Responds cache)
      (WritesWithin targets event.modified.destinationList)) (fun _ _ => True) () := by
  unfold reconcileSource
  rw [wp_namespaces]
  intro _ _ cache' _ same
  have accurate : cache = cache' := same.symm
  subst accurate
  refine ⟨trivial, ?_⟩
  dsimp only
  have designates := fun d => @exists_target_of_mem_expected self
    (expectedDestinations event.modified cache) event.modified.destinationList d
  have recorded := fun d => @mem_recorded_of_mem_stale self
    (expectedDestinations event.modified cache) event.modified.destinationList d
  generalize self.splitDestinations (expectedDestinations event.modified cache)
    event.modified.destinationList = split at designates recorded ⊢
  obtain ⟨expected, stale⟩ := split
  dsimp only at designates recorded ⊢
  have status (event' : ObjectSyncModifications) (request : ApiRequest)
      (write : event'.StatusWrite request) :
      WritesWithin targets event.modified.destinationList (.api request) := by
    cases write <;> trivial
  rw [wp_bind]
  have deletes := @requests_deleteDestinations
    (WritesWithin targets event.modified.destinationList) stale fun d member request removal => by
      cases removal with
      | get => trivial
      | release patch => exact .inr ⟨d, recorded d member, rfl, rfl⟩
      | delete => trivial
  refine wp_imp (fun result _ sublist => ?_) (wp_responds deletes)
  cases result with
  | error e => trivial
  | ok staleRemnants =>
    dsimp only
    rw [wp_bind]
    refine wp_imp (fun value _ echoed => ?_)
      (wp_responds (ObjectSyncModifications.requests_replaceStatus _ (status _)))
    obtain ⟨event', result⟩ := value
    cases result with
    | error e => trivial
    | ok =>
      refine wp_responds (self.requests_syncDestinations event' source staleRemnants _ ?_ trivial
        fun other _ => status other)
      -- The entries tracked now are the expected ones and the remnants.
      intro d member current request upsert
      rw [ObjectSync.destinationList_eq_of_status echoed.1] at member
      have inside : (self.namespacedApi d.namespace_).namespace_ ∈ targets := by
        obtain ⟨target, wanted, designates⟩ := designates d (mem_of_not_isRemnant member current)
        have same : target.1 = d.namespace_ := congrArg (·.namespace_) designates
        show d.namespace_ ∈ targets
        rw [← same]
        exact within target wanted
      cases upsert with
      | get => trivial
      | release patch => exact .inl inside
      | create named => exact inside
      | replace body => exact inside
      | apply body => exact inside

/-- **Target namespaces.** Every destination that is expected, and every object that a run creates,
replaces or patches because of it, lies in the target namespaces, if and only if the specification
selects no other live namespace of the cache. -/
theorem targets_respected_iff (self : ResourceControllerImpl) (event : ObjectSyncModifications)
    (source : DynamicObject) (cache : List Namespace) (targets : List String) :
    self.configuration.targetNamespaces = some targets →
      (((∀ target ∈ expectedDestinations event.modified cache, target.1 ∈ targets) ∧
          ∀ call, (self.reconcileSource event source).Issues (fun _ _ => True)
            (fun _ call reply _ => Responds cache call reply) () call →
              WritesWithin targets event.modified.destinationList call) ↔
        SelectsWithin targets event.modified cache) := by
  intro _
  rw [← expectedDestinations_within_iff]
  constructor
  · intro respected
    exact respected.1
  · intro within
    refine ⟨within, fun call issued => ?_⟩
    exact allowed_of_issues (wp_reconcileSource_within within) issued

end ResourceControllerImpl

/-- A controller of config maps that may write its copies to one namespace. -/
def configMapsToTeam : ResourceControllerImpl :=
  { configMaps with configuration := ⟨none, none, some ["team"]⟩ }

/-- An ObjectSync that copies a config map to every namespace. -/
def settingsEverywhere : ObjectSync :=
  { settingsSync with spec := ⟨settingsSync.spec.source, [⟨none, "*", none⟩]⟩ }

/-- The specification that copies to every namespace stays within the target namespaces as long as
there is no other one. -/
theorem configMapsToTeam_respects_targets :
    configMapsToTeam.configuration.targetNamespaces = some ["team"] ∧
      SelectsWithin ["team"] settingsEverywhere settingsNamespaces ∧
      ∀ target ∈ ResourceControllerImpl.expectedDestinations settingsEverywhere settingsNamespaces,
        target.1 ∈ ["team"] := by
  have within : SelectsWithin ["team"] settingsEverywhere settingsNamespaces := by
    rw [← ResourceControllerImpl.expectedDestinations_within_iff]
    decide
  have respected := configMapsToTeam.targets_respected_iff (.new settingsEverywhere) settingsSource
    settingsNamespaces ["team"] rfl
  exact ⟨rfl, within, (respected.mpr within).1⟩

/-- With another namespace a copy is expected there, whatever the target namespaces are. -/
theorem configMapsToTeam_exceeds_targets :
    ¬∀ (self : ResourceControllerImpl) (sync : ObjectSync) (cache : List Namespace)
      (targets : List String), self.configuration.targetNamespaces = some targets →
        ∀ target ∈ ResourceControllerImpl.expectedDestinations sync cache,
          target.1 ∈ targets := by
  intro respected
  have expected : ("other", "settings", none) ∈ ResourceControllerImpl.expectedDestinations
      settingsEverywhere [⟨"team", none, none⟩, ⟨"other", none, none⟩] := by
    decide
  have inside := respected configMapsToTeam settingsEverywhere _ ["team"] rfl _ expected
  have outside : "other" ∉ ["team"] := by decide
  exact outside inside

end ObjectSyncer
