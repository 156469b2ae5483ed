import ObjectSyncer.Collections.KeyedList
import ObjectSyncer.Server

/-!
# Destination expansion

The entries of a specification name namespaces or all of them, and the cache tells which namespaces
are live. What is expected follows from both, whichever branch of the expansion an entry takes.
-/
namespace ObjectSyncer

open Collections

/-- A namespace is in the cache and does not terminate. -/
def Live (cache : List Namespace) (namespace_ : String) : Prop :=
  ∃ ns ∈ cache, ns.name = namespace_ ∧ ns.deletionTimestamp = none

/-- A name is that of one namespace of the cache. -/
def DistinctNames (cache : List Namespace) : Prop := (cache.map (·.name)).Nodup

/-- Whether the names of a cache are distinct can be computed. -/
instance (cache : List Namespace) : Decidable (DistinctNames cache) :=
  inferInstanceAs (Decidable (List.Nodup _))

namespace Destination

/-- An entry names a namespace, or all of them. -/
def Covers (d : Destination) (namespace_ : String) : Prop :=
  d.namespace_ = namespace_ ∨ d.namespace_ = "" ∨ d.namespace_ = "*"

/-- The name of the copies of an entry. -/
def copyName (d : Destination) (sync : ObjectSync) : String := d.name.getD sync.spec.source.name

/-- The entries that list every live namespace in place of an entry. -/
def listing (d : Destination) (cache : List Namespace) : List Destination :=
  (cache.filter (·.deletionTimestamp.isNone)).map fun ns => { d with namespace_ := ns.name }

/-- A wildcard is the empty name or an asterisk. -/
theorem appliesToAllNamespaces_iff {d : Destination} :
    d.appliesToAllNamespaces = true ↔ d.namespace_ = "" ∨ d.namespace_ = "*" := by
  simp only [appliesToAllNamespaces, Bool.or_eq_true, beq_iff_eq]

/-- A wildcard covers every namespace. -/
theorem covers_of_wildcard {d : Destination} (wildcard : d.appliesToAllNamespaces = true)
    (namespace_ : String) : d.Covers namespace_ :=
  .inr (appliesToAllNamespaces_iff.mp wildcard)

/-- An entry applies to the namespaces it covers, but for the source itself. -/
theorem appliesTo_iff {d : Destination} {sync : ObjectSync} {namespace_ : String}
    {target : String × String} :
    d.appliesTo sync namespace_ = some target ↔ d.Covers namespace_ ∧
      target = (namespace_, d.copyName sync) ∧
        target ≠ (sync.sourceNamespace.getD "", sync.sourceName) := by
  have covers : d.appliesToNamespace namespace_ = true ↔ d.Covers namespace_ := by
    rw [appliesToNamespace, Bool.or_eq_true, beq_iff_eq, appliesToAllNamespaces_iff]
    exact Iff.rfl
  unfold appliesTo
  dsimp only
  constructor
  · intro applies
    split at applies
    · rename_i held
      obtain rfl := Option.some.inj applies
      refine ⟨covers.mp held.1, rfl, fun same => ?_⟩
      obtain ⟨namespaces, names⟩ := Prod.mk.inj same
      exact held.2.elim (fun other => other names.symm) fun other => other namespaces.symm
    · cases applies
  · rintro ⟨covered, rfl, other⟩
    refine if_pos ⟨covers.mpr covered, ?_⟩
    by_contra same
    rw [not_or, not_not, not_not] at same
    exact other (Prod.ext same.2.symm same.1.symm)

end Destination

namespace ResourceControllerImpl

section Expansion

variable {sync : ObjectSync} {cache : List Namespace} {d : Destination} {namespace_ name : String}
  {strategy : Option SyncStrategy}

/-- What one entry expands to. -/
theorem mem_expand_iff (distinct : DistinctNames cache) :
    (namespace_, name, strategy) ∈ expand sync cache d ↔ Live cache namespace_ ∧
      d.Covers namespace_ ∧ d.copyName sync = name ∧
        (namespace_, name) ≠ (sync.sourceNamespace.getD "", sync.sourceName) ∧
          d.strategy = strategy := by
  unfold expand
  split
  · -- A wildcard goes through the cache.
    rename_i wildcard
    rw [List.mem_filterMap]
    constructor
    · rintro ⟨ns, member, expanded⟩
      split at expanded
      · rename_i live
        obtain ⟨target, applies, same⟩ := Option.map_eq_some_iff.mp expanded
        obtain ⟨covered, rfl, other⟩ := Destination.appliesTo_iff.mp applies
        obtain ⟨rfl, rfl, rfl⟩ : ns.name = namespace_ ∧ d.copyName sync = name ∧
            d.strategy = strategy := by simpa using same
        exact ⟨⟨ns, member, rfl, Option.isNone_iff_eq_none.mp live⟩, covered, rfl, other, rfl⟩
      · cases expanded
    · rintro ⟨⟨ns, member, rfl, live⟩, covered, rfl, other, rfl⟩
      refine ⟨ns, member, ?_⟩
      rw [if_pos (Option.isNone_iff_eq_none.mpr live),
        Destination.appliesTo_iff.mpr ⟨covered, rfl, other⟩]
      rfl
  · -- Any other entry asks the cache for the namespace it names.
    rename_i named
    have only : d.Covers namespace_ ↔ d.namespace_ = namespace_ :=
      or_iff_left (mt Destination.appliesToAllNamespaces_iff.mpr named)
    rw [only]
    cases applies : d.appliesTo sync d.namespace_ with
    | none =>
      refine iff_of_false List.not_mem_nil ?_
      rintro ⟨-, rfl, rfl, other, -⟩
      rw [Destination.appliesTo_iff.mpr ⟨.inl rfl, rfl, other⟩] at applies
      cases applies
    | some target =>
      obtain ⟨-, rfl, other⟩ := Destination.appliesTo_iff.mp applies
      dsimp only
      cases found : cache.find? fun ns => ns.name == d.namespace_ with
      | none =>
        refine iff_of_false List.not_mem_nil ?_
        rintro ⟨⟨ns, member, named, -⟩, same, -⟩
        have there := (KeyedList.find?_eq_some_iff distinct).mpr ⟨member, named.trans same.symm⟩
        rw [found] at there
        cases there
      | some ns =>
        obtain ⟨member, named⟩ := (KeyedList.find?_eq_some_iff distinct).mp found
        dsimp only
        split
        · rename_i live
          rw [List.mem_singleton]
          constructor
          · intro same
            obtain ⟨rfl, rfl, rfl⟩ : namespace_ = d.namespace_ ∧ name = d.copyName sync ∧
                strategy = d.strategy := by simpa using same
            exact ⟨⟨ns, member, named, Option.isNone_iff_eq_none.mp live⟩, rfl, rfl, other, rfl⟩
          · rintro ⟨-, rfl, rfl, -, rfl⟩
            rfl
        · rename_i terminating
          refine iff_of_false List.not_mem_nil ?_
          rintro ⟨⟨ns', member', named', live⟩, same, -⟩
          have there := (KeyedList.find?_eq_some_iff distinct).mpr ⟨member', named'.trans same.symm⟩
          rw [found] at there
          rw [Option.some.inj there] at terminating
          exact terminating (Option.isNone_iff_eq_none.mpr live)

/-- **Destination expansion.** A copy is expected in a namespace under a name exactly when the
namespace is live, an entry covers it and gives the name, and it is not the source itself. A
wildcard expands to what an entry for every live namespace would, and nothing is expected in a
namespace that terminates. -/
theorem expectedDestinations_iff (distinct : DistinctNames cache) :
    (∀ namespace_ name,
      (∃ strategy, (namespace_, name, strategy) ∈ expectedDestinations sync cache) ↔
      Live cache namespace_ ∧ (∃ d ∈ sync.spec.destinations, d.Covers namespace_ ∧
        d.copyName sync = name) ∧
          (namespace_, name) ≠ (sync.sourceNamespace.getD "", sync.sourceName)) ∧
    (∀ d : Destination, d.appliesToAllNamespaces = true → ∀ target,
      target ∈ expand sync cache d ↔ target ∈ (d.listing cache).flatMap (expand sync cache)) ∧
    ∀ ns ∈ cache, ns.deletionTimestamp ≠ none → ∀ target ∈ expectedDestinations sync cache,
      target.1 ≠ ns.name := by
  refine ⟨fun namespace_ name => ?_, fun d wildcard target => ?_, fun ns member terminating => ?_⟩
  · simp only [expectedDestinations, List.mem_flatMap, mem_expand_iff distinct]
    constructor
    · rintro ⟨strategy, d, listed, live, covered, named, other, -⟩
      exact ⟨live, ⟨d, listed, covered, named⟩, other⟩
    · rintro ⟨live, ⟨d, listed, covered, named⟩, other⟩
      exact ⟨d.strategy, d, listed, live, covered, named, other, rfl⟩
  · obtain ⟨namespace_, name, strategy⟩ := target
    simp only [List.mem_flatMap, mem_expand_iff distinct]
    constructor
    · rintro ⟨live, -, named, other, same⟩
      obtain ⟨ns, member, called, alive⟩ := live
      refine ⟨{ d with namespace_ := ns.name }, List.mem_map_of_mem (List.mem_filter.mpr
        ⟨member, Option.isNone_iff_eq_none.mpr alive⟩), ⟨ns, member, called, alive⟩, .inl called,
          named, other, same⟩
    · rintro ⟨entry, listed, live, -, named, other, same⟩
      obtain ⟨ns, -, rfl⟩ := List.mem_map.mp listed
      exact ⟨live, Destination.covers_of_wildcard wildcard namespace_, named, other, same⟩
  · rintro ⟨namespace_, name, strategy⟩ expected rfl
    obtain ⟨d, -, expanded⟩ := List.mem_flatMap.mp expected
    obtain ⟨⟨other, member', named, live⟩, -⟩ := (mem_expand_iff distinct).mp expanded
    rw [List.inj_on_of_nodup_map distinct member' member named] at live
    exact terminating live

/-- An ObjectSync with a wildcard. -/
def wildcardSync : ObjectSync :=
  { settingsSync with spec := ⟨settingsSync.spec.source, [⟨none, "*", none⟩]⟩ }

/-- A wildcard expands to the live namespace `team`. -/
theorem wildcardSync_expands :
    ∃ strategy, ("team", "settings", strategy) ∈
      expectedDestinations wildcardSync [⟨"team", none, none⟩, ⟨"old", none, some 1⟩] :=
  ((expectedDestinations_iff (by decide)).1 "team" "settings").mpr
    ⟨⟨⟨"team", none, none⟩, by decide, rfl, rfl⟩,
      ⟨⟨none, "*", none⟩, by decide, .inr (.inr rfl), rfl⟩, by decide⟩

end Expansion

end ResourceControllerImpl

end ObjectSyncer
