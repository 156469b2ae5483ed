import Mathlib.Data.Finset.Insert
import Mathlib.Data.Finset.Erase

/-!
# Fields with owners

An object as a partial map of fields, each with a value and the managers that own it. An object is
created or updated by one manager as a whole, or a manager applies a configuration to it: the
configuration is taken over by force, and a field that it omits is deleted when nobody else owns it.
What becomes of an object that is created once and then applied to again and again is characterised
by the configurations alone.
-/
namespace Collections

variable {κ ν μ : Type}

/-- A configuration: the values of some fields. -/
abbrev Configured (κ ν : Type) := κ → Option ν

/-- The fields of an object with their owners. -/
abbrev Managed (κ ν μ : Type) := κ → Option (ν × Finset μ)

namespace Managed

/-- The values of the fields. -/
def values (fields : Managed κ ν μ) : Configured κ ν := fun key => (fields key).map (·.1)

/-- A manager is the only owner of a field. -/
def SoleOwner (fields : Managed κ ν μ) (manager : μ) (key : κ) : Prop :=
  ∃ value, fields key = some (value, {manager})

/-- An object that a manager has created. -/
def created (manager : μ) (body : Configured κ ν) : Managed κ ν μ :=
  fun key => (body key).map fun value => (value, {manager})

variable [DecidableEq ν] [DecidableEq μ]

/-- An object after a manager has updated it as a whole: it owns what it has changed. -/
def updated (fields : Managed κ ν μ) (manager : μ) (body : Configured κ ν) : Managed κ ν μ :=
  fun key =>
    match body key, fields key with
    | none, _ => none
    | some value, none => some (value, {manager})
    | some value, some (former, owners) =>
      some (value, if value = former then owners else {manager})

/-- An object after a manager has applied a configuration by force. -/
def applied (fields : Managed κ ν μ) (manager : μ) (body : Configured κ ν) : Managed κ ν μ :=
  fun key =>
    match body key, fields key with
    | none, none => none
    | none, some (former, owners) =>
      if owners = {manager} then none else some (former, owners.erase manager)
    | some value, none => some (value, {manager})
    | some value, some (former, owners) =>
      some (value, if value = former then insert manager owners else {manager})

variable {fields : Managed κ ν μ} {manager : μ} {body : Configured κ ν} {key : κ}

/-- A field that is omitted keeps its value exactly if somebody else owns it, or it is absent. -/
theorem values_applied_of_none (omitted : body key = none) :
    (fields.applied manager body).values key = fields.values key ↔
      ¬fields.SoleOwner manager key := by
  unfold values applied SoleOwner
  rw [omitted]
  cases found : fields key with
  | none => simp
  | some field =>
    obtain ⟨former, owners⟩ := field
    dsimp only
    by_cases sole : owners = {manager}
    · rw [if_pos sole, sole]
      simp
    · rw [if_neg sole]
      simp [sole]

/-- An empty configuration leaves all values exactly if it is the only owner of no field. -/
theorem values_applied_empty :
    (fields.applied manager fun _ => none).values = fields.values ↔
      ∀ key, ¬fields.SoleOwner manager key := by
  constructor
  · intro same key
    exact (values_applied_of_none rfl).mp (congrFun same key)
  · intro shared
    funext key
    exact (values_applied_of_none rfl).mpr (shared key)

/-- The last configuration: the first one, or the newest of those that were applied since. -/
def latest (first : Configured κ ν) (later : List (Configured κ ν)) : Configured κ ν :=
  later.head?.getD first

/-- A field of the first configuration that no later one gives another value. -/
def Unrevised (first : Configured κ ν) (later : List (Configured κ ν)) (key : κ) (value : ν) :
    Prop :=
  first key = some value ∧ ∀ body ∈ later, body key = none ∨ body key = some value

omit [DecidableEq ν] [DecidableEq μ] in
/-- A further configuration may revise a field. -/
theorem unrevised_cons {first : Configured κ ν} {later : List (Configured κ ν)} {value : ν} :
    Unrevised first (body :: later) key value ↔
      Unrevised first later key value ∧ (body key = none ∨ body key = some value) := by
  unfold Unrevised
  rw [List.forall_mem_cons]
  tauto

omit [DecidableEq ν] [DecidableEq μ] in
/-- The last configuration omits a field that was never revised, or has its value. -/
theorem Unrevised.latest {first : Configured κ ν} {later : List (Configured κ ν)} {value : ν}
    (unrevised : Unrevised first later key value) :
    latest first later key = none ∨ latest first later key = some value := by
  cases later with
  | nil => exact .inr unrevised.1
  | cons body rest => exact unrevised.2 body List.mem_cons_self

/-- The fields of an object that `creator` has created with a first configuration, and to which
`applier` has applied all later ones: a field that was never revised still has its first value and
its creator as an owner, and all others are those of the last configuration, owned by the applier
alone. -/
structure Traces (creator applier : μ) (first : Configured κ ν) (later : List (Configured κ ν))
    (fields : Managed κ ν μ) : Prop where
  unrevised : ∀ key value, Unrevised first later key value →
    ∃ owners, fields key = some (value, owners) ∧ creator ∈ owners
  revised : ∀ key, (∀ value, ¬Unrevised first later key value) →
    fields key = (latest first later key).map fun value => (value, {applier})

variable {creator applier : μ} {first : Configured κ ν} {later : List (Configured κ ν)}

omit [DecidableEq ν] [DecidableEq μ] in
/-- A created object bears the traces of its creation. -/
theorem traces_created : Traces creator applier first [] (created creator first) := by
  constructor
  · intro key value unrevised
    refine ⟨{creator}, ?_, Finset.mem_singleton_self creator⟩
    rw [created, unrevised.1]
    rfl
  · intro key revised
    have absent : first key = none := by
      cases found : first key with
      | none => rfl
      | some value =>
        have unrevised : Unrevised first [] key value :=
          ⟨found, fun _ member => absurd member List.not_mem_nil⟩
        exact absurd unrevised (revised value)
    have none : latest first [] key = none := absent
    rw [created, absent, none]
    rfl

/-- Applying a further configuration adds it to the traces. -/
theorem Traces.applied (distinct : creator ≠ applier)
    (traces : Traces creator applier first later fields) (body : Configured κ ν) :
    Traces creator applier first (body :: later) (fields.applied applier body) := by
  constructor
  · intro key value unrevised
    obtain ⟨former, kept⟩ := unrevised_cons.mp unrevised
    obtain ⟨owners, found, owned⟩ := traces.unrevised key value former
    have shared : owners ≠ {applier} := by
      intro sole
      rw [sole] at owned
      exact distinct (Finset.mem_singleton.mp owned)
    unfold Managed.applied
    rw [found]
    rcases kept with omitted | same
    · rw [omitted]
      exact ⟨owners.erase applier, if_neg shared, Finset.mem_erase.mpr ⟨distinct, owned⟩⟩
    · rw [same]
      dsimp only
      rw [if_pos rfl]
      exact ⟨_, rfl, Finset.mem_insert_of_mem owned⟩
  · intro key revised
    show fields.applied applier body key = (body key).map _
    unfold Managed.applied
    by_cases former : ∃ value, Unrevised first later key value
    · obtain ⟨value, former⟩ := former
      obtain ⟨owners, found, -⟩ := traces.unrevised key value former
      have changed := revised value
      rw [unrevised_cons] at changed
      rw [found]
      cases configured : body key with
      | none => exact absurd ⟨former, .inl configured⟩ changed
      | some new =>
        have other : new ≠ value := by
          intro same
          rw [same] at configured
          exact changed ⟨former, .inr configured⟩
        dsimp only
        rw [if_neg other]
        rfl
    · have found := traces.revised key fun value unrevised => former ⟨value, unrevised⟩
      rw [found]
      cases body key <;> cases Managed.latest first later key <;> simp

omit [DecidableEq ν] [DecidableEq μ] in
/-- An object bears the same traces whether its last configuration counts once or twice. -/
theorem traces_repeated (same : body = Managed.latest first later) :
    Traces creator applier first (body :: later) fields ↔
      Traces creator applier first later fields := by
  have kept (key : κ) (value : ν) :
      Unrevised first (body :: later) key value ↔ Unrevised first later key value := by
    rw [unrevised_cons, same]
    exact ⟨And.left, fun unrevised => ⟨unrevised, unrevised.latest⟩⟩
  have last : Managed.latest first (body :: later) = Managed.latest first later := same
  constructor
  · intro traces
    refine ⟨fun key value unrevised => ?_, fun key revised => ?_⟩
    · exact traces.unrevised key value ((kept key value).mpr unrevised)
    · rw [← last]
      exact traces.revised key fun value unrevised => revised value ((kept key value).mp unrevised)
  · intro traces
    refine ⟨fun key value unrevised => ?_, fun key revised => ?_⟩
    · exact traces.unrevised key value ((kept key value).mp unrevised)
    · rw [last]
      exact traces.revised key fun value unrevised => revised value ((kept key value).mpr unrevised)

omit [DecidableEq ν] [DecidableEq μ] in
/-- The object has the values of the last configuration exactly if that omits no field of the first
one that was never revised. -/
theorem Traces.values_eq_iff (traces : Traces creator applier first later fields) :
    fields.values = Managed.latest first later ↔
      ∀ key value, Unrevised first later key value → Managed.latest first later key ≠ none := by
  constructor
  · intro same key value unrevised
    obtain ⟨owners, found, -⟩ := traces.unrevised key value unrevised
    rw [← same, values, found]
    exact Option.some_ne_none value
  · intro listed
    funext key
    by_cases former : ∃ value, Unrevised first later key value
    · obtain ⟨value, former⟩ := former
      obtain ⟨owners, found, -⟩ := traces.unrevised key value former
      rcases former.latest with omitted | same
      · exact absurd omitted (listed key value former)
      · rw [values, found, same]
        rfl
    · have found := traces.revised key fun value unrevised => former ⟨value, unrevised⟩
      rw [values, found, Option.map_map]
      exact Option.map_id'

end Managed

end Collections
