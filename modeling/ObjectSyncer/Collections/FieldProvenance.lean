import ObjectSyncer.Collections.FieldOwnership

/-!
# Where the values of fields come from

Which fields an applier owns alone is a matter of how their present values came about: by its
configurations, or by updates of others. An object with owners is refined to its values and the set
of those that were applied, and both kinds of writes are followed on that.
-/
namespace Collections

variable {κ ν μ : Type}

/-- The values of fields, and which of them were applied. -/
structure Provenance (κ ν : Type) where
  /-- The values. -/
  values : Configured κ ν
  /-- A field has its value from a configuration that was applied. -/
  applied : κ → Bool
  /-- Only present fields have values. -/
  present : ∀ key, applied key = true → (values key).isSome

namespace Provenance

/-- The provenance of no fields. -/
def empty : Provenance κ ν := ⟨fun _ => none, fun _ => false, fun _ => nofun⟩

/-- The fields are there, and none was applied. -/
def ofValues (values : Configured κ ν) : Provenance κ ν := ⟨values, fun _ => false, fun _ => nofun⟩

variable [DecidableEq ν] (provenance : Provenance κ ν) (body : Configured κ ν)

/-- The fields are updated as a whole: what was applied and does not change still was. -/
def update : Provenance κ ν where
  values := body
  applied := fun key => provenance.applied key && decide (body key = provenance.values key)
  present := by
    intro key applied
    obtain ⟨former, same⟩ := Bool.and_eq_true_iff.mp applied
    rw [of_decide_eq_true same]
    exact provenance.present key former

/-- A configuration is applied: it deletes what was applied and it omits, and has applied all that
it changes. -/
def apply : Provenance κ ν where
  values := fun key =>
    (body key).or (if provenance.applied key then none else provenance.values key)
  applied := fun key =>
    (body key).isSome && (decide (body key ≠ provenance.values key) || provenance.applied key)
  present := by
    intro key applied
    obtain ⟨some, -⟩ := Bool.and_eq_true_iff.mp applied
    rw [Option.isSome_or, some]
    rfl

end Provenance

namespace Managed

variable {fields : Managed κ ν μ} {provenance : Provenance κ ν} {applier other : μ}
  {body : Configured κ ν} {key : κ}

/-- The values come from where the owners tell: the applier is the only owner of what was applied,
and everything else has another owner. -/
structure ComesFrom (applier : μ) (fields : Managed κ ν μ) (provenance : Provenance κ ν) :
    Prop where
  values : fields.values = provenance.values
  applied : ∀ key value owners, fields key = some (value, owners) →
    provenance.applied key = true → owners = {applier}
  shared : ∀ key value owners, fields key = some (value, owners) →
    provenance.applied key = false → ∃ owner ∈ owners, owner ≠ applier

/-- An absent object comes from nowhere. -/
theorem comesFrom_empty : ComesFrom applier (fun _ => none : Managed κ ν μ) .empty :=
  ⟨rfl, nofun, nofun⟩

/-- The applier is the only owner of exactly those fields that were applied. -/
theorem ComesFrom.soleOwner_iff (comes : fields.ComesFrom applier provenance) :
    fields.SoleOwner applier key ↔ provenance.applied key = true := by
  constructor
  · rintro ⟨value, found⟩
    by_contra unapplied
    obtain ⟨owner, owns, different⟩ :=
      comes.shared key value {applier} found (Bool.not_eq_true _ ▸ unapplied)
    exact different (Finset.mem_singleton.mp owns)
  · intro applied
    have present := provenance.present key applied
    rw [← comes.values, Managed.values, Option.isSome_map] at present
    obtain ⟨⟨value, owners⟩, found⟩ := Option.isSome_iff_exists.mp present
    rw [comes.applied key value owners found applied] at found
    exact ⟨value, found⟩

/-- The value of a field that is there. -/
theorem ComesFrom.values_eq (comes : fields.ComesFrom applier provenance) {value : ν}
    {owners : Finset μ} (found : fields key = some (value, owners)) :
    provenance.values key = some value := by
  rw [← comes.values, Managed.values, found]
  rfl

/-- A field that is not there has no value. -/
theorem ComesFrom.values_none (comes : fields.ComesFrom applier provenance)
    (missing : fields key = none) : provenance.values key = none := by
  rw [← comes.values, Managed.values, missing]
  rfl

variable [DecidableEq ν] [DecidableEq μ]

omit [DecidableEq μ] in
/-- Creating an object is updating an absent one. -/
theorem created_eq_updated :
    created other body = updated (fun _ => none : Managed κ ν μ) other body := by
  funext key
  unfold created updated
  cases body key <;> rfl

/-- Creating an object is applying to an absent one. -/
theorem created_eq_applied :
    created other body = applied (fun _ => none : Managed κ ν μ) other body := by
  funext key
  unfold created applied
  cases body key <;> rfl

omit [DecidableEq μ] in
/-- An update by somebody other than the applier is traced. -/
theorem ComesFrom.updated (comes : fields.ComesFrom applier provenance)
    (different : other ≠ applier) :
    (fields.updated other body).ComesFrom applier (provenance.update body) := by
  have written (key : κ) (value : ν) (owners : Finset μ)
      (found : fields.updated other body key = some (value, owners)) :
      body key = some value ∧
        (fields key = some (value, owners) ∨ owners = {other} ∧
          provenance.values key ≠ some value) := by
    unfold Managed.updated at found
    cases configured : body key with
    | none =>
      rw [configured] at found
      cases found
    | some new =>
      rw [configured] at found
      cases former : fields key with
      | none =>
        rw [former] at found
        obtain ⟨rfl, rfl⟩ := Prod.mk.inj (Option.some.inj found)
        refine ⟨rfl, .inr ⟨rfl, ?_⟩⟩
        rw [comes.values_none former]
        exact fun absent => nomatch absent
      | some field =>
        obtain ⟨old, owners'⟩ := field
        rw [former] at found
        obtain ⟨rfl, same⟩ := Prod.mk.inj (Option.some.inj found)
        by_cases unchanged : new = old
        · rw [if_pos unchanged] at same
          rw [unchanged, same]
          exact ⟨rfl, .inl rfl⟩
        · rw [if_neg unchanged] at same
          refine ⟨rfl, .inr ⟨same.symm, ?_⟩⟩
          rw [comes.values_eq former]
          exact fun equal => unchanged (Option.some.inj equal).symm
  constructor
  · funext key
    unfold Managed.values Managed.updated
    show _ = body key
    cases body key with
    | none => rfl
    | some value => cases fields key <;> rfl
  · intro key value owners found applied
    obtain ⟨configured, former | ⟨-, changed⟩⟩ := written key value owners found
    · exact comes.applied key value owners former (Bool.and_eq_true_iff.mp applied).1
    · have same := of_decide_eq_true (Bool.and_eq_true_iff.mp applied).2
      exact absurd (same.symm.trans configured) changed
  · intro key value owners found unapplied
    obtain ⟨configured, former | ⟨sole, -⟩⟩ := written key value owners found
    · refine comes.shared key value owners former ?_
      have same : body key = provenance.values key := configured.trans (comes.values_eq former).symm
      have both : (provenance.applied key && decide (body key = provenance.values key)) = false :=
        unapplied
      rw [decide_eq_true same, Bool.and_true] at both
      exact both
    · rw [sole]
      exact ⟨other, Finset.mem_singleton_self other, different⟩

/-- Applying a configuration gives its fields their values, and drops those that were applied
before. -/
theorem ComesFrom.values_apply (comes : fields.ComesFrom applier provenance) :
    (fields.applied applier body).values = (provenance.apply body).values := by
  funext key
  unfold Managed.values Managed.applied
  show _ = (body key).or (if provenance.applied key then none else provenance.values key)
  cases former : fields key with
  | none =>
    rw [comes.values_none former, ite_self, Option.or_none]
    cases body key <;> rfl
  | some field =>
    obtain ⟨value, owners⟩ := field
    rw [comes.values_eq former]
    cases body key with
    | some new => rfl
    | none =>
      dsimp only
      rw [Option.none_or]
      by_cases applied : provenance.applied key = true
      · rw [if_pos applied, if_pos (comes.applied key value owners former applied)]
        rfl
      · obtain ⟨owner, owns, different⟩ :=
          comes.shared key value owners former (Bool.not_eq_true _ ▸ applied)
        have shared : owners ≠ {applier} := by
          intro sole
          rw [sole] at owns
          exact different (Finset.mem_singleton.mp owns)
        rw [if_neg applied, if_neg shared]
        rfl

/-- The applier is the only owner of what a configuration applies. -/
theorem ComesFrom.applied_apply (comes : fields.ComesFrom applier provenance) {value : ν}
    {owners : Finset μ} (found : fields.applied applier body key = some (value, owners))
    (applied : (provenance.apply body).applied key = true) : owners = {applier} := by
  obtain ⟨configured, kind⟩ := Bool.and_eq_true_iff.mp applied
  obtain ⟨new, listed⟩ := Option.isSome_iff_exists.mp configured
  unfold Managed.applied at found
  rw [listed] at found
  cases former : fields key with
  | none =>
    rw [former] at found
    exact (Prod.mk.inj (Option.some.inj found)).2.symm
  | some field =>
    obtain ⟨old, owners'⟩ := field
    rw [former] at found
    have owned := (Prod.mk.inj (Option.some.inj found)).2
    by_cases same : new = old
    · rw [if_pos same] at owned
      rw [listed, comes.values_eq former, same] at kind
      have applied' : provenance.applied key = true := by simpa using kind
      rw [← owned, comes.applied key old owners' former applied']
      exact Finset.insert_eq_of_mem (Finset.mem_singleton_self applier)
    · rw [if_neg same] at owned
      exact owned.symm

/-- What a configuration does not apply keeps another owner. -/
theorem ComesFrom.shared_apply (comes : fields.ComesFrom applier provenance) {value : ν}
    {owners : Finset μ} (found : fields.applied applier body key = some (value, owners))
    (unapplied : (provenance.apply body).applied key = false) :
    ∃ owner ∈ owners, owner ≠ applier := by
  have unapplied : ((body key).isSome &&
    (decide (body key ≠ provenance.values key) || provenance.applied key)) = false := unapplied
  unfold Managed.applied at found
  cases former : fields key with
  | none =>
    rw [former] at found
    cases listed : body key with
    | none =>
      rw [listed] at found
      cases found
    | some new =>
      rw [listed, comes.values_none former] at unapplied
      simp at unapplied
  | some field =>
    obtain ⟨old, owners'⟩ := field
    rw [former] at found
    cases listed : body key with
    | none =>
      rw [listed] at found
      dsimp only at found
      split at found
      · cases found
      · obtain ⟨-, rfl⟩ := Prod.mk.inj (Option.some.inj found)
        rename_i several
        by_cases applied : provenance.applied key = true
        · exact absurd (comes.applied key old owners' former applied) several
        · obtain ⟨owner, owns, different⟩ :=
            comes.shared key old owners' former (Bool.not_eq_true _ ▸ applied)
          exact ⟨owner, Finset.mem_erase.mpr ⟨different, owns⟩, different⟩
    | some new =>
      rw [listed, comes.values_eq former] at unapplied
      rw [listed] at found
      have owned := (Prod.mk.inj (Option.some.inj found)).2
      by_cases same : new = old
      · rw [if_pos same] at owned
        rw [same] at unapplied
        have former' : provenance.applied key = false := by simpa using unapplied
        obtain ⟨owner, owns, different⟩ := comes.shared key old owners' former former'
        exact ⟨owner, owned ▸ Finset.mem_insert_of_mem owns, different⟩
      · simp [same] at unapplied

/-- A configuration that the applier applies. -/
theorem ComesFrom.apply (comes : fields.ComesFrom applier provenance) :
    (fields.applied applier body).ComesFrom applier (provenance.apply body) :=
  ⟨comes.values_apply, fun _ _ _ => comes.applied_apply, fun _ _ _ => comes.shared_apply⟩

/-- An empty configuration leaves all values exactly if none was applied. -/
theorem ComesFrom.values_applied_empty (comes : fields.ComesFrom applier provenance) :
    (fields.applied applier fun _ => none).values = fields.values ↔
      ∀ key, provenance.applied key = false := by
  rw [Managed.values_applied_empty]
  refine forall_congr' fun key => ?_
  rw [comes.soleOwner_iff, Bool.not_eq_true]

end Managed

end Collections
