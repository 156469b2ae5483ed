import Mathlib.Data.List.AList

/-!
# Maps from keys to sets

A many-to-many relation stored as a map from each key to the set of its values. Adding a value
opens the set of its key when there is none, and removing the last value of a key closes it, so
no key is ever mapped to the empty set.
-/
namespace Collections

/-- A map from keys to sets of values, each set a list in some order. -/
abbrev SetMap (κ ν : Type) := AList fun _ : κ => List ν

namespace SetMap

variable {κ ν : Type} [DecidableEq κ] [DecidableEq ν]

/-- Put a value into the set of a key. -/
def add (map : SetMap κ ν) (key : κ) (value : ν) : SetMap κ ν :=
  match map.lookup key with
  | some values => map.insert key (values.insert value)
  | none => map.insert key [value]

/-- Take a value out of the set of a key, and the key out of the map with its last value. -/
def remove (map : SetMap κ ν) (key : κ) (value : ν) : SetMap κ ν :=
  match map.lookup key with
  | some values =>
    let values := values.filter (· ≠ value)
    if values.isEmpty then map.erase key else map.insert key values
  | none => map

/-- All values of all keys, one after the other. -/
def values (map : SetMap κ ν) : List ν := map.entries.flatMap (·.2)

/-- A value is in the set of a key. -/
def Holds (map : SetMap κ ν) (key : κ) (value : ν) : Prop :=
  ∃ values, map.lookup key = some values ∧ value ∈ values

/-- No key is mapped to the empty set. -/
def NonEmpty (map : SetMap κ ν) : Prop := ∀ key values, map.lookup key = some values → values ≠ []

/-- No set lists a value twice. -/
def Unique (map : SetMap κ ν) : Prop := ∀ key values, map.lookup key = some values → values.Nodup

/-- Whether a value is in the set of a key can be computed. -/
instance (map : SetMap κ ν) (key : κ) (value : ν) : Decidable (Holds map key value) :=
  decidable_of_iff ((map.lookup key).any (value ∈ ·)) (by simp [Holds, Option.any_eq_true])

omit [DecidableEq ν] in
/-- An empty map relates no key to a value. -/
@[simp] theorem not_holds_empty (key : κ) (value : ν) : ¬Holds (∅ : SetMap κ ν) key value := by
  rintro ⟨values, found, -⟩
  simp at found

omit [DecidableEq ν] in
/-- An empty map has no empty sets. -/
theorem nonEmpty_empty : NonEmpty (∅ : SetMap κ ν) := by
  intro key values found
  simp at found

/-- The map relates a key and a value once it was added, and what it related before. -/
theorem holds_add (map : SetMap κ ν) (key key' : κ) (value value' : ν) :
    (map.add key value).Holds key' value' ↔
      (key' = key ∧ value' = value) ∨ map.Holds key' value' := by
  by_cases same : key' = key
  · subst same
    cases found : map.lookup key' with
    | none => simp [Holds, add, found]
    | some values => simp [Holds, add, found]
  · cases found : map.lookup key with
    | none => simp [Holds, add, found, AList.lookup_insert_ne same, same]
    | some values => simp [Holds, add, found, AList.lookup_insert_ne same, same]

/-- The map relates everything it related before but the removed pair. -/
theorem holds_remove (map : SetMap κ ν) (key key' : κ) (value value' : ν) :
    (map.remove key value).Holds key' value' ↔
      map.Holds key' value' ∧ ¬(key' = key ∧ value' = value) := by
  by_cases same : key' = key
  · subst same
    cases found : map.lookup key' with
    | none => simp [Holds, remove, found]
    | some values =>
      by_cases empty : (values.filter (· ≠ value)).isEmpty
      · have gone : ∀ other ∈ values, other = value := by
          simpa [List.isEmpty_iff, List.filter_eq_nil_iff] using empty
        simp only [Holds, remove, found, empty, ↓reduceIte, AList.lookup_erase]
        simp only [reduceCtorEq, false_and, exists_false, Option.some.injEq, exists_eq_left',
          true_and, false_iff, not_and, not_not]
        exact gone value'
      · simp only [Holds, remove, found, empty, Bool.false_eq_true, ↓reduceIte,
          AList.lookup_insert]
        simp
  · cases found : map.lookup key with
    | none => simp [Holds, remove, found, same]
    | some values =>
      by_cases empty : (values.filter (· ≠ value)).isEmpty
      · simp only [Holds, remove, found, empty, ↓reduceIte, AList.lookup_erase_ne same]
        simp [same]
      · simp only [Holds, remove, found, empty, Bool.false_eq_true, ↓reduceIte,
          AList.lookup_insert_ne same]
        simp [same]

/-- Adding a value opens no empty set. -/
theorem nonEmpty_add {map : SetMap κ ν} (key : κ) (value : ν) (full : map.NonEmpty) :
    (map.add key value).NonEmpty := by
  intro key' values found
  by_cases same : key' = key
  · subst same
    have held : (map.add key' value).Holds key' value := (holds_add ..).mpr (.inl ⟨rfl, rfl⟩)
    obtain ⟨values', found', member⟩ := held
    rw [found, Option.some.injEq] at found'
    subst found'
    exact List.ne_nil_of_mem member
  · unfold add at found
    split at found <;> exact full key' values (by simpa [AList.lookup_insert_ne same] using found)

/-- Removing a value leaves no empty set. -/
theorem nonEmpty_remove {map : SetMap κ ν} (key : κ) (value : ν) (full : map.NonEmpty) :
    (map.remove key value).NonEmpty := by
  intro key' values found
  unfold remove at found
  dsimp only at found
  split at found
  · rename_i kept _
    by_cases same : key' = key
    · subst same
      split at found
      · simp at found
      · rename_i left
        rw [AList.lookup_insert, Option.some.injEq] at found
        subst found
        simpa [List.isEmpty_iff] using left
    · split at found
      · exact full key' values (by simpa [AList.lookup_erase_ne same] using found)
      · exact full key' values (by simpa [AList.lookup_insert_ne same] using found)
  · exact full key' values found

omit [DecidableEq ν] in
/-- An empty map lists no value twice. -/
theorem unique_empty : Unique (∅ : SetMap κ ν) := by
  intro key values found
  simp at found

/-- Adding a value lists it once. -/
theorem unique_add {map : SetMap κ ν} (key : κ) (value : ν) (unique : map.Unique) :
    (map.add key value).Unique := by
  intro key' values found
  unfold add at found
  by_cases same : key' = key
  · subst same
    split at found
    · rename_i former was
      rw [AList.lookup_insert, Option.some.injEq] at found
      rw [← found]
      exact (unique key' former was).insert
    · rw [AList.lookup_insert, Option.some.injEq] at found
      rw [← found]
      exact List.nodup_singleton value
  · split at found <;> exact unique key' values (by simpa [AList.lookup_insert_ne same] using found)

/-- Removing a value lists none twice. -/
theorem unique_remove {map : SetMap κ ν} (key : κ) (value : ν) (unique : map.Unique) :
    (map.remove key value).Unique := by
  intro key' values found
  unfold remove at found
  dsimp only at found
  split at found
  · rename_i former was
    by_cases same : key' = key
    · subst same
      split at found
      · simp at found
      · rw [AList.lookup_insert, Option.some.injEq] at found
        rw [← found]
        exact (unique key' former was).filter _
    · split at found
      · exact unique key' values (by simpa [AList.lookup_erase_ne same] using found)
      · exact unique key' values (by simpa [AList.lookup_insert_ne same] using found)
  · exact unique key' values found

omit [DecidableEq ν] in
/-- A value occurs in the map exactly when some key has it. -/
theorem mem_values (map : SetMap κ ν) (value : ν) :
    value ∈ map.values ↔ ∃ key, map.Holds key value := by
  simp only [values, List.mem_flatMap, Holds]
  constructor
  · rintro ⟨⟨key, values⟩, entry, member⟩
    exact ⟨key, values, AList.mem_lookup_iff.mpr entry, member⟩
  · rintro ⟨key, values, found, member⟩
    exact ⟨⟨key, values⟩, AList.mem_lookup_iff.mp found, member⟩

omit [DecidableEq ν] in
/-- Without empty sets, a key is in the map exactly when it has a value. -/
theorem mem_iff_holds {map : SetMap κ ν} (full : map.NonEmpty) (key : κ) :
    key ∈ map ↔ ∃ value, map.Holds key value := by
  rw [← AList.lookup_isSome, Option.isSome_iff_exists]
  constructor
  · rintro ⟨values, found⟩
    obtain ⟨value, member⟩ := List.exists_mem_of_ne_nil values (full key values found)
    exact ⟨value, values, found, member⟩
  · rintro ⟨value, values, found, -⟩
    exact ⟨values, found⟩

end SetMap

end Collections
