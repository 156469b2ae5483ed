import Mathlib.Data.List.Nodup

/-!
# Lists of keyed entries

A list in which no two entries have one key is a map that keeps an order. An entry that is put
takes the place of the one of its key and comes last.
-/
namespace Collections

namespace KeyedList

variable {α κ : Type} [DecidableEq κ] {key : α → κ}

/-- Put an entry at the end, in the place of those of its key. -/
def put (key : α → κ) (entries : List α) (entry : α) : List α :=
  (entries.filter fun other => key other != key entry) ++ [entry]

/-- An entry of a new key is put behind the others. -/
theorem put_of_absent {entries : List α} {entry : α}
    (absent : entries.find? (fun other => key other == key entry) = none) :
    put key entries entry = entries ++ [entry] := by
  have others : ∀ other ∈ entries, (key other != key entry) = true := by
    intro other member
    have different := List.find?_eq_none.mp absent other member
    simpa using different
  rw [put, List.filter_eq_self.mpr others]

/-- The entry that was put is the one of its key. -/
theorem find?_put (entries : List α) (entry : α) :
    (put key entries entry).find? (fun other => key other == key entry) = some entry := by
  have removed : (entries.filter fun other => key other != key entry).find?
      (fun other => key other == key entry) = none := by
    rw [List.find?_eq_none]
    intro other member
    have different := (List.mem_filter.mp member).2
    simpa using different
  rw [put, List.find?_append, removed, Option.none_or, List.find?_singleton, beq_self_eq_true,
    if_pos rfl]

/-- The entries of the other keys are found as before. -/
theorem find?_put_of_ne (entries : List α) {entry : α} {k : κ} (other : k ≠ key entry) :
    (put key entries entry).find? (fun found => key found == k) =
      entries.find? fun found => key found == k := by
  have missed : (key entry == k) = false := beq_eq_false_iff_ne.mpr other.symm
  have kept : (entries.filter fun found => key found != key entry).find?
      (fun found => key found == k) = entries.find? fun found => key found == k := by
    rw [List.find?_filter]
    congr 1
    funext found
    by_cases same : key found = k
    · simp [same, other]
    · simp [same]
  rw [put, List.find?_append, kept, List.find?_singleton, missed]
  simp

/-- Only the entry that was put is new. -/
theorem mem_put {entries : List α} {entry found : α} (member : found ∈ put key entries entry) :
    found ∈ entries ∨ found = entry := by
  rcases List.mem_append.mp member with former | new
  · exact .inl (List.mem_filter.mp former).1
  · exact .inr (List.mem_singleton.mp new)

/-- No two entries come to have one key. -/
theorem nodup_put {entries : List α} (distinct : (entries.map key).Nodup) (entry : α) :
    ((put key entries entry).map key).Nodup := by
  have others : ((entries.filter fun other => key other != key entry).map key).Nodup :=
    distinct.sublist (List.filter_sublist.map key)
  rw [put, List.map_append, List.map_singleton, List.nodup_append]
  refine ⟨others, List.nodup_singleton _, ?_⟩
  intro k listed k' new
  rw [List.mem_singleton.mp new]
  obtain ⟨other, member, rfl⟩ := List.mem_map.mp listed
  exact bne_iff_ne.mp (List.mem_filter.mp member).2

omit [DecidableEq κ] in
/-- The entry found by a test for a key is the one of that key. -/
theorem find?_test_eq_some_iff {entries : List α} (distinct : (entries.map key).Nodup) {k : κ}
    {test : α → Bool} (designates : ∀ entry, test entry = true ↔ key entry = k) {entry : α} :
    entries.find? test = some entry ↔ entry ∈ entries ∧ key entry = k := by
  constructor
  · intro found
    exact ⟨List.mem_of_find?_eq_some found, (designates entry).mp (List.find?_some found)⟩
  · rintro ⟨member, named⟩
    cases found : entries.find? test with
    | none =>
      have other := List.find?_eq_none.mp found entry member
      exact absurd ((designates entry).mpr named) other
    | some other =>
      have same : key other = k := (designates other).mp (List.find?_some found)
      rw [List.inj_on_of_nodup_map distinct (List.mem_of_find?_eq_some found) member
        (same.trans named.symm)]

/-- The entry found under a key is the one of that key. -/
theorem find?_eq_some_iff {entries : List α} (distinct : (entries.map key).Nodup) {k : κ}
    {entry : α} :
    entries.find? (fun other => key other == k) = some entry ↔ entry ∈ entries ∧ key entry = k :=
  find?_test_eq_some_iff distinct fun _ => beq_iff_eq

/-- The keys of a list are those under which an entry is found. -/
theorem mem_keys_iff {entries : List α} {k : κ} :
    k ∈ entries.map key ↔ (entries.find? fun other => key other == k).isSome := by
  rw [List.mem_map, List.find?_isSome]
  simp only [beq_iff_eq]

end KeyedList

end Collections
