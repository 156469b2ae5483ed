import Mathlib.Data.Finset.Card

/-!
# Reference counts

A count for each key, kept by retaining and releasing it. Counts are exact when each of them is the
number of owners that refer to its key; then a key is released for the last time exactly when no
owner refers to it any more.
-/
namespace Collections

/-- The number of references to each key. -/
abbrev RefCounts (κ : Type) := κ → Nat

namespace RefCounts

variable {κ ω : Type} [DecidableEq κ] [DecidableEq ω]

/-- Count one more reference. -/
def retain (counts : RefCounts κ) (key : κ) : RefCounts κ :=
  Function.update counts key (counts key + 1)

/-- Count one reference less. -/
def release (counts : RefCounts κ) (key : κ) : RefCounts κ :=
  Function.update counts key (counts key - 1)

/-- Each count is the number of owners that refer to its key. -/
def Exact (counts : RefCounts κ) (refers : ω → Option κ) : Prop :=
  ∀ key, ∃ owners : Finset ω, (∀ owner, owner ∈ owners ↔ refers owner = some key) ∧
    counts key = owners.card

variable {counts : RefCounts κ} {refers : ω → Option κ} {owner : ω} {key : κ}

omit [DecidableEq κ] [DecidableEq ω] in
/-- Without references all counts are zero. -/
theorem exact_zero : Exact (fun _ : κ => 0) (fun _ : ω => none) :=
  fun _ => ⟨∅, by simp, rfl⟩

omit [DecidableEq κ] [DecidableEq ω] in
/-- A count is zero exactly when no owner refers to its key. -/
theorem Exact.eq_zero_iff (exact_ : Exact counts refers) :
    counts key = 0 ↔ ∀ owner, refers owner ≠ some key := by
  obtain ⟨owners, members, count⟩ := exact_ key
  rw [count, Finset.card_eq_zero, Finset.eq_empty_iff_forall_notMem]
  exact forall_congr' fun owner => not_congr (members owner)

omit [DecidableEq κ] [DecidableEq ω] in
/-- What is referred to has a positive count. -/
theorem Exact.pos (exact_ : Exact counts refers) (referred : refers owner = some key) :
    0 < counts key := by
  apply Nat.pos_of_ne_zero
  intro zero
  exact exact_.eq_zero_iff.mp zero owner referred

/-- An owner without reference takes one. -/
theorem Exact.retain (exact_ : Exact counts refers) (free : refers owner = none) (key : κ) :
    Exact (counts.retain key) (Function.update refers owner (some key)) := by
  intro other
  obtain ⟨owners, members, count⟩ := exact_ other
  have absent : owner ∉ owners := by
    rw [members, free]
    simp
  by_cases same : other = key
  · subst same
    refine ⟨insert owner owners, fun holder => ?_, ?_⟩
    · by_cases here : holder = owner
      · simp [here]
      · simp [here, members]
    · rw [Finset.card_insert_of_notMem absent, RefCounts.retain, Function.update_self, count]
  · refine ⟨owners, fun holder => ?_, ?_⟩
    · by_cases here : holder = owner
      · subst here
        simp [absent, Ne.symm same]
      · simp [here, members]
    · rw [RefCounts.retain, Function.update_of_ne same, count]

/-- An owner gives its reference up. -/
theorem Exact.release (exact_ : Exact counts refers) (referred : refers owner = some key) :
    Exact (counts.release key) (Function.update refers owner none) := by
  intro other
  obtain ⟨owners, members, count⟩ := exact_ other
  by_cases same : other = key
  · subst same
    have member : owner ∈ owners := (members owner).mpr referred
    refine ⟨owners.erase owner, fun holder => ?_, ?_⟩
    · by_cases here : holder = owner
      · simp [here]
      · simp [here, members]
    · rw [Finset.card_erase_of_mem member, RefCounts.release, Function.update_self, count]
  · have absent : owner ∉ owners := by
      rw [members, referred]
      simp [Ne.symm same]
    refine ⟨owners, fun holder => ?_, ?_⟩
    · by_cases here : holder = owner
      · subst here
        simp [absent]
      · simp [here, members]
    · rw [RefCounts.release, Function.update_of_ne same, count]

/-- A reference is handed from one owner to another. -/
theorem Exact.move (exact_ : Exact counts refers) {heir : ω} (referred : refers owner = some key)
    (free : refers heir = none) :
    Exact counts (Function.update (Function.update refers owner none) heir (some key)) := by
  have free' : Function.update refers owner none heir = none := by
    by_cases same : heir = owner
    · rw [same, Function.update_self]
    · rw [Function.update_of_ne same, free]
  have moved := (exact_.release referred).retain free' key
  have same : (counts.release key).retain key = counts := by
    have positive := exact_.pos referred
    unfold RefCounts.release RefCounts.retain
    rw [Function.update_self, Function.update_idem, Nat.sub_add_cancel positive,
      Function.update_eq_self]
  rwa [same] at moved

end RefCounts

end Collections
