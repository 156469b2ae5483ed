import Mathlib.Data.List.Basic
import Mathlib.Data.String.Basic

/-!
# Splitting a string at a character

What splitting a string at a separator of one character gives, by way of its characters, and that
two strings joined by the separator come apart again when the first one does not contain it.
-/
namespace Collections

open String

/-- The loop of splitting: `front` was split off before, `part` is the part that was begun. -/
theorem splitOnAux_of_valid (sep : Char) (front part rest : List Char) (parts : List String) :
    splitOnAux (ofList (front ++ part ++ rest)) (singleton sep) ⟨utf8Len front⟩
        ⟨utf8Len front + utf8Len part⟩ 0 parts =
      parts.reverse ++ (List.splitOnPPrepend (· == sep) rest part.reverse).map ofList := by
  have first : Pos.Raw.get (singleton sep) 0 = sep := by
    simpa using get_of_valid [] [sep]
  have next : Pos.Raw.next (singleton sep) 0 = ⟨sep.utf8Size⟩ := by
    simpa using next_of_valid [] sep []
  have atEnd : Pos.Raw.atEnd (singleton sep) ⟨sep.utf8Size⟩ := by
    have ended := (atEnd_of_valid [sep] []).mpr rfl
    simpa [-atEnd_iff] using ended
  unfold splitOnAux
  cases rest with
  | nil =>
    have ended : Pos.Raw.atEnd (ofList (front ++ part ++ [])) ⟨utf8Len front + utf8Len part⟩ := by
      have ended := (atEnd_of_valid (front ++ part) []).mpr rfl
      simpa [-atEnd_iff, -ofList_append] using ended
    have last := extract_of_valid front part []
    rw [if_pos ended]
    simpa [-ofList_append] using last
  | cons c rest =>
    have running : ¬Pos.Raw.atEnd (ofList (front ++ part ++ c :: rest))
        ⟨utf8Len front + utf8Len part⟩ := by
      have running := mt (atEnd_of_valid (front ++ part) (c :: rest)).mp (List.cons_ne_nil c rest)
      simpa [-atEnd_iff, -ofList_append] using running
    have here : Pos.Raw.get (ofList (front ++ part ++ c :: rest))
        ⟨utf8Len front + utf8Len part⟩ = c := by
      simpa [-ofList_append] using get_of_valid (front ++ part) (c :: rest)
    have after : Pos.Raw.next (ofList (front ++ part ++ c :: rest))
        ⟨utf8Len front + utf8Len part⟩ = ⟨utf8Len front + utf8Len part + c.utf8Size⟩ := by
      simpa [-ofList_append] using next_of_valid (front ++ part) c rest
    have found := extract_of_valid front part (c :: rest)
    rw [if_neg running]
    dsimp only
    rw [here, after, first, next, if_pos atEnd]
    by_cases same : c = sep
    · subst same
      have back : Pos.Raw.unoffsetBy ⟨utf8Len front + utf8Len part + c.utf8Size⟩ ⟨c.utf8Size⟩ =
          ⟨utf8Len front + utf8Len part⟩ := by simp [Pos.Raw.unoffsetBy]
      have later := splitOnAux_of_valid c (front ++ part ++ [c]) [] rest (ofList part :: parts)
      rw [if_pos (beq_self_eq_true c), back, found]
      simpa [-ofList_append, List.splitOnPPrepend_cons_eq_if, Nat.add_assoc] using later
    · have still : Pos.Raw.unoffsetBy ⟨utf8Len front + utf8Len part⟩ 0 =
          ⟨utf8Len front + utf8Len part⟩ := by simp [Pos.Raw.unoffsetBy]
      have later := splitOnAux_of_valid sep front (part ++ [c]) rest parts
      rw [if_neg (by simpa using same), still, after]
      simpa [-ofList_append, List.splitOnPPrepend_cons_eq_if, same, Nat.add_assoc] using later
termination_by rest.length

/-- A string is split as its characters are. -/
theorem splitOn_singleton (text : String) (sep : Char) :
    text.splitOn (singleton sep) = (text.toList.splitOn sep).map ofList := by
  have split := splitOnAux_of_valid sep [] [] text.toList []
  have present : (singleton sep == "") = false := by simp
  rw [splitOn, present]
  simpa [List.splitOn_eq_splitOnP] using split

/-- What is split and joined again is as it was. -/
theorem intercalate_splitOn (text : String) (sep : Char) :
    intercalate (singleton sep) (text.splitOn (singleton sep)) = text := by
  apply String.toList_inj.mp
  rw [splitOn_singleton, toList_intercalate, List.map_map]
  have parts : (toList ∘ ofList : List Char → List Char) = id := funext fun _ => toList_ofList
  rw [parts, List.map_id, toList_singleton]
  exact List.intercalate_splitOn sep

/-- What is joined and split again is as it was, when no part has the separator. -/
theorem splitOn_intercalate {parts : List String} {sep : Char}
    (absent : ∀ part ∈ parts, sep ∉ part.toList) (some_ : parts ≠ []) :
    (intercalate (singleton sep) parts).splitOn (singleton sep) = parts := by
  have lists : List.splitOn sep ([sep].intercalate (parts.map toList)) = parts.map toList := by
    apply List.splitOn_intercalate
    · intro characters member
      obtain ⟨part, listed, rfl⟩ := List.mem_map.mp member
      exact absent part listed
    · simpa using some_
  rw [splitOn_singleton, toList_intercalate, toList_singleton, lists, List.map_map]
  have parts_ : (ofList ∘ toList : String → String) = id := funext fun _ => ofList_toList
  rw [parts_, List.map_id]

/-- Two strings that were joined come apart when the separator is not in the first one. -/
theorem splitOn_append {front : String} (back : String) {sep : Char} (absent : sep ∉ front.toList) :
    (front ++ singleton sep ++ back).splitOn (singleton sep) =
      front :: back.splitOn (singleton sep) := by
  have characters :
      (front ++ singleton sep ++ back).toList = front.toList ++ sep :: back.toList := by
    simp
  rw [splitOn_singleton, characters, List.splitOn_append_cons_self_of_not_mem absent,
    List.map_cons, ofList_toList, splitOn_singleton]

/-- What the predicate holds of is in no part of a list that is split at it. -/
theorem forall_of_mem_splitOnP {α : Type} (p : α → Bool) (xs : List α) :
    ∀ part ∈ xs.splitOnP p, ∀ x ∈ part, p x = false := by
  induction xs with
  | nil => simp [List.splitOnP_nil]
  | cons a rest ih =>
    intro part member x inside
    rw [List.splitOnP_cons_eq_if_modifyHead] at member
    by_cases here : p a = true
    · rw [if_pos here, List.mem_cons] at member
      rcases member with rfl | member
      · cases inside
      · exact ih part member x inside
    · rw [if_neg here] at member
      cases split : rest.splitOnP p with
      | nil => exact absurd split (List.splitOnP_ne_nil p rest)
      | cons first parts =>
        rw [split, List.modifyHead_cons, List.mem_cons] at member
        rw [split] at ih
        rcases member with rfl | member
        · rcases List.mem_cons.mp inside with rfl | inside
          · simpa using here
          · exact ih first List.mem_cons_self x inside
        · exact ih part (List.mem_cons_of_mem _ member) x inside

/-- The separator is in no part. -/
theorem not_mem_of_mem_splitOn {text part : String} {sep : Char}
    (member : part ∈ text.splitOn (singleton sep)) : sep ∉ part.toList := by
  rw [splitOn_singleton, List.splitOn_eq_splitOnP] at member
  obtain ⟨characters, listed, rfl⟩ := List.mem_map.mp member
  rw [toList_ofList]
  intro inside
  have other := forall_of_mem_splitOnP (· == sep) text.toList characters listed sep inside
  rw [beq_self_eq_true] at other
  cases other

end Collections
