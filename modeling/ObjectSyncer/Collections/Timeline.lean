import Mathlib.Data.List.Nodup

/-!
# Timelines of stamped values

The values that something has had, the latest one first. Every value carries a stamp, and a stamp is
used once, so it tells which value it is, and a value that was superseded never is the latest again.
-/
namespace Collections

/-- Values in the reverse order of their times, under stamps that are not used twice. -/
structure Timeline {α β : Type} (stamp : α → β) where
  values : List α
  distinct : (values.map stamp).Nodup

namespace Timeline

variable {α β : Type} {stamp : α → β}

/-- The value of the moment, unless there has been none. -/
def latest (timeline : Timeline stamp) : Option α := timeline.values.head?

/-- A timeline has the values it has passed through. -/
instance : Membership α (Timeline stamp) := ⟨fun timeline value => value ∈ timeline.values⟩

/-- Time passes: further values come in front. -/
def Precedes (before after : Timeline stamp) : Prop := before.values <:+ after.values

/-- What has been stays in the timeline. -/
theorem Precedes.mem {before after : Timeline stamp} {value : α} (precedes : before.Precedes after)
    (member : value ∈ before) : value ∈ after :=
  List.IsSuffix.subset precedes member

/-- The latest value is in the timeline. -/
theorem mem_of_latest {timeline : Timeline stamp} {value : α}
    (latest : timeline.latest = some value) : value ∈ timeline :=
  List.mem_of_mem_head? latest

/-- A stamp tells which value it is. -/
theorem eq_of_stamp {timeline : Timeline stamp} {left right : α} (first : left ∈ timeline)
    (second : right ∈ timeline) (same : stamp left = stamp right) : left = right :=
  List.inj_on_of_nodup_map timeline.distinct first second same

/-- The stamp of a value that was superseded is not that of a later value. -/
theorem stamp_ne_of_superseded {before after : Timeline stamp} {old newer current : α}
    (member : old ∈ before) (newest : before.latest = some newer) (other : stamp newer ≠ stamp old)
    (precedes : before.Precedes after) (now : after.latest = some current) :
    stamp current ≠ stamp old := by
  obtain ⟨front, same⟩ := precedes
  cases front with
  | nil =>
    have unchanged : before.values = after.values := same
    have latest : after.latest = some newer := by
      rw [← newest, Timeline.latest, Timeline.latest, unchanged]
    rw [Option.some.inj (now.symm.trans latest)]
    exact other
  | cons first front =>
    have values : after.values = first :: (front ++ before.values) := same.symm
    have latest : after.latest = some first := by
      rw [Timeline.latest, values]
      rfl
    have distinct : (stamp first :: (front ++ before.values).map stamp).Nodup := by
      have all := after.distinct
      rw [values] at all
      exact all
    have later : stamp old ∈ (front ++ before.values).map stamp :=
      List.mem_map_of_mem (List.mem_append_right _ member)
    rw [Option.some.inj (now.symm.trans latest)]
    intro reused
    rw [reused] at distinct
    exact (List.nodup_cons.mp distinct).1 later

end Timeline

end Collections
