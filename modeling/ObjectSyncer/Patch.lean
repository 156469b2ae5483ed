import ObjectSyncer.Apis

/-!
# JSON patches

The two places that send JSON patches compute them with `json_patch::diff`. It compares arrays
index by index and emits positional operations without tests; here that is done for the list of
finalizers, the only array that differs between the two sides of a patch of the controller. All
other paths of an ObjectSync are compared as whole fields.
-/
namespace ObjectSyncer

/-- One operation of a JSON patch below `/metadata/finalizers`. -/
inductive FinalizerOp where
  /-- Put a whole list at `/metadata/finalizers`. -/
  | add (finalizers : List String)
  /-- Remove `/metadata/finalizers`. -/
  | remove
  /-- Insert before an index. -/
  | addAt (index : Nat) (finalizer : String)
  /-- Remove at an index. -/
  | removeAt (index : Nat)
  /-- Replace at an index. -/
  | replaceAt (index : Nat) (finalizer : String)
  deriving DecidableEq, Repr

/-- The end of `diff_array` when the old list is used up: insert what is missing. -/
def insertFrom : (index : Nat) → List String → List FinalizerOp
  | _, [] => []
  | index, value :: right => .addAt index value :: insertFrom (index + 1) right

/-- `diff_array`: replace what differs, then remove the surplus or insert what is missing. -/
def diffArray : (index : Nat) → List String → List String → List FinalizerOp
  | index, [], right => insertFrom index right
  | index, _ :: left, [] => .removeAt index :: diffArray index left []
  | index, old :: left, new :: right =>
    if old = new then diffArray (index + 1) left right
    else .replaceAt index new :: diffArray (index + 1) left right

/-- The part of a patch at `/metadata/finalizers`; an absent list is serialized as no path. -/
def diffFinalizers : Option (List String) → Option (List String) → List FinalizerOp
  | none, none => []
  | none, some new => [.add new]
  | some _, none => [.remove]
  | some old, some new => diffArray 0 old new

/-- The effect of one operation, none when its path does not exist. -/
def FinalizerOp.apply : FinalizerOp → Option (List String) → Option (Option (List String))
  | .add new, _ => some (some new)
  | .remove, some _ => some none
  | .remove, none => none
  | .addAt index value, some list =>
    if index ≤ list.length then some (some (list.insertIdx index value)) else none
  | .removeAt index, some list =>
    if index < list.length then some (some (list.eraseIdx index)) else none
  | .replaceAt index value, some list =>
    if index < list.length then some (some (list.set index value)) else none
  | _, none => none

/-- Operations apply one after the other, and all of them or none. -/
def applyFinalizerOps : List FinalizerOp → Option (List String) → Option (Option (List String))
  | [], finalizers => some finalizers
  | op :: ops, finalizers => (op.apply finalizers).bind (applyFinalizerOps ops)

/-- Insertions append what is missing. -/
theorem applyFinalizerOps_insertFrom (front right : List String) :
    applyFinalizerOps (insertFrom front.length right) (some front) =
      some (some (front ++ right)) := by
  induction right generalizing front with
  | nil => simp [insertFrom, applyFinalizerOps]
  | cons new right ih =>
    have rest := ih (front ++ [new])
    simp only [List.length_append, List.length_singleton, List.append_assoc,
      List.singleton_append] at rest
    simp [insertFrom, applyFinalizerOps, FinalizerOp.apply, rest]

/-- Positional operations turn the list they were computed from into the wanted one, below a
prefix that both share. -/
theorem applyFinalizerOps_diffArray (front left right : List String) :
    applyFinalizerOps (diffArray front.length left right) (some (front ++ left)) =
      some (some (front ++ right)) := by
  induction left generalizing front right with
  | nil =>
    rw [List.append_nil]
    exact applyFinalizerOps_insertFrom front right
  | cons old left ih =>
    cases right with
    | nil =>
      have rest := ih front []
      have erased : (front ++ old :: left).eraseIdx front.length = front ++ left := by
        simp [List.eraseIdx_append_of_length_le]
      simp [diffArray, applyFinalizerOps, FinalizerOp.apply, erased, rest]
    | cons new right =>
      have rest := ih (front ++ [new]) right
      simp only [List.length_append, List.length_singleton, List.append_assoc,
        List.singleton_append] at rest
      by_cases same : old = new
      · subst same
        simp [diffArray, rest]
      · simp [diffArray, same, applyFinalizerOps, FinalizerOp.apply, rest]

/-- A patch of the finalizers applied to the list it was computed from gives the wanted list. -/
theorem applyFinalizerOps_diffFinalizers (old new : Option (List String)) :
    applyFinalizerOps (diffFinalizers old new) old = some new := by
  match old, new with
  | none, none => rfl
  | none, some new => rfl
  | some old, none => rfl
  | some old, some new => simpa [diffFinalizers] using applyFinalizerOps_diffArray [] old new

/-- The difference of two values of one field: what the right side has instead. -/
def diffField {α : Type} [DecidableEq α] (left right : α) : Option α :=
  if left = right then none else some right

/-- A JSON patch of an ObjectSync without its status. -/
structure ObjectSyncPatch where
  /-- Operations on the finalizers. -/
  finalizers : List FinalizerOp
  /-- A resource version that differs. -/
  resourceVersion : Option (Option String)
  /-- Any other metadata that differs, given as all metadata of the right side. -/
  metadata : Option ObjectMeta
  /-- A specification that differs. -/
  spec : Option ObjectSyncSpec
  deriving DecidableEq, Repr

/-- `json_patch::diff` of two ObjectSyncs without their status. -/
def ObjectSyncPatch.diff (left right : ObjectSync) : ObjectSyncPatch where
  finalizers := diffFinalizers left.metadata.finalizers right.metadata.finalizers
  resourceVersion := diffField left.metadata.resourceVersion right.metadata.resourceVersion
  metadata := diffField
    { left.metadata with
      finalizers := right.metadata.finalizers, resourceVersion := right.metadata.resourceVersion }
    right.metadata
  spec := diffField left.spec right.spec

/-- A patch without operations. -/
def ObjectSyncPatch.isEmpty (patch : ObjectSyncPatch) : Bool :=
  patch.finalizers.isEmpty && patch.resourceVersion.isNone && patch.metadata.isNone &&
    patch.spec.isNone

end ObjectSyncer
