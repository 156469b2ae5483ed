import Mathlib.Data.List.ModifyLast
import ObjectSyncer.TrackedEntries

/-!
# Fault isolation

What the requests for one destination are answered should decide about this destination alone. The
answers to a run of `delete_destinations` are recorded by destination, to compare what the run
returns with what each of them came to on its own.
-/
namespace ObjectSyncer

open Interaction Interaction.Program

/-- What the requests for one destination came to. -/
structure Handling where
  /-- It was read, or does not exist. -/
  read : Bool
  /-- The object that was read carries the finalizer. -/
  carried : Bool
  /-- The answer to the patch that takes the finalizer, if one was sent. -/
  released : Option Bool
  /-- The answer to the deletion, if it was asked for. -/
  deleted : Option Bool
  deriving DecidableEq, Repr

/-- All requests for a destination succeeded, or reported that it does not exist. -/
def Handling.succeeded (handling : Handling) : Bool :=
  handling.read && handling.released.getD true && handling.deleted == some true

/-- A request succeeds, or reports that the object does not exist. -/
def succeeds {α : Type} : Except KubeError α → Bool
  | .ok _ => true
  | .error e => e.isNotFound

section Recording

variable {destinations done todo : List DestinationStatus} {d : DestinationStatus}
  {handled : List Handling}

end Recording

/-- How many deletions were answered, and whether a destination that is to be deleted could not be
read. -/
structure Blocking where
  deletions : Nat
  blocked : Bool
  deriving DecidableEq, Repr

/-- What is known after the answer to a call, for a number of destinations to be deleted. -/
def Blocking.after (count : Nat) (before : Blocking) : (call : Call) → Reply call → Blocking
  | .api (.get _ _), reply =>
    { before with
      blocked := before.blocked || (!succeeds reply && decide (before.deletions < count)) }
  | .api (.delete _ _), _ => { before with deletions := before.deletions + 1 }
  | _, _ => before

section Blocked

variable {count : Nat} {cache : List Namespace} {now : Blocking} {d : DestinationStatus}

end Blocked

end ObjectSyncer
