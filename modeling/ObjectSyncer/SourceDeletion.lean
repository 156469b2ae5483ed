import ObjectSyncer.SourceRelease

/-!
# Releasing a deleted source

A run for a deleted source deletes the destinations of the ObjectSyncs that it fetched, and then
releases the source. What it knows of an ObjectSync is what the server has answered, so the calls of
a run are kept here together with their replies, the latest one first.
-/
namespace ObjectSyncer

open Interaction Interaction.Program

/-- A labelled call and its reply. -/
abbrev Exchange := (call : Option ObjectSyncRef × Call) × Reply call.2

/-- The destinations that an exchange has put into the status of an ObjectSync. -/
def Exchange.written (r : ObjectSyncRef) : Exchange → Option (List DestinationStatus)
  | ⟨(_, .api (.replaceSyncStatus name _)), .ok sync⟩ =>
    if name = r.name then some sync.destinationList else none
  | _ => none

/-- The server's answer to fetching an ObjectSync. -/
def Fetched (log : List Exchange) (r : ObjectSyncRef) (reply : Except KubeError ObjectSync) :
    Prop :=
  (⟨(none, .api (.getSync r.name)), reply⟩ : Exchange) ∈ log

/-- A destination was deleted, or turned out not to exist. -/
def Erased (log : List Exchange) (d : DestinationStatus) : Prop :=
  ∃ maker reply, deletionSettled reply = true ∧
    (⟨(maker, .api (.delete d.api d.name)), reply⟩ : Exchange) ∈ log

/-- The destinations in the persisted status of an ObjectSync. -/
def persistedDestinations (sync : ObjectSync) (r : ObjectSyncRef) (log : List Exchange) :
    List DestinationStatus :=
  (log.findSome? (Exchange.written r)).getD sync.destinationList

/-- The status of some ObjectSync was written with other destinations than none. -/
def Exchange.Lists (exchange : Exchange) : Prop :=
  ∃ r destinations, exchange.written r = some destinations ∧ destinations ≠ []

/-- What is added under one label; the status of that ObjectSync only is written. -/
structure Follows (r : ObjectSyncRef) (before after : List Exchange) : Prop where
  kept : before ⊆ after
  added : ∀ exchange ∈ after, exchange ∈ before ∨ exchange.1.1 = some r ∧
    ∀ other, (exchange.written other).isSome = true → other = r

namespace Follows

variable {r : ObjectSyncRef} {before middle after : List Exchange}

/-- A log follows itself. -/
theorem refl : Follows r before before := ⟨fun _ => id, fun _ => .inl⟩

/-- A log with one more exchange for the ObjectSync follows. -/
theorem cons {call : Call} {reply : Reply call} (follows : Follows r before middle)
    (own : ∀ other, (Exchange.written other ⟨(some r, call), reply⟩).isSome = true → other = r) :
    Follows r before (⟨(some r, call), reply⟩ :: middle) := by
  constructor
  · exact fun exchange member => List.mem_cons_of_mem _ (follows.kept member)
  · intro exchange member
    rcases List.mem_cons.mp member with same | earlier
    · rw [same]
      exact .inr ⟨rfl, own⟩
    · exact follows.added exchange earlier

/-- Exchanges are added one after the other. -/
theorem trans (first : Follows r before middle) (second : Follows r middle after) :
    Follows r before after := by
  constructor
  · exact fun exchange member => second.kept (first.kept member)
  · intro exchange member
    rcases second.added exchange member with earlier | added
    · exact first.added exchange earlier
    · exact .inr added

/-- What is not labelled is not added. -/
theorem unlabelled (follows : Follows r before after) {call : Call} {reply : Reply call}
    (member : (⟨(none, call), reply⟩ : Exchange) ∈ after) :
    (⟨(none, call), reply⟩ : Exchange) ∈ before := by
  rcases follows.added _ member with earlier | labelled
  · exact earlier
  · cases labelled.1

end Follows

/-- A longer log erases a destination that a shorter one has erased. -/
theorem Erased.mono {before after : List Exchange} {d : DestinationStatus}
    (deleted : Erased before d) (kept : before ⊆ after) : Erased after d := by
  obtain ⟨maker, reply, settled, member⟩ := deleted
  exact ⟨maker, reply, settled, kept member⟩

/-- An ObjectSync was withdrawn: its destinations are deleted, and unless there were none its status
was written. -/
structure WithdrawnBy (log : List Exchange) (r : ObjectSyncRef) (sync : ObjectSync) : Prop where
  deleted : ∀ d ∈ sync.destinationList, Erased log d
  persisted : sync.destinationList = [] ∨ ∃ exchange ∈ log, (exchange.written r).isSome = true

/-- A longer log withdraws an ObjectSync that a shorter one has withdrawn. -/
theorem WithdrawnBy.mono {before after : List Exchange} {r : ObjectSyncRef} {sync : ObjectSync}
    (withdrawn : WithdrawnBy before r sync) (kept : before ⊆ after) : WithdrawnBy after r sync := by
  constructor
  · exact fun d member => (withdrawn.deleted d member).mono kept
  · rcases withdrawn.persisted with nothing | ⟨exchange, member, written⟩
    · exact .inl nothing
    · exact .inr ⟨exchange, kept member, written⟩

section Withdrawal

variable {registered : List ObjectSyncRef} {current : ObjectSyncRef → Option ObjectSync}
  {r : ObjectSyncRef} {before log : List Exchange}

/-- What the deletion of destinations adds to the exchanges of a run, whatever its outcome. -/
structure Withdrawing (r : ObjectSyncRef) (before after : List Exchange) : Prop where
  follows : Follows r before after
  unlisted : ∀ exchange ∈ after, exchange ∈ before ∨ ¬exchange.Lists

/-- An exchange that writes no status is added. -/
theorem Withdrawing.cons {call : Call} {reply : Reply call}
    (withdrawing : Withdrawing r before log)
    (quiet : ∀ other, Exchange.written other ⟨(some r, call), reply⟩ = none) :
    Withdrawing r before (⟨(some r, call), reply⟩ :: log) := by
  constructor
  · refine withdrawing.follows.cons fun other written => ?_
    rw [quiet other] at written
    cases written
  · intro exchange member
    rcases List.mem_cons.mp member with same | earlier
    · right
      rintro ⟨other, destinations, written, -⟩
      rw [same, quiet other] at written
      cases written
    · exact withdrawing.unlisted exchange earlier

/-- A log withdraws an ObjectSync from itself. -/
theorem Withdrawing.refl : Withdrawing r log log := ⟨.refl, fun _ => .inl⟩

/-- Exchanges are added one after the other. -/
theorem Withdrawing.trans {after : List Exchange} (first : Withdrawing r before log)
    (second : Withdrawing r log after) : Withdrawing r before after := by
  constructor
  · exact first.follows.trans second.follows
  · intro exchange member
    rcases second.unlisted exchange member with earlier | unlisted
    · exact first.unlisted exchange earlier
    · exact .inr unlisted

/-- What the deletions for several ObjectSyncs add: exchanges under labels, and no status but those
of fetched ObjectSyncs. -/
structure Extends (before after : List Exchange) : Prop where
  kept : before ⊆ after
  added : ∀ exchange ∈ after, exchange ∈ before ∨ exchange.1.1 ≠ none ∧
    ∀ other, (exchange.written other).isSome = true → ∃ sync, Fetched before other (.ok sync)

/-- A log extends itself. -/
theorem Extends.refl : Extends log log := ⟨fun _ => id, fun _ => .inl⟩

/-- Exchanges for one fetched ObjectSync are added before those for others. -/
theorem Extends.after {middle after : List Exchange} {sync : ObjectSync}
    (fetched : Fetched before r (.ok sync)) (first : Follows r before middle)
    (second : Extends middle after) : Extends before after := by
  constructor
  · exact fun exchange member => second.kept (first.kept member)
  · intro exchange member
    rcases second.added exchange member with earlier | added
    · rcases first.added exchange earlier with earlier | added
      · exact .inl earlier
      · refine .inr ⟨?_, fun other written => ⟨sync, ?_⟩⟩
        · rw [added.1]
          exact Option.some_ne_none r
        · rw [added.2 other written]
          exact fetched
    · refine .inr ⟨added.1, fun other written => ?_⟩
      obtain ⟨sync, fetched'⟩ := added.2 other written
      exact ⟨sync, first.unlabelled fetched'⟩

end Withdrawal

/-! ## Releasing -/

namespace ResourceControllerImpl

/-- The run has asked for the release of the source. -/
def Releases (self : ResourceControllerImpl) (source : DynamicObject)
    (log : List Exchange) : Prop :=
  ∃ exchange ∈ log, exchange.1 = self.releaseCall source

/-- What holds of the exchanges of a run once all deletions have succeeded. -/
structure Settled (source : DynamicObject) (current : ObjectSyncRef → Option ObjectSync)
    (log : List Exchange) : Prop where
  known : ∀ r sync, Fetched log r (.ok sync) → current r = some sync
  written : ∀ exchange ∈ log, ∀ other, (exchange.written other).isSome = true →
    ∃ sync, Fetched log other (.ok sync)
  unlisted : ∀ exchange ∈ log, ¬exchange.Lists
  withdrawn : ∀ r sync, Fetched log r (.ok sync) → SourceRef.ofSync sync = .ofObject source →
    WithdrawnBy log r sync

section Settled

variable {self : ResourceControllerImpl} {source : DynamicObject} {registered : List ObjectSyncRef}
  {current : ObjectSyncRef → Option ObjectSync} {log : List Exchange}

/-- The persisted status of an ObjectSync is empty if it lists nothing or was written. -/
theorem Settled.persisted (settled : Settled source current log) {sync : ObjectSync}
    {r : ObjectSyncRef} (either : sync.destinationList = [] ∨
      ∃ exchange ∈ log, (exchange.written r).isSome = true) :
    persistedDestinations sync r log = [] := by
  unfold persistedDestinations
  cases last : log.findSome? (Exchange.written r) with
  | none =>
    rcases either with empty | written
    · exact empty
    · obtain ⟨exchange, member, written⟩ := written
      rw [List.findSome?_eq_none_iff.mp last exchange member] at written
      cases written
  | some destinations =>
    obtain ⟨exchange, member, written⟩ := List.exists_of_findSome?_eq_some last
    by_contra some_
    exact settled.unlisted exchange member ⟨r, destinations, written, some_⟩

/-- A call that neither fetches an ObjectSync nor writes a status changes nothing of this. -/
theorem Settled.cons (settled : Settled source current log) {call : Option ObjectSyncRef × Call}
    {reply : Reply call.2} (unfetched : ∀ name, call.2 ≠ .api (.getSync name))
    (quiet : ∀ other, Exchange.written other ⟨call, reply⟩ = none) :
    Settled source current (⟨call, reply⟩ :: log) := by
  have fetches (r : ObjectSyncRef) (sync : ObjectSync)
      (member : Fetched (⟨call, reply⟩ :: log) r (.ok sync)) : Fetched log r (.ok sync) := by
    rcases List.mem_cons.mp member with same | earlier
    · have equal : Call.api (.getSync r.name) = call.2 :=
        congrArg (fun exchange : Exchange => exchange.1.2) same
      exact absurd equal.symm (unfetched r.name)
    · exact earlier
  constructor
  · exact fun r sync fetched => settled.known r sync (fetches r sync fetched)
  · intro exchange member other written
    rcases List.mem_cons.mp member with same | earlier
    · rw [same, quiet other] at written
      cases written
    · obtain ⟨sync, fetched⟩ := settled.written exchange earlier other written
      exact ⟨sync, List.mem_cons_of_mem _ fetched⟩
  · intro exchange member
    rcases List.mem_cons.mp member with same | earlier
    · rintro ⟨other, destinations, written, -⟩
      rw [same, quiet other] at written
      cases written
    · exact settled.unlisted exchange earlier
  · intro r sync fetched references
    exact (settled.withdrawn r sync (fetches r sync fetched) references).mono
      fun _ => List.mem_cons_of_mem _

end Settled

end ResourceControllerImpl

end ObjectSyncer
