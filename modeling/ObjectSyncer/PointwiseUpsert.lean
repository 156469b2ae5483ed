import Mathlib.Algebra.BigOperators.Group.List.Basic
import Mathlib.Algebra.Ring.Nat
import ObjectSyncer.Interaction.Similarity
import ObjectSyncer.Requests

/-!
# Upserting is a pointwise map

One template and two accumulators go through the loop over the destinations, and the template is
changed by every attempt. Still, the requests for a destination and its final entry only depend on
the source, on its entry and on the answers to these requests, and the accumulators are the sums of
what each destination contributes.
-/
namespace ObjectSyncer

open Interaction Interaction.Program

namespace ResourceControllerImpl

/-- What becomes of one destination: its entry, whether it was written, and how often it was counted
as a success. -/
structure Outcome where
  entry : DestinationStatus
  written : Bool
  counted : Nat
  deriving DecidableEq, Repr

/-- The outcome for a destination that is skipped. -/
def Outcome.skipped (d : DestinationStatus) : Outcome := ⟨d, false, 0⟩

/-- The work for one destination, with nothing but its source and its entry. -/
def upsertAlone (self : ResourceControllerImpl) (source : DynamicObject) (d : DestinationStatus) :
    Async Outcome := do
  let (entry, state) ← upsertLoop (self.namespacedApi d.namespace_) source.metadata.revision 3 d
    ⟨fitTemplate (sourceTemplate source) d, false, 0⟩
  return ⟨entry, state.changed, state.observedSuccess⟩

/-- The work for one destination or remnant. -/
def upsertEntry (self : ResourceControllerImpl) (source : DynamicObject)
    (staleRemnants : List DestinationStatus) (d : DestinationStatus) : Async Outcome :=
  if isRemnant staleRemnants d then return .skipped d else self.upsertAlone source d

section Pointwise

variable {api : DynamicApi} {srcVersion : ObjectRevision} {d : DestinationStatus}
  {state state' : UpsertState}

/-- Two templates differ at most in their revisions. -/
def AlikeTemplates (left right : DynamicObject) : Prop :=
  withRevision left ⟨none, none⟩ = withRevision right ⟨none, none⟩

/-- Alike templates are equal once they have the same revision. -/
theorem AlikeTemplates.withRevision {left right : DynamicObject} (alike : AlikeTemplates left right)
    (revision : ObjectRevision) : withRevision left revision = withRevision right revision := by
  have same : ResourceControllerImpl.withRevision left ⟨none, none⟩ =
    ResourceControllerImpl.withRevision right ⟨none, none⟩ := alike
  have again := congrArg (ResourceControllerImpl.withRevision · revision) same
  exact again

/-- Fitting alike templates keeps them alike. -/
theorem AlikeTemplates.fitTemplate {left right : DynamicObject} (alike : AlikeTemplates left right)
    (d : DestinationStatus) : AlikeTemplates (fitTemplate left d) (fitTemplate right d) := by
  have same : ResourceControllerImpl.withRevision left ⟨none, none⟩ =
    ResourceControllerImpl.withRevision right ⟨none, none⟩ := alike
  have fitted := congrArg (ResourceControllerImpl.fitTemplate · d) same
  exact fitted

/-- A state further on in the loop than another one, by what was contributed before, both with a
template alike to a given one. -/
structure Ahead (base : DynamicObject) (written : Bool) (counted : Nat)
    (state state' : UpsertState) : Prop where
  left : AlikeTemplates state.template base
  right : AlikeTemplates state'.template base
  changed : state.changed = (written || state'.changed)
  observed : state.observedSuccess = counted + state'.observedSuccess

variable {base : DynamicObject} {written : Bool} {counted : Nat}

/-- Both templates are equal once they have the same revision. -/
theorem Ahead.withRevision (ahead : Ahead base written counted state state')
    (revision : ObjectRevision) :
    withRevision state.template revision = withRevision state'.template revision :=
  (ahead.left.withRevision revision).trans (ahead.right.withRevision revision).symm

/-- Putting a revision into both templates. -/
theorem Ahead.revised (ahead : Ahead base written counted state state')
    (revision : ObjectRevision) :
    Ahead base written counted
      { state with template := ResourceControllerImpl.withRevision state.template revision }
      { state' with template := ResourceControllerImpl.withRevision state'.template revision } :=
  ⟨ahead.left, ahead.right, ahead.changed, ahead.observed⟩

/-- Counting a destination that was written on both sides. -/
theorem Ahead.counts (ahead : Ahead base written counted state state') :
    Ahead base written counted
      { state with changed := true, observedSuccess := state.observedSuccess + 1 }
      { state' with changed := true, observedSuccess := state'.observedSuccess + 1 } :=
  ⟨ahead.left, ahead.right, (Bool.or_true _).symm, congrArg (· + 1) ahead.observed⟩

/-- Two attempts return the same entry and flow, with one state ahead of the other. -/
def AheadFlow (base : DynamicObject) (written : Bool) (counted : Nat)
    (left right : DestinationStatus × UpsertState × Flow) : Prop :=
  left.1 = right.1 ∧ Ahead base written counted left.2.1 right.2.1 ∧ left.2.2 = right.2.2

/-- Updating does not depend on the accumulators. -/
theorem similar_updateExisting (ahead : Ahead base written counted state state')
    (current : DynamicObject) :
    Program.Similar (AheadFlow base written counted) (updateExisting api srcVersion current d state)
      (updateExisting api srcVersion current d state') := by
  unfold updateExisting
  dsimp only
  have revised := ahead.revised current.metadata.revision
  split
  · rw [ahead.withRevision current.metadata.revision] at revised ⊢
    cases d.effectiveStrategy <;> refine .perform fun reply => ?_
    · cases reply with
      | ok updated => exact .done ⟨rfl, revised.counts, rfl⟩
      | error e =>
        dsimp only
        split <;> exact .done ⟨rfl, revised, rfl⟩
    · cases reply with
      | ok updated => exact .done ⟨rfl, revised.counts, rfl⟩
      | error e =>
        dsimp only
        split <;> exact .done ⟨rfl, revised, rfl⟩
  · exact .done ⟨rfl,
      ⟨ahead.left, ahead.right, ahead.changed, congrArg (· + 1) ahead.observed⟩, rfl⟩

/-- Creating does not depend on the accumulators. -/
theorem similar_createMissing (ahead : Ahead base written counted state state')
    (same : state.template = state'.template) :
    Program.Similar (AheadFlow base written counted) (createMissing api srcVersion d state)
      (createMissing api srcVersion d state') := by
  have counts := ahead.counts
  unfold createMissing
  rw [same] at counts ⊢
  refine .perform fun reply => ?_
  cases reply with
  | ok created => exact .done ⟨rfl, counts, rfl⟩
  | error e =>
    dsimp only
    split <;> exact .done ⟨rfl, ahead, rfl⟩

/-- An attempt does not depend on the accumulators. -/
theorem similar_upsertAttempt (ahead : Ahead base written counted state state') :
    Program.Similar (AheadFlow base written counted) (upsertAttempt api srcVersion d state)
      (upsertAttempt api srcVersion d state') := by
  unfold upsertAttempt
  dsimp only
  have reset := ahead.revised ⟨none, none⟩
  refine .perform fun reply => ?_
  cases reply with
  | ok current =>
    dsimp only
    split
    · refine (Program.Similar.refl (fun _ => rfl) (removeFinalizer api current finalizer)).bind ?_
      rintro value _ rfl
      split
      · exact .done ⟨rfl, reset, rfl⟩
      · exact similar_updateExisting reset _
    · exact similar_updateExisting reset current
  | error e =>
    dsimp only
    split
    · exact similar_createMissing reset (ahead.withRevision ⟨none, none⟩)
    · exact .done ⟨rfl, reset, rfl⟩

/-- All attempts together do not depend on the accumulators. -/
theorem similar_upsertLoop (attempts : Nat) (ahead : Ahead base written counted state state') :
    Program.Similar (fun left right => left.1 = right.1 ∧ Ahead base written counted left.2 right.2)
      (upsertLoop api srcVersion attempts d state)
      (upsertLoop api srcVersion attempts d state') := by
  induction attempts generalizing d state state' with
  | zero => exact .done ⟨rfl, ahead⟩
  | succ attempts ih =>
    rw [upsertLoop, upsertLoop]
    refine (similar_upsertAttempt ahead).bind ?_
    rintro ⟨d, state, flow⟩ ⟨d', state', flow'⟩ ⟨rfl, ahead, rfl⟩
    cases flow with
    | continue_ => exact ih ahead
    | break_ => exact .done ⟨rfl, ahead⟩

/-- The loop over the destinations is a map over them, up to what it starts from. -/
theorem similar_upsertEach (self : ResourceControllerImpl) (source : DynamicObject)
    (staleRemnants destinations : List DestinationStatus)
    (alike : ∀ d, AlikeTemplates (fitTemplate state.template d)
      (fitTemplate (sourceTemplate source) d)) :
    Program.Similar (fun left outcomes => left.1 = outcomes.map (·.entry) ∧
        left.2.changed = (state.changed || outcomes.any (·.written)) ∧
        left.2.observedSuccess = state.observedSuccess + (outcomes.map (·.counted)).sum)
      (self.upsertEach source.metadata.revision staleRemnants destinations state)
      (destinations.mapM (self.upsertEntry source staleRemnants)) := by
  induction destinations generalizing state with
  | nil => exact .done ⟨rfl, (Bool.or_false _).symm, rfl⟩
  | cons d rest ih =>
    rw [upsertEach, List.mapM_cons, upsertEntry]
    split
    · refine (ih alike).bind ?_
      rintro ⟨entries, after⟩ outcomes ⟨same, changed, observed⟩
      refine .done ⟨congrArg (d :: ·) same, ?_, ?_⟩
      · rw [changed]
        rfl
      · rw [observed]
        simp [Outcome.skipped]
    · unfold upsertAlone
      rw [bind_assoc]
      have ahead : Ahead (fitTemplate (sourceTemplate source) d) state.changed state.observedSuccess
          { state with template := fitTemplate state.template d }
          ⟨fitTemplate (sourceTemplate source) d, false, 0⟩ :=
        ⟨alike d, rfl, (Bool.or_false _).symm, rfl⟩
      refine (similar_upsertLoop 3 ahead).bind ?_
      rintro ⟨entry, after⟩ ⟨_, after'⟩ ⟨rfl, ahead⟩
      -- What an attempt leaves in the template is overwritten for the next destination.
      refine (ih fun other => ahead.left.fitTemplate other).bind ?_
      rintro ⟨entries, last⟩ outcomes ⟨same, changed, observed⟩
      refine .done ⟨congrArg (entry :: ·) same, ?_, ?_⟩
      · rw [changed]
        dsimp only
        rw [ahead.changed, Bool.or_assoc]
        rfl
      · rw [observed]
        dsimp only
        rw [ahead.observed, List.map_cons, List.sum_cons, Nat.add_assoc]

/-- Upserting is a map over the destinations, and the accounts are taken at the end. -/
theorem upsertDestinations_eq_mapM (self : ResourceControllerImpl) (source : DynamicObject)
    (destinations staleRemnants : List DestinationStatus) :
    self.upsertDestinations source destinations staleRemnants =
      destinations.mapM (self.upsertEntry source staleRemnants) >>= fun outcomes =>
        pure (outcomes.map (·.entry), outcomes.any (·.written),
          (destinations.filter fun d => !isRemnant staleRemnants d).length,
          (outcomes.map (·.counted)).sum) := by
  refine eq_of_similar ?_
  unfold upsertDestinations
  refine (@similar_upsertEach ⟨sourceTemplate source, false, 0⟩ self source
    staleRemnants destinations
    fun d => rfl).bind ?_
  rintro ⟨entries, state⟩ outcomes ⟨same, changed, observed⟩
  dsimp only at same changed observed
  refine .done ?_
  rw [same, changed, observed, Bool.false_or, Nat.zero_add]

end Pointwise

/-- What the answers to requests come to: how many objects were read, whether one was written, and
the revision that the server reported last. -/
structure Account where
  reads : Nat
  written : Bool
  reported : Option ObjectRevision
  deriving DecidableEq, Repr

/-- The account after an object was reported. -/
def Account.reports (account : Account) (object : DynamicObject) : Account :=
  { account with reported := some object.metadata.revision }

/-- The account after the answer to a call. -/
def Account.after (account : Account) : (call : Call) → Reply call → Account
  | .api (.get ..), .ok object => { account.reports object with reads := account.reads + 1 }
  | .api (.get ..), .error _ => { account with reads := account.reads + 1 }
  | .api (.create ..), .ok object | .api (.replace ..), .ok object | .api (.apply ..), .ok object =>
    { account.reports object with written := true }
  | .api (.jsonPatch ..), .ok object => account.reports object
  | _, _ => account

/-- Any call may be answered in any way, and the answers are taken into account. -/
@[reducible] def accounting : Contract Call Reply Account where
  rely := Eq
  answers := fun before call reply after => after = before.after call reply
  guarantee := fun _ _ _ _ => True

/-- What becomes of a destination, by what its requests were answered. -/
structure Settles (srcVersion : ObjectRevision) (d : DestinationStatus) (reads : Nat)
    (before after : Account) (outcome : Outcome) : Prop where
  /-- Reads are bounded. -/
  reads : after.reads ≤ before.reads + reads
  /-- It is written exactly when a create, a replace or an apply succeeds. -/
  written : after.written = (before.written || outcome.written)
  /-- It counts at most once. -/
  counted : outcome.counted ≤ 1
  /-- A success records the revision of the source and the one reported last. -/
  success : outcome.counted = 1 → after.reported.isSome = true ∧ outcome.entry =
    { d with sourceVersion := some srcVersion, syncedVersion := after.reported }
  /-- A failure writes nothing. -/
  failure : outcome.counted = 0 → outcome.entry = d ∧ outcome.written = false
  /-- An entry that is not written stays as it is. -/
  unwritten : outcome.written = false → outcome.entry = d

/-- An attempt ends with what becomes of the destination, or has changed nothing and goes on. -/
def AttemptSettles (srcVersion : ObjectRevision) (d : DestinationStatus) (before after : Account)
    (value : DestinationStatus × UpsertState × Flow) : Prop :=
  match value with
  | (entry, state, .break_) =>
    Settles srcVersion d 1 before after ⟨entry, state.changed, state.observedSuccess⟩
  | (entry, state, .continue_) => entry = d ∧ (∃ template, state = ⟨template, false, 0⟩) ∧
    after.written = before.written ∧ after.reads ≤ before.reads + 1

section Accounts

variable {api : DynamicApi} {srcVersion : ObjectRevision} {d : DestinationStatus}
  {template : DynamicObject} {before now after : Account}

/-- A destination whose object was written. -/
theorem settles_synced {object : DynamicObject} (reads : after.reads ≤ before.reads + 1)
    (written : after.written = true) (reported : after.reported = some object.metadata.revision) :
    Settles srcVersion d 1 before after ⟨synced d srcVersion object, true, 1⟩ :=
  ⟨reads, written.trans (Bool.or_true _).symm, Nat.le_refl 1,
    fun _ => ⟨reported ▸ rfl, reported ▸ rfl⟩, fun zero => absurd zero Nat.one_ne_zero,
    fun unwritten => Bool.noConfusion unwritten⟩

/-- A destination that is given up is settled with its entry unchanged. -/
theorem settles_failed (reads : after.reads ≤ before.reads + 1)
    (written : after.written = before.written) :
    Settles srcVersion d 1 before after ⟨d, false, 0⟩ :=
  ⟨reads, written.trans (Bool.or_false _).symm, Nat.zero_le 1,
    fun one => absurd one Nat.zero_ne_one, fun _ => ⟨rfl, rfl⟩, fun _ => rfl⟩

/-- Updating an object that was read settles an attempt with the account of its answers. -/
theorem wp_updateExisting_account {current : DynamicObject} (reads : now.reads ≤ before.reads + 1)
    (written : now.written = before.written)
    (reported : now.reported = some current.metadata.revision) :
    (updateExisting api srcVersion current d ⟨template, false, 0⟩).wp accounting
      (fun value after => AttemptSettles srcVersion d before after value) now := by
  unfold updateExisting
  dsimp only
  split
  · cases d.effectiveStrategy <;> dsimp only <;> rw [wp_api] <;> rintro _ rfl reply _ rfl
    all_goals
      refine ⟨trivial, ?_⟩
      cases reply with
      | ok updated => exact settles_synced reads rfl rfl
      | error e =>
        dsimp only
        split
        · exact ⟨rfl, ⟨_, rfl⟩, written, reads⟩
        · exact settles_failed reads written
  · rename_i upToDate
    rw [not_or, not_not, not_not] at upToDate
    refine ⟨reads, written.trans (Bool.or_false _).symm, Nat.le_refl 1,
      fun _ => ⟨reported ▸ rfl, ?_⟩, fun zero => absurd zero Nat.one_ne_zero, fun _ => rfl⟩
    rw [reported, upToDate.1, upToDate.2]

/-- Creating an object settles an attempt with the account of its answers. -/
theorem wp_createMissing_account (reads : now.reads ≤ before.reads + 1)
    (written : now.written = before.written) :
    (createMissing api srcVersion d ⟨template, false, 0⟩).wp accounting
      (fun value after => AttemptSettles srcVersion d before after value) now := by
  unfold createMissing
  rw [wp_api]
  rintro _ rfl reply _ rfl
  refine ⟨trivial, ?_⟩
  cases reply with
  | ok created => exact settles_synced reads rfl rfl
  | error e =>
    dsimp only
    split
    · exact ⟨rfl, ⟨_, rfl⟩, written, reads⟩
    · exact settles_failed reads written

/-- Removing the finalizer of what was read writes no destination, and reports the object when it
succeeds. -/
theorem wp_removeFinalizer_account {source : DynamicObject} :
    (removeFinalizer api source finalizer).wp accounting (fun value after =>
      value.1.metadata.revision = source.metadata.revision ∧ after.reads = now.reads ∧
        after.written = now.written ∧ (value.2 ≠ .ok true → after = now)) now := by
  unfold removeFinalizer
  dsimp only
  split
  · rw [wp_api]
    rintro _ rfl reply _ rfl
    refine ⟨trivial, ?_⟩
    cases reply with
    | ok object => exact ⟨rfl, rfl, rfl, fun other => absurd rfl other⟩
    | error e =>
      dsimp only
      split
      · exact ⟨rfl, rfl, rfl, fun other => absurd rfl other⟩
      · exact ⟨rfl, rfl, rfl, fun _ => rfl⟩
  · exact ⟨rfl, rfl, rfl, fun _ => rfl⟩

/-- An attempt is settled with the account of its answers. -/
theorem wp_upsertAttempt_account :
    (upsertAttempt api srcVersion d ⟨template, false, 0⟩).wp accounting
      (fun value after => AttemptSettles srcVersion d before after value) before := by
  unfold upsertAttempt
  rw [wp_api]
  rintro _ rfl reply _ rfl
  refine ⟨trivial, ?_⟩
  cases reply with
  | ok current =>
    dsimp only
    split
    · rw [wp_bind]
      refine wp_imp ?_ wp_removeFinalizer_account
      rintro ⟨source, result⟩ after ⟨revision, reads, written, unchanged⟩
      split
      · exact ⟨rfl, ⟨_, rfl⟩, written, reads.le⟩
      · rename_i other same
        obtain ⟨rfl, rfl⟩ := Prod.mk.inj same
        have still := unchanged other
        refine wp_updateExisting_account reads.le written ?_
        rw [still]
        exact congrArg some revision.symm
    · exact wp_updateExisting_account (Nat.le_refl _) rfl rfl
  | error e =>
    dsimp only
    split
    · exact wp_createMissing_account (Nat.le_refl _) rfl
    · exact settles_failed (Nat.le_refl _) rfl

/-- All attempts for a destination are settled with the account of their answers. -/
theorem wp_upsertLoop_account (attempts : Nat) :
    (upsertLoop api srcVersion attempts d ⟨template, false, 0⟩).wp accounting
      (fun value after => Settles srcVersion d attempts before after
        ⟨value.1, value.2.changed, value.2.observedSuccess⟩) before := by
  induction attempts generalizing template before with
  | zero =>
    exact ⟨Nat.le_refl _, (Bool.or_false _).symm, Nat.zero_le 1,
      fun one => absurd one Nat.zero_ne_one, fun _ => ⟨rfl, rfl⟩, fun _ => rfl⟩
  | succ attempts ih =>
    rw [upsertLoop, wp_bind]
    refine wp_imp ?_ wp_upsertAttempt_account
    rintro ⟨entry, state, flow⟩ middle settled
    cases flow with
    | continue_ =>
      obtain ⟨rfl, ⟨template', rfl⟩, written, reads⟩ := settled
      refine wp_imp (fun value after later => ?_) ih
      have fewer := later.reads
      exact ⟨by omega, written ▸ later.written, later.counted, later.success, later.failure,
        later.unwritten⟩
    | break_ =>
      have fewer := settled.reads
      exact ⟨by omega, settled.written, settled.counted, settled.success, settled.failure,
        settled.unwritten⟩

/-- A destination on its own is settled with the account of its answers. -/
theorem wp_upsertAlone_account (self : ResourceControllerImpl) (source : DynamicObject) :
    (self.upsertAlone source d).wp accounting
      (fun outcome after => Settles source.metadata.revision d 3 before after outcome) before := by
  unfold upsertAlone
  rw [wp_bind]
  exact wp_imp (fun _ _ settled => settled) (wp_upsertLoop_account 3)

/-- What all destinations together come to. -/
theorem wp_upsertEntries_account (self : ResourceControllerImpl) (source : DynamicObject)
    (staleRemnants destinations : List DestinationStatus) :
    (destinations.mapM (self.upsertEntry source staleRemnants)).wp accounting
      (fun outcomes after => after.written = (before.written || outcomes.any (·.written)) ∧
        (outcomes.map (·.counted)).sum ≤
          (destinations.filter fun d => !isRemnant staleRemnants d).length) before := by
  induction destinations generalizing before with
  | nil => exact ⟨(Bool.or_false _).symm, Nat.le_refl _⟩
  | cons d rest ih =>
    rw [List.mapM_cons, wp_bind, upsertEntry]
    split
    · rename_i remnant
      rw [pure_eq, wp_done, wp_bind]
      refine wp_imp (fun outcomes after kept => ?_) ih
      rw [pure_eq, wp_done, List.filter_cons, remnant, List.map_cons, List.sum_cons, List.any_cons]
      exact ⟨kept.1, (Nat.zero_add _).le.trans kept.2⟩
    · rename_i current
      have taken : (!isRemnant staleRemnants d) = true := by
        rw [Bool.not_eq_true] at current
        rw [current]
        rfl
      refine wp_imp (fun outcome middle settled => ?_) (self.wp_upsertAlone_account source)
      rw [wp_bind]
      refine wp_imp (fun outcomes after kept => ?_) ih
      rw [pure_eq, wp_done, List.filter_cons, if_pos taken, List.map_cons, List.sum_cons,
        List.any_cons, List.length_cons]
      have counted := settled.counted
      refine ⟨?_, by omega⟩
      rw [kept.1, settled.written, Bool.or_assoc]

end Accounts

/-- **Upserting is a pointwise map with exact accounts.** The program is the map of one program for
each destination over all of them. Nothing is asked for a remnant, and what is asked for any other
destination is determined by the source and its entry alone. By the answers to these requests, a
success records the revision of the source and the one that was reported last, a failure leaves the
entry, at most three reads are made, and whatever the answers, the successes are no more than the
destinations and a change is noted exactly when an object was written. -/
theorem upsertDestinations_pointwise (self : ResourceControllerImpl) (source : DynamicObject)
    (destinations staleRemnants : List DestinationStatus) :
    self.upsertDestinations source destinations staleRemnants =
      destinations.mapM (self.upsertEntry source staleRemnants) >>= (fun outcomes =>
        pure (outcomes.map (·.entry), outcomes.any (·.written),
          (destinations.filter fun d => !isRemnant staleRemnants d).length,
          (outcomes.map (·.counted)).sum)) ∧
    (∀ d, isRemnant staleRemnants d = true →
      self.upsertEntry source staleRemnants d = pure (.skipped d)) ∧
    (∀ d, isRemnant staleRemnants d = false →
      self.upsertEntry source staleRemnants d = self.upsertAlone source d ∧
        ∀ before, (self.upsertAlone source d).wp accounting (fun outcome after =>
          Settles source.metadata.revision d 3 before after outcome) before) ∧
    (self.upsertDestinations source destinations staleRemnants).wp accounting
      (fun (_, changed, expected, observed) after =>
        (changed = true ↔ after.written = true) ∧ observed ≤ expected) ⟨0, false, none⟩ := by
  have pointwise := self.upsertDestinations_eq_mapM source destinations staleRemnants
  refine ⟨pointwise, fun d remnant => if_pos remnant, fun d current => ⟨?_, fun before => ?_⟩, ?_⟩
  · rw [upsertEntry, current]
    rfl
  · exact self.wp_upsertAlone_account source
  · rw [pointwise, wp_bind]
    refine wp_imp (fun outcomes after kept => ?_)
      (self.wp_upsertEntries_account source staleRemnants destinations)
    rw [pure_eq, wp_done, kept.1]
    exact ⟨Iff.rfl, kept.2⟩

end ResourceControllerImpl

end ObjectSyncer
