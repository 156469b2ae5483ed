import ObjectSyncer.PointwiseUpsert
import ObjectSyncer.Undisturbed

/-!
# The tracked entries of a run

A run splits the recorded entries into stale and expected ones, deletes the former, persists what is
expected with what could not be deleted, and then writes the expected destinations. Entries are
compared by their keys at each of these places, on lists that were split, merged and sorted.
-/
namespace ObjectSyncer

open Interaction Interaction.Program

namespace ResourceControllerImpl

/-- The expected entries of a run, with the revisions that were recorded for them. -/
def expectedEntries (self : ResourceControllerImpl) (sync : ObjectSync) (cache : List Namespace) :
    List DestinationStatus :=
  (self.splitDestinations (expectedDestinations sync cache) sync.destinationList).1

/-- The stale entries of a run. -/
def staleEntries (self : ResourceControllerImpl) (sync : ObjectSync) (cache : List Namespace) :
    List DestinationStatus :=
  (self.splitDestinations (expectedDestinations sync cache) sync.destinationList).2

/-- The entries whose deletion was not settled, by the answers in the order of the entries. -/
def refused : List DestinationStatus → List Bool → List DestinationStatus
  | d :: rest, settled :: answers =>
    if settled then refused rest answers else d :: refused rest answers
  | _, _ => []

/-- The answer to one more deletion. -/
theorem refused_concat {done : List DestinationStatus} {answers : List Bool}
    (same : answers.length = done.length) (d : DestinationStatus) (settled : Bool) :
    refused (done ++ [d]) (answers ++ [settled]) =
      refused done answers ++ if settled then [] else [d] := by
  induction done generalizing answers with
  | nil =>
    obtain rfl := List.eq_nil_of_length_eq_zero same
    cases settled <;> rfl
  | cons first done ih =>
    cases answers with
    | nil => cases same
    | cons answer answers =>
      have further := ih (Nat.succ.inj same)
      simp only [List.cons_append, refused, further]
      split <;> rfl

/-- Refused entries are among the entries. -/
theorem refused_sublist (entries : List DestinationStatus) (answers : List Bool) :
    (refused entries answers).Sublist entries := by
  induction entries generalizing answers with
  | nil => exact .slnil
  | cons d rest ih =>
    cases answers with
    | nil => exact List.nil_sublist _
    | cons answer answers =>
      rw [refused]
      split
      · exact (ih answers).cons d
      · exact (ih answers).cons_cons d

section Split

variable {self : ResourceControllerImpl} {sync : ObjectSync} {cache : List Namespace}

/-- A stale entry has no expected key. -/
theorem stale_key_not_expected {d other : DestinationStatus}
    (stale : d ∈ self.staleEntries sync cache)
    (expected : other ∈ self.expectedEntries sync cache) : d.key ≠ other.key := by
  obtain ⟨target, wanted, designates⟩ := exists_target_of_mem_expected expected
  rw [staleEntries, splitDestinations_stale, List.mem_filter, List.all_eq_true] at stale
  have apart := of_decide_eq_true (stale.2 target wanted)
  rw [designates, DestinationStatus.target_key] at apart
  exact apart

/-- An entry of the merged list is skipped exactly when its deletion was refused. -/
theorem isRemnant_merged {remnants : List DestinationStatus}
    (sublist : remnants.Sublist (self.staleEntries sync cache)) {d : DestinationStatus}
    (member : d ∈ sortDestinations (self.expectedEntries sync cache ++ remnants)) :
    (isRemnant remnants d = true ↔ d ∈ remnants) ∧
      (isRemnant remnants d = false ↔ d ∈ self.expectedEntries sync cache) := by
  have listed := List.mem_append.mp ((sortDestinations_perm _).mem_iff.mp member)
  have apart (expected : d ∈ self.expectedEntries sync cache) : isRemnant remnants d = false := by
    refine Bool.eq_false_iff.mpr fun remnant => ?_
    obtain ⟨v, there, same⟩ := isRemnant_iff.mp remnant
    exact stale_key_not_expected (sublist.subset there) expected same
  have skipped (remnant : d ∈ remnants) : isRemnant remnants d = true :=
    isRemnant_iff.mpr ⟨d, remnant, rfl⟩
  constructor
  · refine ⟨fun remnant => listed.resolve_left fun expected => ?_, skipped⟩
    rw [apart expected] at remnant
    cases remnant
  · refine ⟨fun current => listed.resolve_right fun remnant => ?_, apart⟩
    rw [skipped remnant] at current
    cases current

end Split

/-! ## The calls of a run -/

/-- What has happened in a run: what its requests were answered, how its deletions were answered in
their order, and which objects were read. -/
structure Progress where
  account : Account
  deletions : List Bool
  read : List ObjectKey

/-- The progress of a run that has made no calls. -/
def Progress.start : Progress := ⟨⟨0, false, none⟩, [], []⟩

/-- The progress after the answer to a call. -/
def Progress.after (progress : Progress) (call : Call) (reply : Reply call) : Progress where
  account := progress.account.after call reply
  deletions :=
    match call, reply with
    | .api (.delete _ _), reply => progress.deletions ++ [deletionSettled reply]
    | _, _ => progress.deletions
  read :=
    match call with
    | .api (.get api name) => progress.read ++ [api.key name]
    | _ => progress.read

/-- The next stale entry, by the number of deletions that were answered. -/
def NextStale (self : ResourceControllerImpl) (sync : ObjectSync) (cache : List Namespace)
    (progress : Progress) (api : DynamicApi) (name : String) : Prop :=
  ∃ d, (self.staleEntries sync cache)[progress.deletions.length]? = some d ∧ api = d.api ∧
    name = d.name

/-- An expected entry, once all deletions were answered. -/
def NowExpected (self : ResourceControllerImpl) (sync : ObjectSync) (cache : List Namespace)
    (progress : Progress) (key : ObjectKey) : Prop :=
  progress.deletions.length = (self.staleEntries sync cache).length ∧
    key ∈ (self.expectedEntries sync cache).map (·.key)

/-- What is to be persisted, by what was answered to the deletions: the expected entries and those
that were refused. -/
def dueEntries (self : ResourceControllerImpl) (sync : ObjectSync) (cache : List Namespace)
    (deletions : List Bool) : List DestinationStatus :=
  sortDestinations (self.expectedEntries sync cache ++
    refused (self.staleEntries sync cache) deletions)

/-- What is asked for, by what has happened. The deletions go through the stale entries. The list
that is persisted has the expected entries and those whose deletion was refused, as they are as long
as nothing was written. Only expected destinations are written. -/
def SplitCall (self : ResourceControllerImpl) (sync : ObjectSync) (cache : List Namespace)
    (progress : Progress) : Call → Prop
  | .api (.delete api name) => self.NextStale sync cache progress api name
  | .api (.get api name) | .api (.jsonPatch api name _) =>
    self.NextStale sync cache progress api name ∨
      self.NowExpected sync cache progress (api.key name)
  | .api (.replaceSyncStatus _ body) =>
    progress.deletions.length = (self.staleEntries sync cache).length ∧
      body.destinationList.map (·.key) =
        (self.dueEntries sync cache progress.deletions).map (·.key) ∧
      (progress.account.written = false →
        body.destinationList = self.dueEntries sync cache progress.deletions)
  | .api (.create api body) => self.NowExpected sync cache progress (api.key body.metadata.nameAny)
  | .api (.replace api name _) | .api (.apply api name _) =>
    self.NowExpected sync cache progress (api.key name)
  | _ => True

/-- Calls are answered in any way that an honest server may answer them, and the cache has a given
content. -/
@[reducible] def splitting (self : ResourceControllerImpl) (sync : ObjectSync)
    (cache : List Namespace) : Contract Call Reply Progress where
  rely := Eq
  answers := fun before call reply after =>
    Honest call reply ∧ Cached cache call reply ∧ after = before.after call reply
  guarantee := fun before call _ _ => self.SplitCall sync cache before call

section Phases

variable {self : ResourceControllerImpl} {sync : ObjectSync} {cache : List Namespace}
  {now : Progress}

/-- The next entry of a list, by the number of those before. -/
theorem nextStale {entries done todo : List DestinationStatus} {d : DestinationStatus} {count : Nat}
    (whole : entries = done ++ d :: todo) (counted : count = done.length) :
    entries[count]? = some d := by
  rw [whole, counted, List.getElem?_append_right (Nat.le_refl _), Nat.sub_self]
  rfl

/-- The deletions go through the stale entries, and those that are refused remain. -/
theorem wp_deleteDestinations_split (fresh : now.deletions = [])
    (unwritten : now.account.written = false) :
    (deleteDestinations (self.staleEntries sync cache)).wp (self.splitting sync cache)
      (fun result after => ∀ remnants, result = .ok remnants →
        after.deletions.length = (self.staleEntries sync cache).length ∧
          remnants = refused (self.staleEntries sync cache) after.deletions ∧
            after.account.written = false) now := by
  have loop := @wp_deleteDestinations_loop _ (self.splitting sync cache)
    (fun failed todo (after : Progress) => ∃ done, self.staleEntries sync cache = done ++ todo ∧
      after.deletions.length = done.length ∧ failed = refused done after.deletions ∧
        after.account.written = false) (fun _ => True)
    (fun _ _ _ _ answered => answered.1) (fun _ _ _ _ kept same => same ▸ kept) ?_ ?_
    (fun _ _ _ _ _ _ _ _ _ => trivial) [] (self.staleEntries sync cache) now
    ⟨[], rfl, congrArg List.length fresh, congrArg (refused []) fresh |>.symm, unwritten⟩
  · refine wp_imp (fun result after kept remnants finished => ?_) loop
    obtain ⟨done, whole, answered, failed, unwritten⟩ := kept.2 remnants finished
    rw [List.append_nil] at whole
    rw [whole]
    exact ⟨answered, failed, unwritten⟩
  · rintro failed d todo before request reply _ removal other kept ⟨-, -, rfl⟩
    have next : self.NextStale sync cache before d.api d.name := by
      obtain ⟨done, whole, answered, -⟩ := kept
      exact ⟨d, nextStale whole answered, rfl, rfl⟩
    cases removal with
    | get =>
      refine ⟨.inl next, ?_⟩
      cases reply <;> exact kept
    | release patch =>
      refine ⟨.inl next, ?_⟩
      cases reply <;> exact kept
    | delete => exact absurd rfl (other d.api d.name)
  · rintro failed d todo before reply _ ⟨done, whole, answered, rfl, unwritten⟩ ⟨-, -, rfl⟩
    refine ⟨⟨d, nextStale whole answered, rfl, rfl⟩, done ++ [d], ?_, ?_, ?_, ?_⟩
    · rw [whole, List.append_assoc, List.singleton_append]
    · show (before.deletions ++ [deletionSettled reply]).length = _
      rw [List.length_append, List.length_append, answered]
      rfl
    · exact (refused_concat answered d _).symm
    · cases reply <;> exact unwritten

/-- The status is written with the list that is due. -/
theorem wp_replaceStatus_split {event : ObjectSyncModifications}
    (due : ∀ name body, body.destinationList = event.modified.destinationList →
      self.SplitCall sync cache now (.api (.replaceSyncStatus name body))) :
    event.replaceStatus.wp (self.splitting sync cache)
      (fun value after => value.1.modified.status = event.modified.status ∧ after = now) now := by
  refine wp_imp (fun _ _ kept => ⟨kept.1.1, kept.2.symm⟩) (@wp_requests _ _ _ _
    (self.splitting sync cache) _ (fun call => ∃ request, call = .api request ∧
      event.StatusWrite request) (now = ·) _ _ _
    (event.requests_replaceStatus fun request write => ⟨request, rfl, write⟩)
    (fun _ _ _ _ answered => answered.1) (fun _ _ kept same => kept.trans same) ?_ rfl)
  rintro _ call reply _ rfl ⟨request, rfl, write⟩ ⟨-, -, rfl⟩
  cases write with
  | read => exact ⟨trivial, by cases reply <;> rfl⟩
  | write status =>
    exact ⟨due event.address _ (ObjectSync.destinationList_eq_of_status status), by
      cases reply <;> rfl⟩

/-- What is left of a destination once it was processed: it was read, its entry still designates it,
and is the one that was tracked unless something was written. -/
structure Processed (d : DestinationStatus) (before after : Progress) (entry : DestinationStatus) :
    Prop where
  deletions : after.deletions = before.deletions
  further : before.read ⊆ after.read
  reads : d.key ∈ after.read
  key : entry.key = d.key
  written : before.account.written = true → after.account.written = true
  unwritten : after.account.written = false → entry = d

/-- The requests of an expected destination are for its object. -/
theorem splitCall_upsert {d : DestinationStatus} (expected : d ∈ self.expectedEntries sync cache)
    (all : now.deletions.length = (self.staleEntries sync cache).length) {request : ApiRequest}
    (upsert : Upsert (self.namespacedApi d.namespace_) d.name request) :
    self.SplitCall sync cache now (.api request) := by
  have due : self.NowExpected sync cache now ((self.namespacedApi d.namespace_).key d.name) := by
    obtain ⟨target, -, designates⟩ := exists_target_of_mem_expected expected
    rw [namespacedApi_key designates]
    exact ⟨all, List.mem_map_of_mem expected⟩
  cases upsert with
  | get => exact .inr due
  | release patch => exact .inr due
  | create named =>
    rw [← named] at due
    exact due
  | replace body => exact due
  | apply body => exact due

/-- Requests for a destination are no deletions, and nothing that was read is forgotten. -/
theorem progress_upsert {api : DynamicApi} {name : String} {request : ApiRequest}
    (upsert : Upsert api name request) (reply : Reply (.api request)) :
    (now.after (.api request) reply).deletions = now.deletions ∧
      now.read ⊆ (now.after (.api request) reply).read := by
  cases upsert with
  | get => exact ⟨by cases reply <;> rfl, List.subset_append_left _ _⟩
  | release patch => exact ⟨by cases reply <;> rfl, List.Subset.refl _⟩
  | create named => exact ⟨by cases reply <;> rfl, List.Subset.refl _⟩
  | replace body => exact ⟨by cases reply <;> rfl, List.Subset.refl _⟩
  | apply body => exact ⟨by cases reply <;> rfl, List.Subset.refl _⟩

/-- The work for an expected destination begins with reading it. -/
theorem wp_upsertAlone_reads {source : DynamicObject} {d : DestinationStatus}
    (expected : d ∈ self.expectedEntries sync cache)
    (all : now.deletions.length = (self.staleEntries sync cache).length) :
    (self.upsertAlone source d).wp (self.splitting sync cache)
      (fun outcome after => outcome.entry.target = d.target ∧ after.deletions = now.deletions ∧
        now.read ⊆ after.read ∧ d.key ∈ after.read) now := by
  have key : (self.namespacedApi d.namespace_).key d.name = d.key := by
    obtain ⟨target, -, designates⟩ := exists_target_of_mem_expected expected
    exact namespacedApi_key designates
  have shape : (self.upsertAlone source d).wp (.requests Honest fun call => ∃ request,
      call = .api request ∧ Upsert (self.namespacedApi d.namespace_) d.name request)
      (fun outcome _ => outcome.entry.target = d.target) () := by
    unfold upsertAlone
    rw [wp_bind]
    exact wp_imp (fun _ _ same => same)
      (requests_upsertLoop 3 (fun request upsert => ⟨request, rfl, upsert⟩) rfl)
  obtain ⟨resume, first⟩ : ∃ resume, self.upsertAlone source d =
    .call (.api (.get (self.namespacedApi d.namespace_) d.name)) resume := ⟨_, rfl⟩
  rw [first] at shape ⊢
  rintro _ rfl reply _ ⟨honest, -, rfl⟩
  have known := @progress_upsert now _ d.name _ .get reply
  refine ⟨splitCall_upsert expected all .get, ?_⟩
  refine wp_imp ?_ (@wp_requests _ _ _ _ (self.splitting sync cache) _ _
    (fun after => after.deletions = now.deletions ∧ now.read ⊆ after.read ∧ d.key ∈ after.read)
    _ _ _ (shape () trivial reply () honest).2 (fun _ _ _ _ answered => answered.1)
    (fun _ _ kept same => same ▸ kept) ?_ ⟨known.1, known.2, ?_⟩)
  · intro outcome after kept
    exact ⟨kept.1, kept.2.1, kept.2.2.1, kept.2.2.2⟩
  · rintro before _ reply _ ⟨same, further, reads⟩ ⟨request, rfl, upsert⟩ ⟨-, -, rfl⟩
    have known := @progress_upsert before _ _ _ upsert reply
    rw [← same] at all
    exact ⟨splitCall_upsert expected all upsert, known.1.trans same,
      List.Subset.trans further known.2, known.2 reads⟩
  · rw [← key]
    exact List.mem_append_right _ List.mem_cons_self

/-- An expected destination is processed. -/
theorem wp_upsertAlone_split {source : DynamicObject} {d : DestinationStatus}
    (expected : d ∈ self.expectedEntries sync cache)
    (all : now.deletions.length = (self.staleEntries sync cache).length) :
    (self.upsertAlone source d).wp (self.splitting sync cache)
      (fun outcome after => Processed d now after outcome.entry) now := by
  have accounts := wp_view (self.splitting sync cache) (·.account)
    (fun _ _ same => congrArg (·.account) same)
    (fun _ _ _ _ answered => congrArg (·.account) answered.2.2)
    (@wp_upsertAlone_account d now.account self source)
  refine wp_mono ?_ ?_ ?_ ?_ (wp_and accounts (wp_upsertAlone_reads expected all))
  · exact fun _ _ => id
  · exact fun _ _ _ _ => id
  · exact fun _ _ _ _ _ kept => kept.2
  · rintro outcome after ⟨settled, same, deletions, further, reads⟩
    have changed := settled.written
    refine ⟨deletions, further, reads, congrArg (·.key) same, fun before => ?_, fun nothing => ?_⟩
    · rw [changed, before, Bool.true_or]
    · rw [nothing] at changed
      exact settled.unwritten (Bool.or_eq_false_iff.mp changed.symm).2

/-- All entries that are tracked, each as it is or processed. -/
structure Entries (controller : ResourceControllerImpl) (sync : ObjectSync) (cache : List Namespace)
    (tracked : List DestinationStatus) (deletions : List Bool) (progress : Progress)
    (entries todo : List DestinationStatus) : Prop where
  deletions : progress.deletions = deletions
  keys : (entries ++ todo).map (·.key) = tracked.map (·.key)
  listed : ∀ d ∈ todo, d ∈ tracked
  reads : ∀ d ∈ controller.expectedEntries sync cache, d.key ∈ progress.read ∨ d ∈ todo
  unwritten : progress.account.written = false → entries ++ todo = tracked

/-- Upserting what is tracked skips the remnants, processes every expected entry and keeps the keys
of all entries. -/
theorem wp_upsertDestinations_split {source : DynamicObject} {remnants : List DestinationStatus}
    (sublist : remnants.Sublist (self.staleEntries sync cache))
    (all : now.deletions.length = (self.staleEntries sync cache).length) :
    (self.upsertDestinations source (sortDestinations (self.expectedEntries sync cache ++ remnants))
      remnants).wp (self.splitting sync cache) (fun value after => self.Entries sync cache
        (sortDestinations (self.expectedEntries sync cache ++ remnants)) now.deletions after
        value.1 []) now := by
  rw [upsertDestinations_eq_mapM, wp_bind]
  refine wp_imp ?_ (@wp_mapM _ _ _ _ _ (self.splitting sync cache) _
    (fun outcomes todo after => self.Entries sync cache
      (sortDestinations (self.expectedEntries sync cache ++ remnants)) now.deletions after
      (outcomes.map (·.entry)) todo) ?_ [] _ now ?_)
  · rintro outcomes after kept
    exact kept
  · intro outcomes d todo before kept
    have member := kept.listed d List.mem_cons_self
    have skips := isRemnant_merged sublist member
    have others : ∀ other ∈ todo, other ∈ _ := fun other listed =>
      kept.listed other (List.mem_cons_of_mem _ listed)
    rw [upsertEntry]
    split
    · rename_i remnant
      have stale := sublist.subset (skips.1.mp remnant)
      have whole : (outcomes.map (·.entry) ++ [d]) ++ todo =
          outcomes.map (·.entry) ++ d :: todo := by
        rw [List.append_assoc, List.singleton_append]
      rw [pure_eq, wp_done, List.map_append]
      refine ⟨kept.deletions, ?_, others, fun other expected => ?_, fun nothing => ?_⟩
      · exact (congrArg (List.map (·.key)) whole).trans kept.keys
      · refine (kept.reads other expected).imp id fun listed => ?_
        refine (List.mem_cons.mp listed).resolve_left fun same => ?_
        exact stale_key_not_expected stale expected (congrArg (·.key) same.symm)
      · exact whole.trans (kept.unwritten nothing)
    · rename_i current
      have expected := skips.2.mp (Bool.not_eq_true _ ▸ current)
      have all' : before.deletions.length = (self.staleEntries sync cache).length := by
        rw [kept.deletions, all]
      refine wp_imp (fun outcome after processed => ?_) (wp_upsertAlone_split expected all')
      have whole : (outcomes.map (·.entry) ++ [outcome.entry]) ++ todo =
          outcomes.map (·.entry) ++ outcome.entry :: todo := by
        rw [List.append_assoc, List.singleton_append]
      rw [List.map_append]
      refine ⟨processed.deletions.trans kept.deletions, ?_, others, fun other expected' => ?_,
        fun nothing => ?_⟩
      · refine (congrArg (List.map (·.key)) whole).trans (Eq.trans ?_ kept.keys)
        rw [List.map_append, List.map_append, List.map_cons, List.map_cons, processed.key]
      · rcases kept.reads other expected' with read | listed
        · exact .inl (processed.further read)
        · rcases List.mem_cons.mp listed with rfl | later
          · exact .inl processed.reads
          · exact .inr later
      · have quiet : before.account.written = false := by
          by_contra written
          rw [processed.written (Bool.not_eq_false _ ▸ written)] at nothing
          cases nothing
        have same := processed.unwritten nothing
        exact whole.trans (same ▸ kept.unwritten quiet)
  · refine ⟨rfl, rfl, fun _ => id, fun d expected => .inr ?_, fun _ => rfl⟩
    exact (sortDestinations_perm _).mem_iff.mpr (List.mem_append_left _ expected)

/-- The status is written with a list that has the keys of what is due. -/
theorem splitCall_status {tracked : List DestinationStatus}
    (all : now.deletions.length = (self.staleEntries sync cache).length)
    (keys : tracked.map (·.key) = (self.dueEntries sync cache now.deletions).map (·.key))
    (unwritten : now.account.written = false → tracked = self.dueEntries sync cache now.deletions)
    (name : NamespacedName) {body : ObjectSync} (listed : body.destinationList = tracked) :
    self.SplitCall sync cache now (.api (.replaceSyncStatus name body)) := by
  refine ⟨all, ?_, ?_⟩
  · rw [listed]
    exact keys
  · rw [listed]
    exact unwritten

/-- Steps 3 and 4 process every expected entry and write the keys that are tracked. -/
theorem wp_syncDestinations_split {event : ObjectSyncModifications} {source : DynamicObject}
    {remnants : List DestinationStatus} {removedCount : Nat}
    (all : now.deletions.length = (self.staleEntries sync cache).length)
    (remain : remnants = refused (self.staleEntries sync cache) now.deletions)
    (tracked : event.modified.statusDestinations =
      some (self.dueEntries sync cache now.deletions)) :
    (self.syncDestinations event source remnants removedCount).wp (self.splitting sync cache)
      (fun _ after => after.deletions.length = (self.staleEntries sync cache).length ∧
        ∀ d ∈ self.expectedEntries sync cache, d.key ∈ after.read) now := by
  have sublist : remnants.Sublist (self.staleEntries sync cache) := remain ▸ refused_sublist _ _
  have due : self.dueEntries sync cache now.deletions =
      sortDestinations (self.expectedEntries sync cache ++ remnants) := by
    rw [dueEntries, ← remain]
  unfold syncDestinations
  rw [tracked, due]
  dsimp only
  rw [wp_bind]
  refine wp_imp (fun value after kept => ?_) (wp_upsertDestinations_split sublist all)
  have keys := kept.keys
  have unwritten := kept.unwritten
  rw [List.append_nil] at keys unwritten
  rw [← due, ← kept.deletions] at keys unwritten
  have all' : after.deletions.length = (self.staleEntries sync cache).length := by
    rw [kept.deletions, all]
  have finished : after.deletions.length = (self.staleEntries sync cache).length ∧
      ∀ d ∈ self.expectedEntries sync cache, d.key ∈ after.read := by
    refine ⟨all', fun d expected => (kept.reads d expected).resolve_right ?_⟩
    exact List.not_mem_nil
  split
  · unfold ObjectSyncModifications.updateCondition
    rw [bind_assoc, wp_clock]
    rintro _ rfl time _ ⟨-, -, rfl⟩
    refine ⟨trivial, wp_imp (fun _ _ written => ?_) (wp_replaceStatus_split fun name body listed =>
      splitCall_status all' keys unwritten name ?_)⟩
    · rw [written.2]
      exact finished
    · rw [listed]
      exact ObjectSync.updateCondition_destinationList ..
  · exact finished

/-- A run as a whole splits, deletes and processes the destinations. -/
theorem wp_reconcileSource_split {event : ObjectSyncModifications} {source : DynamicObject} :
    (self.reconcileSource event source).wp (self.splitting event.modified cache)
      (fun value after => value.2 = .ok () →
        after.deletions.length = (self.staleEntries event.modified cache).length ∧
          ∀ d ∈ self.expectedEntries event.modified cache, d.key ∈ after.read)
      .start := by
  unfold reconcileSource
  rw [wp_namespaces]
  rintro _ rfl cached _ ⟨-, same, rfl⟩
  have accurate : cache = cached := same.symm
  subst accurate
  refine ⟨trivial, ?_⟩
  dsimp only
  rw [wp_bind]
  refine wp_imp (fun result middle kept => ?_) (wp_deleteDestinations_split rfl rfl)
  cases result with
  | error e => exact fun ended => nomatch ended
  | ok remnants =>
    obtain ⟨all, remain, unwritten⟩ := kept remnants rfl
    have due : self.dueEntries event.modified cache middle.deletions =
        sortDestinations (self.expectedEntries event.modified cache ++ remnants) := by
      rw [dueEntries, ← remain]
    dsimp only
    rw [wp_bind]
    refine wp_imp (fun value after written => ?_) (wp_replaceStatus_split fun name body listed =>
      splitCall_status all rfl (fun _ => rfl) name (listed.trans due.symm))
    obtain ⟨status, rfl⟩ := written
    obtain ⟨event', result⟩ := value
    cases result with
    | error e => exact fun ended => nomatch ended
    | ok =>
      refine wp_imp (fun _ _ finished _ => finished) (wp_syncDestinations_split all remain ?_)
      rw [ObjectSync.statusDestinations, status, due]
      rfl

end Phases

/-- No two expected destinations are the same object. -/
def DistinctTargets (sync : ObjectSync) (cache : List Namespace) : Prop :=
  ((expectedDestinations sync cache).map fun target => (target.1, target.2.1)).Nodup

/-- Whether the expected destinations are distinct objects can be computed. -/
instance (sync : ObjectSync) (cache : List Namespace) : Decidable (DistinctTargets sync cache) :=
  inferInstanceAs (Decidable (List.Nodup _))

/-- The expected keys are distinct when the expected destinations are distinct objects. -/
theorem expected_keys_nodup_iff {self : ResourceControllerImpl} {sync : ObjectSync}
    {cache : List Namespace} :
    ((self.expectedEntries sync cache).map (·.key)).Nodup ↔ DistinctTargets sync cache := by
  have keys : (self.expectedEntries sync cache).map (·.key) =
      ((expectedDestinations sync cache).map fun target => (target.1, target.2.1)).map
        fun target => (⟨self.gvk.group, self.gvk.kind, target.1, target.2⟩ : ObjectKey) := by
    rw [expectedEntries, splitDestinations_expected_keys, List.map_map]
    rfl
  rw [keys, DistinctTargets]
  refine List.nodup_map_iff fun left right same => ?_
  rw [ObjectKey.mk.injEq] at same
  exact Prod.ext same.2.2.1 same.2.2.2

/-- What is due has distinct keys when the expected ones are distinct and the refused ones are. -/
theorem due_keys_nodup_iff {self : ResourceControllerImpl} {sync : ObjectSync}
    {cache : List Namespace} {deletions : List Bool} :
    ((self.dueEntries sync cache deletions).map (·.key)).Nodup ↔ DistinctTargets sync cache ∧
      ((refused (self.staleEntries sync cache) deletions).map (·.key)).Nodup := by
  have perm := (sortDestinations_perm (self.expectedEntries sync cache ++
    refused (self.staleEntries sync cache) deletions)).map (·.key)
  rw [dueEntries, perm.nodup_iff, List.map_append, List.nodup_append, expected_keys_nodup_iff]
  refine ⟨fun distinct => ⟨distinct.1, distinct.2.1⟩, fun distinct => ⟨distinct.1, distinct.2, ?_⟩⟩
  -- Stale and expected entries have no key in common.
  intro key expected other stale
  obtain ⟨d, member, rfl⟩ := List.mem_map.mp expected
  obtain ⟨former, listed, rfl⟩ := List.mem_map.mp stale
  exact (stale_key_not_expected ((refused_sublist _ _).subset listed) member).symm

/-- **Each target is tracked once.** Whenever a run writes the status, the list has one entry for
each key if and only if the expected destinations are distinct objects and no two entries of one key
were refused their deletion. -/
theorem reconcileSource_tracksOnce_iff (self : ResourceControllerImpl)
    (event : ObjectSyncModifications) (source : DynamicObject) (cache : List Namespace) :
    (self.reconcileSource event source).wp
      { self.splitting event.modified cache with
        guarantee := fun before call _ _ => ∀ name body,
          call = .api (.replaceSyncStatus name body) →
            ((body.destinationList.map (·.key)).Nodup ↔ DistinctTargets event.modified cache ∧
              ((refused (self.staleEntries event.modified cache) before.deletions).map
                (·.key)).Nodup) }
      (fun _ _ => True) .start := by
  refine wp_mono ?_ ?_ ?_ ?_ (@wp_reconcileSource_split self cache event source)
  · exact fun _ _ => id
  · exact fun _ _ _ _ => id
  · rintro before _ reply after - split name body rfl
    rw [split.2.1, due_keys_nodup_iff]
  · exact fun _ _ _ => trivial

/-- An ObjectSync that copies to every namespace, and to one of them by its name. -/
def overlappingSync : ObjectSync :=
  { settingsSync with spec :=
    ⟨settingsSync.spec.source, [⟨none, "*", none⟩, ⟨none, "team", none⟩]⟩ }

/-- What the entries overlap in is tracked twice. -/
theorem overlapping_tracked_twice :
    ¬∀ (self : ResourceControllerImpl) (sync : ObjectSync) (source : DynamicObject)
      (cache : List Namespace), (self.reconcileSource (.new sync) source).wp
        { self.splitting sync cache with
          guarantee := fun _ call _ _ => ∀ name body, call = .api (.replaceSyncStatus name body) →
            (body.destinationList.map (·.key)).Nodup }
        (fun _ _ => True) .start := by
  intro once
  have run := once configMaps overlappingSync settingsSource settingsNamespaces
  have listed := (run _ rfl settingsNamespaces _ ⟨trivial, rfl, rfl⟩).2
  have read := (listed _ rfl (.ok overlappingSync) _ ⟨rfl, trivial, rfl⟩).2
  have distinct := (read _ rfl (.error (.other "")) _ ⟨trivial, trivial, rfl⟩).1 _ _ rfl
  exact absurd distinct (by decide +kernel)

end ResourceControllerImpl

end ObjectSyncer
