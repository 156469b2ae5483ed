import ObjectSyncer.Server

/-!
# Patches of a finalizer list

A finalizer is added or removed by positional operations, computed from the list that was read and
applied to the list of the moment. What they do to a list that another client has changed in
between, and when they do what they are for.
-/
namespace ObjectSyncer

open Interaction Interaction.Program

/-- What operations that do not lengthen a list make of another one: they write where the two sides
differ, and leave the other entries. -/
def overlay : (old new current : List String) → List String
  | _, [], _ => []
  | old :: olds, new :: news, entry :: entries =>
    (if old = new then entry else new) :: overlay olds news entries
  | _, _, _ => []

/-- Positional operations leave as many entries as the list has that they were made for. -/
theorem length_overlay {old new current : List String} (shorter : new.length ≤ old.length)
    (long : old.length ≤ current.length) : (overlay old new current).length = new.length := by
  induction old generalizing new current with
  | nil =>
    have empty : new = [] := List.eq_nil_of_length_eq_zero (Nat.le_zero.mp shorter)
    subst empty
    simp [overlay]
  | cons first olds ih =>
    cases new with
    | nil => simp [overlay]
    | cons second news =>
      cases current with
      | nil => simp at long
      | cons entry entries =>
        have rest := @ih news entries (by simpa using shorter) (by simpa using long)
        simp [overlay, rest]

/-- Each entry is the one that was there, or the one of the right side. -/
theorem getElem_overlay {old new current : List String} {index : Nat}
    (shorter : new.length ≤ old.length) (long : old.length ≤ current.length)
    (below : index < new.length) :
    (overlay old new current)[index]? =
      if old[index]? = new[index]? then current[index]? else new[index]? := by
  induction old generalizing new current index with
  | nil =>
    have empty : new = [] := List.eq_nil_of_length_eq_zero (Nat.le_zero.mp shorter)
    subst empty
    simp at below
  | cons first olds ih =>
    cases new with
    | nil => simp at below
    | cons second news =>
      cases current with
      | nil => simp at long
      | cons entry entries =>
        cases index with
        | zero => by_cases same : first = second <;> simp [overlay, same]
        | succ index =>
          have rest := @ih news entries index (by simpa using shorter) (by simpa using long)
            (by simpa using below)
          simpa [overlay] using rest

/-- Operations that shorten a list fail on a list that ends before the left side does. -/
theorem applyFinalizerOps_short {old new list : List String} {index : Nat}
    (shorter : new.length < old.length) (short : list.length < index + old.length) :
    applyFinalizerOps (diffArray index old new) (some list) = none := by
  induction old generalizing new list index with
  | nil => simp at shorter
  | cons first olds ih =>
    have further : list.length < index + 1 + olds.length := by
      rw [List.length_cons] at short
      omega
    cases new with
    | nil =>
      by_cases there : index < list.length
      · cases olds with
        | nil => simp at further; omega
        | cons second olds =>
          have fewer : (list.eraseIdx index).length < index + (second :: olds).length := by
            rw [List.length_eraseIdx_of_lt there]
            omega
          have rest := @ih [] (list.eraseIdx index) index (by simp) fewer
          simp [diffArray, applyFinalizerOps, FinalizerOp.apply, there] at rest ⊢
          exact rest
      · simp [diffArray, applyFinalizerOps, FinalizerOp.apply, there]
    | cons second news =>
      have less : news.length < olds.length := by simpa using shorter
      by_cases same : first = second
      · have rest := @ih news list (index + 1) less further
        simp [diffArray, same, rest]
      · have rest := @ih news (list.set index second) (index + 1) less (by simpa using further)
        by_cases there : index < list.length
        · simp [diffArray, same, applyFinalizerOps, FinalizerOp.apply, there, rest]
        · simp [diffArray, same, applyFinalizerOps, FinalizerOp.apply, there]

/-- Operations that shorten a list fail where there is none. -/
theorem applyFinalizerOps_absent {old new : List String} {index : Nat}
    (shorter : new.length < old.length) :
    applyFinalizerOps (diffArray index old new) none = none := by
  induction old generalizing new index with
  | nil => simp at shorter
  | cons first olds ih =>
    cases new with
    | nil => simp [diffArray, applyFinalizerOps, FinalizerOp.apply]
    | cons second news =>
      by_cases same : first = second
      · have rest := @ih news (index + 1) (by simpa using shorter)
        simp [diffArray, same, rest]
      · simp [diffArray, same, applyFinalizerOps, FinalizerOp.apply]

/-- Removing the surplus, one entry after the other, removes a segment. -/
theorem applyFinalizerOps_surplus (front surplus current : List String)
    (long : surplus.length ≤ current.length) :
    applyFinalizerOps (diffArray front.length surplus []) (some (front ++ current)) =
      some (some (front ++ current.drop surplus.length)) := by
  induction surplus generalizing current with
  | nil => simp [diffArray, insertFrom, applyFinalizerOps]
  | cons first surplus ih =>
    cases current with
    | nil => simp at long
    | cons entry current =>
      have erased : (front ++ entry :: current).eraseIdx front.length = front ++ current := by
        simp [List.eraseIdx_append_of_length_le]
      have rest := ih current (by simpa using long)
      simp [diffArray, applyFinalizerOps, FinalizerOp.apply, erased, rest]

/-- Operations that shorten a list leave the overlay and what lies beyond the left side. -/
theorem applyFinalizerOps_shortening (front old new current : List String)
    (shorter : new.length < old.length) (long : old.length ≤ current.length) :
    applyFinalizerOps (diffArray front.length old new) (some (front ++ current)) =
      some (some (front ++ overlay old new current ++ current.drop old.length)) := by
  induction old generalizing front new current with
  | nil => simp at shorter
  | cons first olds ih =>
    cases new with
    | nil =>
      rw [applyFinalizerOps_surplus front _ _ long]
      simp [overlay]
    | cons second news =>
      have less : news.length < olds.length := by simpa using shorter
      cases current with
      | nil => simp at long
      | cons entry current =>
        have enough : olds.length ≤ current.length := by simpa using long
        by_cases same : first = second
        · have rest := ih (front ++ [entry]) news current less enough
          simp only [List.length_append, List.length_singleton, List.append_assoc,
            List.singleton_append] at rest
          simp [diffArray, same, overlay, rest]
        · have rest := ih (front ++ [second]) news current less enough
          simp only [List.length_append, List.length_singleton, List.append_assoc,
            List.singleton_append] at rest
          simp [diffArray, same, overlay, applyFinalizerOps, FinalizerOp.apply, rest]

/-- The finalizers of others, in their order. -/
def otherFinalizers (finalizers : List String) : List String := finalizers.filter (· != finalizer)

/-- The list lost the finalizer, and nothing else happened to it. -/
def FinalizerRemoved (before after : Option (List String)) : Prop :=
  after.getD [] = otherFinalizers (before.getD [])

/-- The list has the finalizer, and nothing happened to the others. -/
def FinalizerAdded (before after : Option (List String)) : Prop :=
  finalizer ∈ after.getD [] ∧
    otherFinalizers (after.getD []) = otherFinalizers (before.getD [])

/-- What a removal computed from one list takes for granted of another one. Beyond the length that
was read there is no finalizer of the controller. Within it there are as many others as there were:
those that were read behind that finalizer are the same in the same order, and whatever is in the
places of those before it is not that finalizer. -/
structure Unmoved (read current : List String) : Prop where
  beyond : finalizer ∉ current.drop read.length
  count : (otherFinalizers (current.take read.length)).length = (otherFinalizers read).length
  ranks : ∀ index < (otherFinalizers read).length,
    (otherFinalizers (current.take read.length))[index]? =
      if read[index]? = (otherFinalizers read)[index]? then current[index]?
      else (otherFinalizers read)[index]?

/-- A list without the finalizer consists of others. -/
theorem otherFinalizers_eq_self {finalizers : List String} (lacks : finalizer ∉ finalizers) :
    otherFinalizers finalizers = finalizers :=
  filter_finalizer_of_not_mem lacks

/-- None of the others is the finalizer. -/
theorem not_mem_otherFinalizers (finalizers : List String) :
    finalizer ∉ otherFinalizers finalizers := by
  intro member
  have other := (List.mem_filter.mp member).2
  simp at other

/-- A list with the finalizer is longer than that of the others. -/
theorem length_otherFinalizers_lt {finalizers : List String} (listed : finalizer ∈ finalizers) :
    (otherFinalizers finalizers).length < finalizers.length := by
  have shorter := List.length_filter_le (· != finalizer) finalizers
  exact Nat.lt_of_le_of_ne shorter (length_filter_finalizer_ne listed)

/-- Inserting the finalizer leaves the others. -/
theorem otherFinalizers_insertIdx (finalizers : List String) (index : Nat) :
    otherFinalizers (finalizers.insertIdx index finalizer) = otherFinalizers finalizers := by
  induction finalizers generalizing index with
  | nil =>
    cases index with
    | zero => decide
    | succ index => rfl
  | cons first rest ih =>
    cases index with
    | zero => simp [otherFinalizers]
    | succ index =>
      have same := ih index
      unfold otherFinalizers at same ⊢
      rw [List.insertIdx_succ_cons, List.filter_cons, List.filter_cons, same]

/-- The overlay of a removal is the list of the others exactly when these have not moved. -/
theorem overlay_eq_iff {read current : List String} (listed : finalizer ∈ read)
    (long : read.length ≤ current.length) :
    overlay read (otherFinalizers read) current ++ current.drop read.length =
        otherFinalizers current ↔
      Unmoved read current := by
  have less := length_otherFinalizers_lt listed
  have length : (overlay read (otherFinalizers read) current).length =
    (otherFinalizers read).length := length_overlay less.le long
  have split : otherFinalizers current = otherFinalizers (current.take read.length) ++
      otherFinalizers (current.drop read.length) := by
    rw [otherFinalizers, otherFinalizers, otherFinalizers, ← List.filter_append,
      List.take_append_drop]
  constructor
  · intro same
    have beyond : finalizer ∉ current.drop read.length := by
      intro member
      have listed' : finalizer ∈ otherFinalizers current := by
        rw [← same]
        exact List.mem_append_right _ member
      exact not_mem_otherFinalizers current listed'
    rw [split, otherFinalizers_eq_self beyond] at same
    have within := List.append_cancel_right same
    refine ⟨beyond, ?_, ?_⟩
    · rw [← within, length]
    · intro index below
      rw [← within, getElem_overlay less.le long below]
  · intro unmoved
    rw [split, otherFinalizers_eq_self unmoved.beyond]
    congr 1
    apply List.ext_getElem?
    intro index
    by_cases below : index < (otherFinalizers read).length
    · rw [getElem_overlay less.le long below, unmoved.ranks index below]
    · have left : (overlay read (otherFinalizers read) current)[index]? = none := by
        apply List.getElem?_eq_none
        omega
      have right : (otherFinalizers (current.take read.length))[index]? = none := by
        apply List.getElem?_eq_none
        rw [unmoved.count]
        omega
      rw [left, right]

/-- A successful removal does what it is for exactly when the others have not moved. -/
theorem removed_iff {read : List String} (listed : finalizer ∈ read)
    {current after : Option (List String)}
    (applied : applyFinalizerOps (diffFinalizers (some read) (some (otherFinalizers read)))
      current = some after) :
    FinalizerRemoved current after ↔ Unmoved read (current.getD []) := by
  have less := length_otherFinalizers_lt listed
  cases current with
  | none =>
    have failed := @applyFinalizerOps_absent read _ 0 less
    have success : applyFinalizerOps (diffArray 0 read (otherFinalizers read)) none = some after :=
      applied
    rw [failed] at success
    cases success
  | some list =>
    have success : applyFinalizerOps (diffArray 0 read (otherFinalizers read)) (some list) =
      some after := applied
    by_cases long : read.length ≤ list.length
    · have left := applyFinalizerOps_shortening [] read _ list less long
      rw [List.length_nil, List.nil_append, List.nil_append, success] at left
      obtain rfl := Option.some.inj left
      exact overlay_eq_iff listed long
    · have failed := @applyFinalizerOps_short read _ list 0 less (by omega)
      rw [failed] at success
      cases success

/-- Operations that lengthen a list insert what is missing. -/
theorem diffArray_append (index : Nat) (old more : List String) :
    diffArray index old (old ++ more) = insertFrom (index + old.length) more := by
  induction old generalizing index with
  | nil => cases more <;> simp [diffArray]
  | cons first olds ih =>
    have rest := ih (index + 1)
    simp only [List.cons_append, diffArray, if_pos, rest, List.length_cons]
    congr 1
    omega

/-- A successful addition does what it is for exactly when there was a list to add to, or there
still are no others. -/
theorem added_iff {read current after : Option (List String)}
    (applied : applyFinalizerOps (diffFinalizers read (some (read.getD [] ++ [finalizer])))
      current = some after) (lacks : finalizer ∉ read.getD []) :
    FinalizerAdded current after ↔ (read = none → otherFinalizers (current.getD []) = []) := by
  have alone : otherFinalizers [finalizer] = [] := by decide
  cases read with
  | none =>
    -- The whole list is put in place, whatever was there.
    have put : some (some [finalizer]) = some after := applied
    obtain rfl := Option.some.inj put
    have listed : finalizer ∈ [finalizer] := List.mem_singleton.mpr rfl
    constructor
    · intro added _
      exact added.2.symm.trans alone
    · intro empty
      exact ⟨listed, alone.trans (empty rfl).symm⟩
  | some list =>
    have inserted : applyFinalizerOps [.addAt list.length finalizer] current = some after := by
      have ops := diffArray_append 0 list [finalizer]
      rw [Nat.zero_add] at ops
      rw [← applied]
      exact congrArg (applyFinalizerOps · current) ops.symm
    have vacuous : some list = none → otherFinalizers (current.getD []) = [] := by
      intro absent
      cases absent
    refine ⟨fun _ => vacuous, fun _ => ?_⟩
    cases current with
    | none => cases inserted
    | some entries =>
      by_cases fits : list.length ≤ entries.length
      · have result : some (some (entries.insertIdx list.length finalizer)) = some after := by
          simpa [applyFinalizerOps, FinalizerOp.apply, fits] using inserted
        obtain rfl := Option.some.inj result
        have listed : finalizer ∈ entries.insertIdx list.length finalizer :=
          (List.mem_insertIdx fits).mpr (.inl rfl)
        exact ⟨listed, otherFinalizers_insertIdx entries list.length⟩
      · simp [applyFinalizerOps, FinalizerOp.apply, fits] at inserted

/-- A patch of an object that succeeds removes the finalizer and nothing else, if and only if the
others have not moved since the list was read. -/
def RemovesFinalizer (read : List String) (server : Server) : (call : Call) → Reply call → Prop
  | .api (.jsonPatch api name _), .ok written => ∀ stored,
    server.objects (api.key name) = some stored →
      (FinalizerRemoved stored.object.metadata.finalizers written.metadata.finalizers ↔
        Unmoved read stored.object.metadata.finalizerList)
  | _, _ => True

/-- Anything may happen between the calls of a program, and any request may fail. -/
@[reducible] def meanwhile (maker : Option ObjectSyncRef)
    (guarantee : Server → (call : Call) → Reply call → Prop) : Contract Call Reply Server where
  rely := fun _ _ => True
  answers := fun before call reply after => answersBy (Faulty maker) before call reply after
  guarantee := fun before call reply _ => guarantee before call reply

/-- A patch of an object that succeeds has been applied to its finalizers. -/
theorem Served.patched {maker : Option ObjectSyncRef} {server after : Server} {api : DynamicApi}
    {name : String} {patch : List FinalizerOp} {written : DynamicObject} {stored : Stored}
    (served : Served maker server (.jsonPatch api name patch) (.ok written) after)
    (found : server.objects (api.key name) = some stored) :
    applyFinalizerOps patch stored.object.metadata.finalizers =
      some written.metadata.finalizers := by
  obtain ⟨choice, eq⟩ := served
  simp only [Server.serve, found] at eq
  cases applied : applyFinalizerOps patch stored.object.metadata.finalizers with
  | none =>
    rw [applied] at eq
    cases (Prod.mk.inj eq).1
  | some finalizers =>
    rw [applied] at eq
    have same : choice.finalized stored.object finalizers = written :=
      Except.ok.inj (Prod.mk.inj eq).1
    rw [← same]
    rfl

/-- Where a list has the finalizer, it is there. -/
theorem ObjectMeta.finalizers_of_mem {metadata : ObjectMeta}
    (listed : finalizer ∈ metadata.finalizerList) :
    metadata.finalizers = some metadata.finalizerList := by
  cases present : metadata.finalizers with
  | none => simp [ObjectMeta.finalizerList, present] at listed
  | some finalizers => simp [ObjectMeta.finalizerList, present]

/-- Removing the finalizer from an object sends one patch at most, computed from what was read. -/
theorem wp_removeFinalizer_meanwhile (maker : Option ObjectSyncRef) (api : DynamicApi)
    (source : DynamicObject) (server : Server) :
    (removeFinalizer api source finalizer).wp
      (meanwhile maker (RemovesFinalizer source.metadata.finalizerList)) (fun _ _ => True)
      server := by
  unfold removeFinalizer
  dsimp only
  split
  · rename_i fewer
    have listed : finalizer ∈ source.metadata.finalizerList := by
      apply Classical.byContradiction
      intro lacks
      have all := otherFinalizers_eq_self lacks
      exact fewer (congrArg List.length all)
    rw [ObjectMeta.finalizers_of_mem listed, wp_api]
    intro before _ reply after answered
    constructor
    · cases reply with
      | error e => trivial
      | ok written =>
        intro stored found
        have applied := (Faulty.of_ok answered).patched found
        exact removed_iff listed applied
    · cases reply with
      | ok written => trivial
      | error e =>
        dsimp only
        split <;> trivial
  · trivial

/-- Resource versions tell what was read: an ObjectSync of the version that was read has the
finalizers that were read, and once it has another version it does not get the old one back. -/
structure Versioned (read latest current : ObjectSync) : Prop where
  same : latest.metadata.resourceVersion = read.metadata.resourceVersion →
    latest.metadata.finalizers = read.metadata.finalizers
  newer : latest.metadata.resourceVersion ≠ read.metadata.resourceVersion →
    current.metadata.resourceVersion ≠ read.metadata.resourceVersion

/-- The server with the ObjectSync that a patch is computed from. -/
structure Reading where
  server : Server
  latest : Option ObjectSync

/-- A patch of an ObjectSync that succeeds makes an edit, if and only if its current finalizers
meet a condition. -/
def EditsFinalizer (read : ObjectSync) (edit : Option (List String) → Option (List String) → Prop)
    (condition : Option (List String) → Prop) (reading : Reading) :
    (call : Call) → Reply call → Prop
  | .api (.jsonPatchSync sync _), .ok written => ∀ latest current, reading.latest = some latest →
    reading.server.syncs sync = some current → Versioned read latest current →
      (edit current.metadata.finalizers written.metadata.finalizers ↔
        condition current.metadata.finalizers)
  | _, _ => True

/-- The ObjectSync that was read last. -/
def latestRead (latest : Option ObjectSync) : (call : Call) → Reply call → Option ObjectSync
  | .api (.getSync _), .ok sync => some sync
  | _, _ => latest

/-- Anything may happen between the calls of a program, and any request may fail. -/
@[reducible] def meanwhileReading (maker : Option ObjectSyncRef)
    (guarantee : Reading → (call : Call) → Reply call → Prop) : Contract Call Reply Reading where
  rely := fun before after => before.latest = after.latest
  answers := fun before call reply after =>
    answersBy (Faulty maker) before.server call reply after.server ∧
      after.latest = latestRead before.latest call reply
  guarantee := fun before call reply _ => guarantee before call reply

/-- A patch of an ObjectSync that succeeds has been applied to its finalizers, at the resource
version that it asks for. -/
theorem Served.patchedSync {maker : Option ObjectSyncRef} {server after : Server}
    {sync : NamespacedName} {patch : ObjectSyncPatch} {written current : ObjectSync}
    (served : Served maker server (.jsonPatchSync sync patch) (.ok written) after)
    (found : server.syncs sync = some current) :
    applyFinalizerOps patch.finalizers current.metadata.finalizers =
        some written.metadata.finalizers ∧
      ∀ version, patch.resourceVersion = some version →
        version = current.metadata.resourceVersion := by
  obtain ⟨choice, eq⟩ := served
  simp only [Server.serve, found] at eq
  cases applied : applyFinalizerOps patch.finalizers current.metadata.finalizers with
  | none =>
    rw [applied] at eq
    cases (Prod.mk.inj eq).1
  | some finalizers =>
    rw [applied] at eq
    dsimp only at eq
    split at eq
    · cases (Prod.mk.inj eq).1
    · rename_i agrees
      have same : choice.patched current patch finalizers = written :=
        Except.ok.inj (Prod.mk.inj eq).1
      constructor
      · rw [← same]
        rfl
      · intro version asked
        rw [asked] at agrees
        simpa using agrees

/-- A patch of the finalizers alone is computed from the list that was read, or is refused. -/
theorem wp_patchSpec_meanwhile {maker : Option ObjectSyncRef} {event : ObjectSyncModifications}
    {finalizers : List String} {edit : Option (List String) → Option (List String) → Prop}
    {condition : Option (List String) → Prop}
    (exact_ : ∀ current after, applyFinalizerOps (diffFinalizers event.modified.metadata.finalizers
      (some finalizers)) current = some after → (edit current after ↔ condition current))
    (reading : Reading) :
    (ObjectSyncController.setFinalizers event finalizers).patchSpec.wp
      (meanwhileReading maker (EditsFinalizer event.modified edit condition)) (fun _ _ => True)
      reading := by
  unfold ObjectSyncModifications.patchSpec
  split
  · unfold ObjectSyncModifications.patchSpecNow
    rw [wp_api]
    intro before _ reply middle answered
    refine ⟨trivial, ?_⟩
    cases reply with
    | error e => trivial
    | ok latest =>
      have known : middle.latest = some latest := answered.2
      dsimp only
      unfold ObjectSyncModifications.getSpecPatch
      dsimp only
      by_cases nothing : (ObjectSyncPatch.diff latest
          (ObjectSyncController.setFinalizers event finalizers).modified).isEmpty = true
      · rw [if_pos nothing]
        trivial
      · rw [if_neg nothing, wp_api]
        intro later same reply after answered
        constructor
        · cases reply with
          | error e => trivial
          | ok written =>
            intro latest' current found there versioned
            have agrees : some latest' = some latest := found.symm.trans (same.symm.trans known)
            obtain rfl := Option.some.inj agrees
            have patched := (Faulty.of_ok answered.1).patchedSync there
            have fresh : latest'.metadata.resourceVersion =
                event.modified.metadata.resourceVersion := by
              apply Classical.byContradiction
              intro stale
              have asked : (ObjectSyncPatch.diff latest'
                  (ObjectSyncController.setFinalizers event finalizers).modified).resourceVersion =
                  some event.modified.metadata.resourceVersion := if_neg stale
              exact versioned.newer stale (patched.2 _ asked).symm
            have computed : (ObjectSyncPatch.diff latest'
                (ObjectSyncController.setFinalizers event finalizers).modified).finalizers =
                diffFinalizers event.modified.metadata.finalizers (some finalizers) := by
              rw [← versioned.same fresh]
              rfl
            have applied := patched.1
            rw [computed] at applied
            exact exact_ _ _ applied
        · cases reply <;> trivial
  · trivial

/-- Removing the finalizer from an ObjectSync sends one patch at most. -/
theorem wp_removeSyncFinalizer_meanwhile (maker : Option ObjectSyncRef)
    (event : ObjectSyncModifications) (reading : Reading) :
    (ObjectSyncController.removeFinalizer event).wp
      (meanwhileReading maker (EditsFinalizer event.modified FinalizerRemoved fun current =>
        Unmoved event.modified.metadata.finalizerList (current.getD []))) (fun _ _ => True)
      reading := by
  unfold ObjectSyncController.removeFinalizer
  dsimp only
  split
  · rename_i fewer
    have listed : finalizer ∈ event.modified.metadata.finalizerList := by
      apply Classical.byContradiction
      intro lacks
      have all := otherFinalizers_eq_self lacks
      exact fewer (congrArg List.length all)
    rw [wp_bind]
    refine wp_imp (fun _ _ _ => trivial) (wp_patchSpec_meanwhile ?_ reading)
    intro current after applied
    rw [ObjectMeta.finalizers_of_mem listed] at applied
    exact removed_iff listed applied
  · trivial

/-- Adding the finalizer to an ObjectSync sends one patch at most. -/
theorem wp_addSyncFinalizer_meanwhile (maker : Option ObjectSyncRef)
    (event : ObjectSyncModifications) (reading : Reading) :
    (ObjectSyncController.addFinalizerIfMissing event).wp
      (meanwhileReading maker (EditsFinalizer event.modified FinalizerAdded fun current =>
        event.modified.metadata.finalizers = none → otherFinalizers (current.getD []) = []))
      (fun _ _ => True) reading := by
  unfold ObjectSyncController.addFinalizerIfMissing
  dsimp only
  split
  · trivial
  · rename_i lacks
    rw [wp_bind]
    refine wp_imp (fun _ _ _ => trivial) (wp_patchSpec_meanwhile ?_ reading)
    intro current after applied
    exact added_iff applied lacks

/-- **Finalizer edits.** Whatever other clients do meanwhile, a patch that succeeds in removing the
finalizer leaves all others if and only if these have not moved since the list was read, and a patch
that succeeds in adding it leaves all others if and only if a list was read or there still are no
others. -/
theorem finalizer_edits_iff (maker : Option ObjectSyncRef) (api : DynamicApi)
    (source : DynamicObject) (event : ObjectSyncModifications) (server : Server)
    (reading : Reading) :
    (removeFinalizer api source finalizer).wp
        (meanwhile maker (RemovesFinalizer source.metadata.finalizerList)) (fun _ _ => True)
        server ∧
      (ObjectSyncController.removeFinalizer event).wp
        (meanwhileReading maker (EditsFinalizer event.modified FinalizerRemoved fun current =>
          Unmoved event.modified.metadata.finalizerList (current.getD []))) (fun _ _ => True)
        reading ∧
      (ObjectSyncController.addFinalizerIfMissing event).wp
        (meanwhileReading maker (EditsFinalizer event.modified FinalizerAdded fun current =>
          event.modified.metadata.finalizers = none → otherFinalizers (current.getD []) = []))
        (fun _ _ => True) reading :=
  ⟨wp_removeFinalizer_meanwhile maker api source server,
    wp_removeSyncFinalizer_meanwhile maker event reading,
    wp_addSyncFinalizer_meanwhile maker event reading⟩

/-- A config map with some finalizers. -/
def finalizedSettings (finalizers : List String) : DynamicObject :=
  ⟨none, { name := some "settings", namespace_ := some "default", finalizers := some finalizers },
    []⟩

/-- The server when another client has put its finalizer in front. -/
def shiftedServer : Server :=
  Server.empty.put ⟨"", "ConfigMap", "default", "settings"⟩
    (some ⟨finalizedSettings ["other/b", finalizer, "other/a"], none⟩)
    (by rintro _ ⟨⟩; exact ⟨rfl, rfl⟩)

/-- Removing the finalizer, as it was read before, succeeds and takes the finalizer of the other
client away. -/
theorem shiftedServer_loses_finalizer :
    let ended := (removeFinalizer (configMaps.namespacedApi "default")
      (finalizedSettings [finalizer, "other/a"]) finalizer).run
        (Server.answer none ⟨"u", "2", 0, []⟩ [] "now") shiftedServer
    ended.1.2 = .ok true ∧
      (ended.2.objects ⟨"", "ConfigMap", "default", "settings"⟩).map
        (·.object.metadata.finalizers) = some (some ["other/a", "other/a"]) ∧
      ¬FinalizerRemoved (some ["other/b", finalizer, "other/a"])
        (some ["other/a", "other/a"]) := by
  refine ⟨by decide +kernel, by decide +kernel, ?_⟩
  unfold FinalizerRemoved
  decide +kernel

end ObjectSyncer
