import ObjectSyncer.FinalizerPatch
import ObjectSyncer.SourceFinalizer

/-!
# Whose source an object is

A run for an object asks the registry which ObjectSyncs are registered for it, and fetches them to
see which of them still have it as their source. Whether it is held or released depends on how these
answers are folded into one list, and whether the release takes the finalizer from the object
depends on the positions in the cached list of finalizers.
-/
namespace ObjectSyncer

open Interaction Interaction.Program

/-- What is registered for an object. -/
def FindsRegistered (registered : List ObjectSyncRef) : (call : Call) → Reply call → Prop
  | .memory (.lookup _ _), reply => reply.getD [] = registered
  | _, _ => True

/-- Every fetch of an ObjectSync succeeds or reports that it does not exist. -/
def Fetches : (call : Call) → Reply call → Prop
  | .api (.getSync _), .error e => e.isNotFound
  | _, _ => True

/-- A call writes an object other than by editing its finalizers. -/
def WritesObject (key : ObjectKey) : Call → Prop
  | .api (.create api body) => api.key body.metadata.nameAny = key
  | .api (.replace api name _) | .api (.apply api name _) => api.key name = key
  | _ => False

/-- The server during a run for an object, with the calls of the run so far. -/
structure ReleaseRun where
  server : Server
  calls : List (Option ObjectSyncRef × Call)
  /-- The patch that releases the object was carried out. -/
  released : Prop

/-- The entries of an overlay come from the new list or from the current one. -/
theorem mem_overlay {old new current : List String} {entry : String}
    (member : entry ∈ overlay old new current) : entry ∈ new ∨ entry ∈ current := by
  induction old generalizing new current with
  | nil =>
    cases new <;> simp [overlay] at member
  | cons first olds ih =>
    cases new with
    | nil => simp [overlay] at member
    | cons first' news =>
      cases current with
      | nil => simp [overlay] at member
      | cons head rest =>
        rcases List.mem_cons.mp member with same | later
        · split at same
          · exact .inr (List.mem_cons.mpr (.inl same))
          · exact .inl (List.mem_cons.mpr (.inl same))
        · rcases ih later with left | right
          · exact .inl (List.mem_cons_of_mem _ left)
          · exact .inr (List.mem_cons_of_mem _ right)

/-- A removal brings the finalizer to no list. -/
theorem not_mem_of_removal {read : List String} (listed : finalizer ∈ read)
    {current after : Option (List String)}
    (applied : applyFinalizerOps (diffFinalizers (some read) (some (otherFinalizers read)))
      current = some after) (lacks : finalizer ∉ current.getD []) : finalizer ∉ after.getD [] := by
  have less := length_otherFinalizers_lt listed
  cases current with
  | none =>
    have failed := @applyFinalizerOps_absent read _ 0 less
    exact absurd (failed.symm.trans applied) (by simp)
  | some list =>
    by_cases long : read.length ≤ list.length
    · have overlaid := applyFinalizerOps_shortening [] read _ list less long
      rw [List.nil_append, List.nil_append] at overlaid
      have same : some after = some (some (overlay read (otherFinalizers read) list ++
          list.drop read.length)) := applied.symm.trans overlaid
      rw [Option.some.inj same, Option.getD_some]
      intro member
      rcases List.mem_append.mp member with within | beyond
      · rcases mem_overlay within with left | right
        · exact not_mem_otherFinalizers read left
        · exact lacks right
      · exact lacks (List.mem_of_mem_drop beyond)
    · have failed := @applyFinalizerOps_short read _ list 0 less (by omega)
      exact absurd (failed.symm.trans applied) (by simp)

/-- A patch of the finalizers that is carried out leaves its object with the patched list. -/
theorem Served.patched_carries {maker : Option ObjectSyncRef} {server after : Server}
    {api : DynamicApi} {name : String} {patch : List FinalizerOp} {written : DynamicObject}
    (served : Served maker server (.jsonPatch api name patch) (.ok written) after) :
    ∃ stored finalizers, server.objects (api.key name) = some stored ∧
      applyFinalizerOps patch stored.object.metadata.finalizers = some finalizers ∧
      (after.CarriesFinalizer (api.key name) ↔ finalizer ∈ finalizers.getD []) := by
  obtain ⟨choice, eq⟩ := served
  cases found : server.objects (api.key name) with
  | none =>
    simp only [Server.serve, found] at eq
    cases (Prod.mk.inj eq).1
  | some stored =>
    simp only [Server.serve, found] at eq
    cases applied : applyFinalizerOps patch stored.object.metadata.finalizers with
    | none =>
      rw [applied] at eq
      cases (Prod.mk.inj eq).1
    | some finalizers =>
      rw [applied] at eq
      refine ⟨stored, finalizers, rfl, applied, ?_⟩
      rw [← (Prod.mk.inj eq).2]
      unfold Server.CarriesFinalizer
      rw [Server.write_objects, Function.update_self, found, Option.bind_some]
      constructor
      · rintro ⟨stored', settled, member⟩
        unfold Stored.settled at settled
        split at settled
        · cases settled
        · cases settled
          exact member
      · intro member
        refine ⟨{ stored with object := choice.finalized stored.object finalizers }, ?_, member⟩
        have filled : (choice.finalized stored.object finalizers).metadata.finalizerList.isEmpty =
            false := List.isEmpty_eq_false_iff.mpr (List.ne_nil_of_mem member)
        rw [Stored.settled, ObjectMeta.gone, filled, Bool.and_false]
        exact if_neg Bool.false_ne_true

namespace ResourceControllerImpl

/-- Some registered ObjectSync exists and has the object as its source. -/
def Referenced (self : ResourceControllerImpl) (source : DynamicObject)
    (registered : List ObjectSyncRef) (server : Server) : Prop :=
  ∃ r ∈ registered, ∃ sync, server.syncs r.name = some sync ∧
    sync.sourceKey = self.sourceKey (.ofObject source)

/-- The patch that takes the finalizer from the object, as it is cached. -/
def releasePatch (source : DynamicObject) : List FinalizerOp :=
  diffFinalizers source.metadata.finalizers
    (some (source.metadata.finalizerList.filter (· != finalizer)))

/-- The call by which a run takes its finalizer from the object. -/
def releaseCall (self : ResourceControllerImpl) (source : DynamicObject) :
    Option ObjectSyncRef × Call :=
  (none, .api (.jsonPatch (self.namespacedApi (SourceRef.ofObject source).name.namespace_)
    source.metadata.nameAny (releasePatch source)))

/-- The object is a copy that is not deleted. -/
def LiveCopied (source : DynamicObject) : Prop :=
  isCopy source = true ∧ source.metadata.terminating = false

/-- The object is written only if it is referenced. Otherwise it is left without the finalizer,
unless it is a live copy, and not requeued as a source. -/
def TreatedAsDue (self : ResourceControllerImpl) (source : DynamicObject)
    (registered : List ObjectSyncRef) (server : Server) (action : Action) (after : ReleaseRun) :
    Prop :=
  ((∃ call ∈ after.calls, WritesObject (self.sourceKey (.ofObject source)) call.2) →
    self.Referenced source registered server) ∧
  (¬self.Referenced source registered server →
    (¬LiveCopied source → ¬after.server.CarriesFinalizer (self.sourceKey (.ofObject source))) ∧
    action ≠ .requeue fullReconcileIntervalSecs)

/-- Where the server has the finalizer on the object, the cached object lists it, the patch is
carried out, and applied to the finalizers on the server it leaves none of the controller. -/
def ReleaseTakesEffect (self : ResourceControllerImpl) (source : DynamicObject) (server : Server)
    (released : Prop) : Prop :=
  server.CarriesFinalizer (self.sourceKey (.ofObject source)) →
    finalizer ∈ source.metadata.finalizerList ∧ released ∧
      ∀ stored, server.objects (self.sourceKey (.ofObject source)) = some stored →
        ∀ finalizers, applyFinalizerOps (releasePatch source) stored.object.metadata.finalizers =
          some finalizers → finalizer ∉ finalizers.getD []

/-- Runs for an object while nobody else writes it or an ObjectSync. Every fetch of an ObjectSync is
answered; other requests may fail. -/
@[reducible] def releasing (self : ResourceControllerImpl) (source : DynamicObject)
    (registered : List ObjectSyncRef) :
    Contract (Option ObjectSyncRef × Call) (fun call => Reply call.2) ReleaseRun where
  rely := fun before after =>
    after.server.objects (self.sourceKey (.ofObject source)) =
        before.server.objects (self.sourceKey (.ofObject source)) ∧
      after.server.syncs = before.server.syncs ∧ after.calls = before.calls ∧
      (after.released ↔ before.released)
  answers := fun before call reply after =>
    answersBy (Faulty call.1) before.server call.2 reply after.server ∧
      FindsRegistered registered call.2 reply ∧ Fetches call.2 reply ∧
      after.calls = before.calls ++ [call] ∧
      (after.released ↔ before.released ∨ call = self.releaseCall source ∧
        CarriedOut call.1 before.server call.2 after.server)
  guarantee := fun _ _ _ _ => True

section Unreferenced

variable {self : ResourceControllerImpl} {source : DynamicObject} {registered : List ObjectSyncRef}
  {server : Server} {state : ReleaseRun}

/-- The run has only read so far. -/
structure Untouched (controller : ResourceControllerImpl) (source : DynamicObject) (server : Server)
    (state : ReleaseRun) : Prop where
  object : state.server.objects (controller.sourceKey (.ofObject source)) =
    server.objects (controller.sourceKey (.ofObject source))
  reads : ∀ call ∈ state.calls, ¬WritesObject (controller.sourceKey (.ofObject source)) call.2
  unreleased : ¬state.released

/-- The environment leaves the object alone. -/
theorem Untouched.moved {moved : ReleaseRun} (untouched : Untouched self source server state)
    (moves : (self.releasing source registered).rely state moved) :
    Untouched self source server moved := by
  obtain ⟨object, -, calls, released⟩ := moves
  refine ⟨object.trans untouched.object, ?_, fun done => untouched.unreleased (released.mp done)⟩
  rw [calls]
  exact untouched.reads

/-- A call that reads leaves the object alone. -/
theorem Untouched.answered {after : ReleaseRun} {call : Call} {reply : Reply call}
    (untouched : Untouched self source server state)
    (reads : ∀ request, call = .api request → request.target = none)
    (answered : (self.releasing source registered).answers state (none, call) reply after) :
    Untouched self source server after := by
  obtain ⟨served, -, -, calls, released⟩ := answered
  have silent : ¬WritesObject (self.sourceKey (.ofObject source)) call := by
    cases call with
    | api request =>
      have none_ := reads request rfl
      cases request with
      | create | replace | apply => cases none_
      | _ => exact id
    | _ => exact id
  refine ⟨?_, ?_, ?_⟩
  · refine Eq.trans ?_ untouched.object
    cases call with
    | api request =>
      have other : request.target ≠ some (self.sourceKey (.ofObject source)) := by
        rw [reads request rfl]
        exact (Option.some_ne_none _).symm
      exact (Faulty.effect served).objects_eq other
    | _ => exact congrArg (fun server : Server => server.objects _) served
  · rw [calls]
    intro other member
    rcases List.mem_append.mp member with earlier | last
    · exact untouched.reads other earlier
    · rw [List.mem_singleton.mp last]
      exact silent
  · intro done
    rcases released.mp done with earlier | ⟨same, -⟩
    · exact untouched.unreleased earlier
    · have target := reads _ (Prod.mk.inj same).2
      cases target

/-- Any program keeps to the account of released sources. -/
theorem wp_releasing {α : Type} (program : LabelledAsync α) :
    program.wp (self.releasing source registered) (fun _ _ => True) state :=
  @wp_invariant _ _ _ _ (self.releasing source registered) (fun _ => True) program _
    (fun _ _ _ _ => trivial) (fun _ _ _ _ _ _ => ⟨trivial, trivial⟩) trivial

/-- The lookup finds a list exactly when the object lies in a source namespace and something is
registered for it. -/
theorem wp_lookup_releasing (untouched : Untouched self source server state) :
    (self.lookupObjectSyncsForSource (.ofObject source)).wp
      ((self.releasing source registered).under none) (fun found after =>
        found.isSome = (self.isSourceNamespace (SourceRef.ofObject source).name.namespace_ &&
          !registered.isEmpty) ∧ Untouched self source server after) state := by
  have shape : (self.lookupObjectSyncsForSource (.ofObject source)).wp
      (.requests (FindsRegistered registered) fun call => ∀ request, call = .api request →
        request.target = none)
      (fun found _ => found.isSome = (self.isSourceNamespace
        (SourceRef.ofObject source).name.namespace_ && !registered.isEmpty)) () := by
    unfold lookupObjectSyncsForSource
    cases inside : self.isSourceNamespace (SourceRef.ofObject source).name.namespace_ with
    | false => rfl
    | true =>
      rw [if_pos rfl, wp_memory]
      intro _ _ refs _ known
      have looked : refs.getD [] = registered := known
      refine ⟨fun _ same => (by cases same), ?_⟩
      cases refs with
      | none =>
        have empty : registered = [] := looked.symm
        rw [empty]
        rfl
      | some refs =>
        have same : refs = registered := looked
        subst same
        cases refs with
        | nil => rfl
        | cons r refs =>
          dsimp only
          rw [if_neg (by simp), wp_bind]
          refine wp_imp (fun _ _ _ => rfl) (@ResourceControllerImpl.wp_fetchObjectSyncs
            (FindsRegistered (r :: refs)) _ (fun _ _ => True) (fun _ _ _ => trivial) _ (r :: refs)
            ?_)
          rintro r' _ request ⟨⟩
          rfl
  refine wp_requests shape (fun _ _ _ _ answered => answered.2.1)
    (fun _ _ => @Untouched.moved self source registered server _ _) ?_ untouched
  intro before call reply after known reads answered
  exact ⟨trivial, known.answered reads answered⟩

/-- What a run that may release its source leaves of the finalizer. -/
structure Freed (controller : ResourceControllerImpl) (source : DynamicObject) (server : Server)
    (after : ReleaseRun) : Prop where
  reads : ∀ call ∈ after.calls, ¬WritesObject (controller.sourceKey (.ofObject source)) call.2
  exact_ : ¬after.server.CarriesFinalizer (controller.sourceKey (.ofObject source)) ↔
    controller.ReleaseTakesEffect source server after.released

/-- The finalizer of an object that was not touched. -/
theorem Untouched.carries_iff (untouched : Untouched self source server state) :
    state.server.CarriesFinalizer (self.sourceKey (.ofObject source)) ↔
      server.CarriesFinalizer (self.sourceKey (.ofObject source)) := by
  unfold Server.CarriesFinalizer
  rw [untouched.object]

/-- A release that is not carried out leaves the finalizer. -/
theorem releaseTakesEffect_of_not {released : Prop} (kept : ¬released) :
    self.ReleaseTakesEffect source server released ↔
      ¬server.CarriesFinalizer (self.sourceKey (.ofObject source)) := by
  constructor
  · exact fun releases carries => kept (releases carries).2.1
  · exact fun lacks carries => absurd carries lacks

/-- The answer to a release tells nothing, but its effect is as computed from the two lists. -/
theorem Untouched.released {after : ReleaseRun} {reply : Except KubeError DynamicObject}
    (untouched : Untouched self source server state)
    (listed : finalizer ∈ source.metadata.finalizerList)
    (answered : (self.releasing source registered).answers state (self.releaseCall source) reply
      after) : Freed self source server after := by
  obtain ⟨faulty, -, -, calls, released⟩ := answered
  have done : after.released ↔ CarriedOut none state.server (self.releaseCall source).2
      after.server :=
    released.trans ((or_iff_right untouched.unreleased).trans (and_iff_right rfl))
  constructor
  · rw [calls]
    intro other member
    rcases List.mem_append.mp member with earlier | last
    · exact untouched.reads other earlier
    · rw [List.mem_singleton.mp last]
      exact id
  · by_cases carried : CarriedOut none state.server (self.releaseCall source).2 after.server
    · obtain ⟨written, served⟩ := carried
      obtain ⟨stored, finalizers, found, applied, carries⟩ := served.patched_carries
      have found' : server.objects (self.sourceKey (.ofObject source)) = some stored :=
        untouched.object.symm.trans found
      have removal : applyFinalizerOps (diffFinalizers (some source.metadata.finalizerList)
          (some (otherFinalizers source.metadata.finalizerList)))
            stored.object.metadata.finalizers =
          some finalizers := by
        rw [← ObjectMeta.finalizers_of_mem listed]
        exact applied
      have kept : ¬after.server.CarriesFinalizer (self.sourceKey (.ofObject source)) ↔
          finalizer ∉ finalizers.getD [] := not_congr carries
      rw [kept]
      constructor
      · intro lacks _
        refine ⟨listed, done.mpr ⟨written, served⟩, fun stored' found'' finalizers' applied' => ?_⟩
        obtain rfl := Option.some.inj (found'.symm.trans found'')
        obtain rfl := Option.some.inj (applied.symm.trans applied')
        exact lacks
      · intro releases
        by_cases had : server.CarriesFinalizer (self.sourceKey (.ofObject source))
        · exact (releases had).2.2 stored found' finalizers applied
        · exact not_mem_of_removal listed removal fun member => had ⟨stored, found', member⟩
    · rcases Faulty.same_or_carriedOut faulty with same | carried'
      · rw [same, releaseTakesEffect_of_not (fun given => carried (done.mp given)),
          untouched.carries_iff]
      · exact absurd carried' carried

/-- ReleaseRun the object takes the finalizer from it exactly as far as the two lists agree. -/
theorem wp_removeFinalizer_releasing (untouched : Untouched self source server state) :
    (removeFinalizer (self.namespacedApi (SourceRef.ofObject source).name.namespace_)
      (ensureGvk source self.gvk) finalizer).wp ((self.releasing source registered).under none)
      (fun _ after => Freed self source server after) state := by
  by_cases listed : finalizer ∈ source.metadata.finalizerList
  · have listed' : finalizer ∈ (ensureGvk source self.gvk).metadata.finalizerList := listed
    rw [removeFinalizer_of_mem listed', wp_api]
    intro moved moves reply after answered
    have still := @Untouched.moved self source registered server _ _ untouched moves
    have released : Freed self source server after := still.released listed answered
    refine ⟨trivial, ?_⟩
    cases reply with
    | ok object => exact released
    | error e =>
      dsimp only
      split <;> exact released
  · have lacked : finalizer ∉ (ensureGvk source self.gvk).metadata.finalizerList := listed
    rw [removeFinalizer_of_not_mem lacked]
    refine ⟨untouched.reads, ?_⟩
    rw [releaseTakesEffect_of_not untouched.unreleased, untouched.carries_iff]

/-- A run with a list of ObjectSyncs ends by requeueing the object as a source. -/
theorem wp_tracked_releasing {objs : List ObjectSyncModifications} :
    (if (ensureGvk source self.gvk).metadata.terminating then do
      let allSucceeded ← deleteAll objs
      if allSucceeded then do
        let _ ← (removeFinalizer (self.namespacedApi (SourceRef.ofObject source).name.namespace_)
          (ensureGvk source self.gvk) finalizer).label none
        return .requeue fullReconcileIntervalSecs
      else return .requeue fullReconcileIntervalSecs
    else do
      let (source, _) ← (addFinalizerIfMissing
        (self.namespacedApi (SourceRef.ofObject source).name.namespace_)
        (ensureGvk source self.gvk) finalizer).label none
      self.reconcileAll source objs
      return .requeue fullReconcileIntervalSecs : LabelledAsync Action).wp
      (self.releasing source registered)
      (fun action _ => action = .requeue fullReconcileIntervalSecs) state := by
  split
  · rw [wp_bind]
    refine wp_imp (fun allSucceeded _ _ => ?_) (wp_releasing _)
    cases allSucceeded with
    | true =>
      rw [if_pos rfl, wp_bind]
      exact wp_imp (fun _ _ _ => rfl) (wp_releasing _)
    | false => rfl
  · rw [wp_bind]
    refine wp_imp (fun kept _ _ => ?_) (wp_releasing _)
    dsimp only
    rw [wp_bind]
    exact wp_imp (fun _ _ _ => rfl) (wp_releasing _)

/-- Requeueing an object as a source is due if and only if it is referenced. -/
theorem treatedAsDue_requeued_iff :
    self.TreatedAsDue source registered server (.requeue fullReconcileIntervalSecs) state ↔
      self.Referenced source registered server := by
  constructor
  · intro due
    by_contra unreferenced
    exact (due.2 unreferenced).2 rfl
  · intro referenced
    exact ⟨fun _ => referenced, fun unreferenced => absurd referenced unreferenced⟩

/-- A run that reads and does not requeue the object as a source treats it as due exactly if it is
referenced, a live copy, or left without the finalizer. -/
theorem treatedAsDue_iff {action : Action}
    (reads : ∀ call ∈ state.calls, ¬WritesObject (self.sourceKey (.ofObject source)) call.2)
    (untracked : action ≠ .requeue fullReconcileIntervalSecs) :
    self.TreatedAsDue source registered server action state ↔
      self.Referenced source registered server ∨ LiveCopied source ∨
        ¬state.server.CarriesFinalizer (self.sourceKey (.ofObject source)) := by
  constructor
  · intro due
    by_cases referenced : self.Referenced source registered server
    · exact .inl referenced
    · right
      by_cases live : LiveCopied source
      · exact .inl live
      · exact .inr ((due.2 referenced).1 live)
  · intro known
    refine ⟨fun written => ?_, fun unreferenced => ⟨fun live => ?_, untracked⟩⟩
    · obtain ⟨call, member, writes⟩ := written
      exact absurd writes (reads call member)
    · rcases known with referenced | live' | lacks
      · exact absurd referenced unreferenced
      · exact absurd live' live
      · exact lacks

/-- A run without a list of ObjectSyncs releases the object, unless it is a live copy. -/
theorem wp_untracked_releasing (untouched : Untouched self source server state) :
    (if !isCopy (ensureGvk source self.gvk) ||
        (ensureGvk source self.gvk).metadata.terminating then do
      match ← (removeFinalizer (self.namespacedApi (SourceRef.ofObject source).name.namespace_)
        (ensureGvk source self.gvk) finalizer).label none with
      | (_, .error _) => return .requeue 5
      | (_, .ok _) => return .awaitChange
    else return .awaitChange : LabelledAsync Action).wp (self.releasing source registered)
      (fun action after => self.TreatedAsDue source registered server action after ↔
        self.Referenced source registered server ∨ LiveCopied source ∨
          self.ReleaseTakesEffect source server after.released) state := by
  split
  · rw [wp_bind, wp_label]
    refine wp_imp (fun value after released => ?_) (wp_removeFinalizer_releasing untouched)
    have due {action : Action} (untracked : action ≠ .requeue fullReconcileIntervalSecs) :
        self.TreatedAsDue source registered server action after ↔
          self.Referenced source registered server ∨ LiveCopied source ∨
            self.ReleaseTakesEffect source server after.released := by
      rw [← released.exact_]
      exact treatedAsDue_iff released.reads untracked
    obtain ⟨object, result⟩ := value
    cases result with
    | error e => exact due (by decide)
    | ok removed => exact due (by decide)
  · rename_i kept
    have live : LiveCopied source := by
      have both : ¬(!isCopy source || source.metadata.terminating) = true := kept
      simpa [LiveCopied] using both
    refine iff_of_true ?_ (.inr (.inl live))
    exact (treatedAsDue_iff untouched.reads (by decide)).mpr (.inr (.inl live))

end Unreferenced

/-- **Unreferenced objects.** A run in which every fetch of an ObjectSync succeeds or reports that
it does not exist, while nobody else writes the object or an ObjectSync, treats the object as due if
and only if some registered ObjectSync has it as its source, or it lies outside the source
namespaces or nothing is registered for it, and it is a live copy or its release takes effect. An
object of which all registrations are outdated is held like a source. -/
theorem reconcile_treatedAsDue_iff (self : ResourceControllerImpl) (source : DynamicObject)
    (registered : List ObjectSyncRef) (server : Server) :
    (self.reconcile source).wp (self.releasing source registered) (fun action after =>
      self.TreatedAsDue source registered server action after ↔
        self.Referenced source registered server ∨
          (self.isSourceNamespace (SourceRef.ofObject source).name.namespace_ = false ∨
            registered = []) ∧
              (LiveCopied source ∨ self.ReleaseTakesEffect source server after.released))
      ⟨server, [], False⟩ := by
  have start : Untouched self source server ⟨server, [], False⟩ :=
    ⟨rfl, fun _ member => absurd member List.not_mem_nil, id⟩
  unfold reconcile
  dsimp only
  rw [wp_bind, wp_label]
  refine wp_imp (fun found state looked => ?_) (wp_lookup_releasing start)
  obtain ⟨isSome, untouched⟩ := looked
  cases found with
  | some objs =>
    have both : self.isSourceNamespace (SourceRef.ofObject source).name.namespace_ = true ∧
        (!registered.isEmpty) = true := Bool.and_eq_true_iff.mp isSome.symm
    have registers : registered ≠ [] := by
      intro empty
      rw [empty] at both
      exact Bool.noConfusion both.2
    refine wp_imp (fun action after requeued => ?_) wp_tracked_releasing
    rw [requeued, treatedAsDue_requeued_iff, both.1]
    refine (or_iff_left ?_).symm
    rintro ⟨outside | empty, -⟩
    · exact Bool.noConfusion outside
    · exact registers empty
  | none =>
    have neither : (self.isSourceNamespace (SourceRef.ofObject source).name.namespace_ &&
        !registered.isEmpty) = false := isSome.symm
    have untracked : self.isSourceNamespace (SourceRef.ofObject source).name.namespace_ = false ∨
        registered = [] := by
      rcases Bool.and_eq_false_iff.mp neither with outside | empty
      · exact .inl outside
      · refine .inr ?_
        rw [← List.isEmpty_iff, ← Bool.not_eq_false']
        exact empty
    refine wp_imp (fun action after due => ?_) (wp_untracked_releasing untouched)
    rw [due, and_iff_right untracked]

end ResourceControllerImpl

/-- An answer with the account that follows from it. -/
theorem releasing_answers {self : ResourceControllerImpl} {source : DynamicObject}
    {registered : List ObjectSyncRef} {before : ReleaseRun} {after : Server}
    {call : Option ObjectSyncRef × Call} {reply : Reply call.2}
    (served : answersBy (Faulty call.1) before.server call.2 reply after)
    (known : FindsRegistered registered call.2 reply) (fetched : Fetches call.2 reply) :
    (self.releasing source registered).answers before call reply
      ⟨after, before.calls ++ [call], before.released ∨ call = self.releaseCall source ∧
        CarriedOut call.1 before.server call.2 after⟩ :=
  ⟨served, known, fetched, rfl, Iff.rfl⟩

/-- The settings, whose ObjectSync is gone. -/
def settingsForgotten : Server :=
  Server.empty.put (configMaps.sourceKey (.ofObject settingsSource))
    (some ⟨settingsSource, none⟩) @settingsSource_named

/-- The settings are still registered for an ObjectSync that is gone: they are held as a source. -/
theorem forgottenSource_not_released :
    ¬∀ (self : ResourceControllerImpl) source registered server,
      (self.reconcile source).wp (self.releasing source registered)
        (fun action after => self.TreatedAsDue source registered server action after)
        ⟨server, [], False⟩ := by
  intro due
  have looked := due configMaps settingsSource [settingsRef] settingsForgotten _
    ⟨rfl, rfl, rfl, Iff.rfl⟩ (some [settingsRef]) _ (releasing_answers rfl rfl trivial)
  have missing : Faulty none settingsForgotten (.getSync settingsRef.name)
      (.error (.api 404 "not found")) settingsForgotten :=
    .served ⟨⟨"u", "2", 0, []⟩, rfl⟩
  have fetched := looked.2 _ ⟨rfl, rfl, rfl, Iff.rfl⟩ (.error (.api 404 "not found")) _
    (releasing_answers missing trivial rfl)
  have refused :=
    @Faulty.refused none settingsForgotten (.apply (configMaps.namespacedApi "default") "settings"
      (finalizerPatch (ensureGvk settingsSource configMaps.gvk) finalizer))
      (.api 403 "forbidden") (by decide)
  have applied := fetched.2 _ ⟨rfl, rfl, rfl, Iff.rfl⟩ (.error (.api 403 "forbidden")) _
    (releasing_answers refused trivial trivial)
  have untracked := (applied.2.2 ?_).2
  · exact untracked rfl
  · intro referenced
    obtain ⟨r, -, sync, stored, -⟩ := referenced
    cases stored

end ObjectSyncer
