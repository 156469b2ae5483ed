import ObjectSyncer.History
import ObjectSyncer.SourceProtection

/-!
# The finalizer of a source and its copies

A run for a live source adds the finalizer and then makes the copies, whether or not the finalizer
could be added. No copy is asked for before the answer to that apply is there. But the copies are
made under the protection of the finalizer exactly when the source carried it when the run started,
or the server has carried the apply out.
-/
namespace ObjectSyncer

open Interaction Interaction.Program

/-- The object of a key carries the finalizer. -/
def Server.CarriesFinalizer (server : Server) (key : ObjectKey) : Prop :=
  ∃ stored, server.objects key = some stored ∧ finalizer ∈ stored.object.metadata.finalizerList

/-- Whether an object carries the finalizer can be computed. -/
theorem Server.carriesFinalizer_iff (server : Server) (key : ObjectKey) :
    server.CarriesFinalizer key ↔ (server.objects key).any fun stored =>
      decide (finalizer ∈ stored.object.metadata.finalizerList) := by
  simp [CarriesFinalizer, Option.any_eq_true]

/-- Whether the object of a key carries the finalizer can be computed. -/
instance (server : Server) (key : ObjectKey) : Decidable (server.CarriesFinalizer key) :=
  decidable_of_iff _ (server.carriesFinalizer_iff key).symm

/-- The server, with what a run for a source knows of its finalizer. -/
structure Guarding where
  server : Server
  /-- The cached source lists the finalizer, or the run's apply of it has been answered. -/
  asked : Prop
  /-- The source carried the finalizer when the run started, or an apply of it was carried out. -/
  ensured : Prop

/-- No ObjectSync that is read and refers to the source records it as a destination. -/
def LeavesSource (ref : SourceRef) (source : ObjectKey) : (call : Call) → Reply call → Prop
  | .api (.getSync _), .ok sync => SourceRef.ofSync sync = ref →
    ∀ d ∈ sync.destinationList, d.key ≠ source
  | _, _ => True

/-- A call for the source itself that applies the finalizer to it. -/
def AppliesFinalizer (source : ObjectKey) (call : Option ObjectSyncRef × Call) : Prop :=
  ∃ api name body, call = (none, .api (.apply api name body)) ∧ api.key name = source ∧
    finalizer ∈ body.metadata.finalizerList

/-- A call on behalf of an ObjectSync that may make an object. -/
def MakesCopy (call : Option ObjectSyncRef × Call) : Prop :=
  ∃ id request, call = (some id, .api request) ∧ request.Creates

/-- Runs while nobody else adds or removes the finalizer of the source. Whatever makes an object on
behalf of an ObjectSync is asked for after the finalizer, and the source carries the finalizer then
if and only if it is ensured. -/
@[reducible] def guarding (ref : SourceRef) (source : ObjectKey) :
    Contract (Option ObjectSyncRef × Call) (fun call => Reply call.2) Guarding where
  rely := fun before after =>
    (before.server.CarriesFinalizer source ↔ after.server.CarriesFinalizer source) ∧
      (before.asked ↔ after.asked) ∧ (before.ensured ↔ after.ensured)
  answers := fun before call reply after =>
    answersBy (Faulty call.1) before.server call.2 reply after.server ∧
      LeavesSource ref source call.2 reply ∧
      (after.asked ↔ before.asked ∨ AppliesFinalizer source call) ∧
      (after.ensured ↔ before.ensured ∨
        AppliesFinalizer source call ∧ CarriedOut call.1 before.server call.2 after.server)
  guarantee := fun before call _ _ => MakesCopy call →
    before.asked ∧ (before.server.CarriesFinalizer source ↔ before.ensured)

/-- The source carries the finalizer if and only if that is ensured. -/
def Guarding.Accurate (source : ObjectKey) (state : Guarding) : Prop :=
  state.server.CarriesFinalizer source ↔ state.ensured

/-- A configuration with the finalizer that is applied adds it. -/
theorem Served.applied_carries {maker : Option ObjectSyncRef} {server after : Server}
    {api : DynamicApi} {name : String} {body written : DynamicObject}
    (served : Served maker server (.apply api name body) (.ok written) after)
    (listed : finalizer ∈ body.metadata.finalizerList) :
    after.CarriesFinalizer (api.key name) := by
  obtain ⟨choice, eq⟩ := served
  cases found : server.objects (api.key name) with
  | none =>
    simp only [Server.serve, found] at eq
    split at eq
    · cases eq
    · have same : (server.create maker choice api name body).2 = after := (Prod.mk.inj eq).2
      refine ⟨⟨choice.created api.namespace_ name body, maker⟩, ?_, listed⟩
      rw [← same, Server.create_objects, Function.update_self]
  | some stored =>
    simp only [Server.serve, found] at eq
    split at eq
    · cases eq
    · have same := (Prod.mk.inj eq).2
      have added : finalizer ∈ (choice.applied stored.object body).metadata.finalizerList := by
        cases given : body.metadata.finalizers with
        | none =>
          rw [ObjectMeta.finalizerList, given] at listed
          cases listed
        | some finalizers =>
          rw [ObjectMeta.finalizerList, given, Option.getD_some] at listed
          simp only [Choice.applied, ObjectMeta.finalizerList, given, Option.getD_some]
          by_cases former : finalizer ∈ stored.object.metadata.finalizers.getD []
          · exact List.mem_append_left _ former
          · refine List.mem_append_right _ (List.mem_filter.mpr ⟨listed, ?_⟩)
            exact decide_eq_true former
      have remains : (choice.applied stored.object body).metadata.gone = false := by
        have filled : (choice.applied stored.object body).metadata.finalizerList.isEmpty = false :=
          List.isEmpty_eq_false_iff.mpr (List.ne_nil_of_mem added)
        rw [ObjectMeta.gone, filled, Bool.and_false]
      refine ⟨{ stored with object := choice.applied stored.object body }, ?_, added⟩
      rw [← same, Server.write_objects, Function.update_self, found, Option.bind_some,
        Stored.settled]
      exact if_neg (Bool.eq_false_iff.mp remains)

/-- An apply of the finalizer leaves the source with it exactly if it was there or the apply was
carried out. -/
theorem Faulty.carries_iff {server after : Server} {api : DynamicApi} {name : String}
    {body : DynamicObject} {reply : Except KubeError DynamicObject}
    (faulty : Faulty none server (.apply api name body) reply after)
    (listed : finalizer ∈ body.metadata.finalizerList) :
    after.CarriesFinalizer (api.key name) ↔ server.CarriesFinalizer (api.key name) ∨
      CarriedOut none server (.api (.apply api name body)) after := by
  rcases faulty.same_or_carriedOut with rfl | ⟨written, served⟩
  · constructor
    · exact .inl
    · rintro (carries | ⟨written, served⟩)
      · exact carries
      · exact served.applied_carries listed
  · exact iff_of_true (served.applied_carries listed) (.inr ⟨written, served⟩)

section Guarding

variable {α : Type} {ref : SourceRef} {source : ObjectKey} {state : Guarding}

/-- The environment leaves the account accurate. -/
theorem Guarding.Accurate.moved {moved : Guarding} (accurate : state.Accurate source)
    (carries : state.server.CarriesFinalizer source ↔ moved.server.CarriesFinalizer source)
    (ensured : state.ensured ↔ moved.ensured) : moved.Accurate source :=
  carries.symm.trans (accurate.trans ensured)

/-- A call that does not apply the finalizer to the source, and leaves the source as it is, keeps
the account accurate. -/
theorem Guarding.Accurate.answered {after : Guarding} {call : Option ObjectSyncRef × Call}
    {reply : Reply call.2} (accurate : state.Accurate source)
    (answered : (guarding ref source).answers state call reply after)
    (same : after.server.objects source = state.server.objects source)
    (other : ¬AppliesFinalizer source call) : after.Accurate source := by
  obtain ⟨-, -, -, ensured⟩ := answered
  have unchanged : after.ensured ↔ state.ensured :=
    ensured.trans (or_iff_left fun applied => other applied.1)
  unfold Accurate Server.CarriesFinalizer
  rw [same]
  exact accurate.trans unchanged.symm

/-- The account stays accurate when the finalizer is applied. -/
theorem Guarding.Accurate.applied {after : Guarding} {call : Option ObjectSyncRef × Call}
    {reply : Reply call.2} (accurate : state.Accurate source)
    (applies : AppliesFinalizer source call)
    (answered : (guarding ref source).answers state call reply after) :
    after.asked ∧ after.Accurate source := by
  obtain ⟨faulty, -, asked, ensured⟩ := answered
  refine ⟨asked.mpr (.inr applies), ?_⟩
  have ensured' := ensured.trans (or_congr_right (and_iff_right applies))
  obtain ⟨api, name, body, rfl, named, listed⟩ := applies
  have carries := Faulty.carries_iff faulty listed
  rw [named] at carries
  exact carries.trans ((or_congr_left accurate).trans ensured'.symm)

/-- Only calls on behalf of an ObjectSync make copies. -/
theorem not_makesCopy_own (call : Call) : ¬MakesCopy (none, call) := by
  rintro ⟨id, request, same, -⟩
  cases (Prod.mk.inj same).1

/-- Whatever is done for the source itself makes no copies. -/
theorem wp_own (program : Async α) :
    (program.label none).wp (guarding ref source) (fun _ _ => True) state := by
  rw [wp_label]
  exact @wp_invariant _ _ _ _ ((guarding ref source).under none) (fun _ => True) program _
    (fun _ _ _ _ => trivial)
    (fun _ call _ _ _ _ => ⟨fun makes => absurd makes (not_makesCopy_own call), trivial⟩) trivial

/-- What is looked up refers to the source and does not record it as a destination. -/
theorem wp_lookup_guarded {listed : Prop} (self : ResourceControllerImpl)
    (accurate : (listed → state.asked) ∧ state.Accurate source) :
    ((self.lookupObjectSyncsForSource ref).label none).wp (guarding ref source)
      (fun value after => (∀ objs, value = some objs → ∀ rs ∈ objs, ∃ sync, rs = .new sync ∧
        SourceRef.ofSync sync = ref ∧ ∀ d ∈ sync.destinationList, d.key ≠ source) ∧
          (listed → after.asked) ∧ after.Accurate source) state := by
  have shape : (self.lookupObjectSyncsForSource ref).wp
      (.requests (LeavesSource ref source) fun call => ∀ request, call = .api request →
        request.target = none)
      (fun value _ => ∀ objs, value = some objs → ∀ rs ∈ objs, ∃ sync, rs = .new sync ∧
        SourceRef.ofSync sync = ref ∧ ∀ d ∈ sync.destinationList, d.key ≠ source) () := by
    unfold ResourceControllerImpl.lookupObjectSyncsForSource
    split
    · rw [wp_memory]
      intro _ _ reply _ _
      refine ⟨fun _ same => (by cases same), ?_⟩
      cases reply with
      | none => exact fun _ same => by cases same
      | some refs =>
        dsimp only
        split
        · exact fun _ same => by cases same
        · rw [wp_bind]
          refine wp_imp ?_ (@ResourceControllerImpl.wp_fetchObjectSyncs (LeavesSource ref source) _
            (fun _ sync => SourceRef.ofSync sync = ref → ∀ d ∈ sync.destinationList, d.key ≠ source)
            (fun _ _ leaves => leaves) ref refs ?_)
          · intro fetched _ listed objs same rs member
            cases same
            obtain ⟨r, -, sync, new, refers, leaves⟩ := listed rs member
            exact ⟨sync, new, refers, leaves refers⟩
          · rintro r _ request ⟨⟩
            rfl
    · exact fun _ same => by cases same
  rw [wp_label]
  refine wp_requests shape (fun _ _ _ _ answered => answered.2.1) ?_ ?_ accurate
  · intro before moved known moves
    exact ⟨fun given => moves.2.1.mp (known.1 given), known.2.moved moves.1 moves.2.2⟩
  · intro before call reply after known reads answered
    refine ⟨fun makes => absurd makes (not_makesCopy_own call), ?_, ?_⟩
    · exact fun given => answered.2.2.1.mpr (.inl (known.1 given))
    · refine known.2.answered answered ?_ ?_
      · cases call with
        | api request =>
          have untouched : request.target ≠ some source := by
            rw [reads request rfl]
            exact Option.some_ne_none source |>.symm
          exact (Faulty.effect answered.1).objects_eq untouched
        | _ => exact congrArg (fun server : Server => server.objects source) answered.1
      · rintro ⟨api, name, body, same, -, -⟩
        have target := reads _ (Prod.mk.inj same).2
        cases target

/-- After adding the finalizer it has been asked for. -/
theorem wp_addFinalizerIfMissing_guarded {api : DynamicApi} {object : DynamicObject}
    (named : object.metadata.name.isSome = true) (own : api.key object.metadata.nameAny = source)
    (known : (finalizer ∈ object.metadata.finalizerList → state.asked) ∧ state.Accurate source) :
    ((addFinalizerIfMissing api object finalizer).label none).wp (guarding ref source)
      (fun _ after => after.asked ∧ after.Accurate source) state := by
  rw [wp_label]
  unfold addFinalizerIfMissing
  split
  · rename_i listed
    exact ⟨known.1 listed, known.2⟩
  · dsimp only
    rw [wp_api]
    intro moved moves reply after answered
    have same : (finalizerPatch object finalizer).metadata.nameAny = object.metadata.nameAny := by
      obtain ⟨name, given⟩ := Option.isSome_iff_exists.mp named
      simp [finalizerPatch, ObjectMeta.nameAny, given]
    have applies : AppliesFinalizer source (none, .api (.apply api
        (finalizerPatch object finalizer).metadata.nameAny (finalizerPatch object finalizer))) :=
      ⟨api, _, _, rfl, same ▸ own, List.mem_cons_self⟩
    have settled := (known.2.moved moves.1 moves.2.2).applied applies answered
    refine ⟨fun makes => absurd makes (not_makesCopy_own _), ?_⟩
    cases reply <;> exact settled

/-- Synchronizing an ObjectSync leaves the source, and the account with it. -/
theorem wp_reconcileSource_guarded {self : ResourceControllerImpl} {object : DynamicObject}
    {sync : ObjectSync} (refers : SourceRef.ofSync sync = ref) (named : source = self.sourceKey ref)
    (leaves : ∀ d ∈ sync.destinationList, d.key ≠ source)
    (known : state.asked ∧ state.Accurate source) (id : ObjectSyncRef) :
    ((self.reconcileSource (.new sync) object).label (some id)).wp (guarding ref source)
      (fun _ after => after.asked ∧ after.Accurate source) state := by
  have name : source.name = sync.sourceName := by
    rw [named, ← refers]
    rfl
  have namespace_ : source.namespace_ = sync.sourceNamespace.getD "" := by
    rw [named, ← refers]
    rfl
  have elsewhere := @ResourceControllerImpl.requests_reconcileSource_elsewhere self (.new sync)
    object source name namespace_ leaves
  rw [wp_label]
  refine wp_imp (fun _ _ kept => kept.2) (wp_requests elsewhere ?_ ?_ ?_ known)
  · intro before call reply after answered
    exact answersBy_faulty_honest answered.1
  · intro before moved known moves
    exact ⟨moves.2.1.mp known.1, known.2.moved moves.1 moves.2.2⟩
  · intro before call reply after known other answered
    refine ⟨fun _ => known, answered.2.2.1.mpr (.inl known.1), known.2.answered answered ?_ ?_⟩
    · cases call with
      | api request => exact (Faulty.effect answered.1).objects_eq other
      | _ => exact congrArg (fun server : Server => server.objects source) answered.1
    · rintro ⟨api, name', body, same, -, -⟩
      cases (Prod.mk.inj same).1

end Guarding

/-- **Finalizer before copies.** In every run for a live source, with any registry and any replies,
while nobody else adds or removes the finalizer of the source and no ObjectSync that refers to it
records it as a destination: a copy is only asked for when the cached source lists the finalizer or
the apply of it has been answered, and the source carries it then if and only if it did when the run
started or the apply was carried out. -/
theorem ResourceControllerImpl.copies_guarded_iff (self : ResourceControllerImpl)
    (object : DynamicObject) (server : Server) (named : object.metadata.name.isSome = true)
    (live : object.metadata.terminating = false) :
    (self.reconcile object).wp
      (guarding (SourceRef.ofObject object) (self.sourceKey (SourceRef.ofObject object)))
      (fun _ _ => True)
      ⟨server, finalizer ∈ object.metadata.finalizerList,
        server.CarriesFinalizer (self.sourceKey (SourceRef.ofObject object))⟩ := by
  unfold reconcile
  dsimp only
  rw [wp_bind]
  refine wp_imp ?_ (@wp_lookup_guarded _ _ _ (finalizer ∈ object.metadata.finalizerList) self
    ⟨id, Iff.rfl⟩)
  intro value state known
  obtain ⟨each, known⟩ := known
  cases value with
  | none =>
    dsimp only
    split
    · rw [wp_bind]
      refine wp_imp ?_ (wp_own _)
      intro result after _
      obtain ⟨source', result⟩ := result
      cases result <;> trivial
    · trivial
  | some objs =>
    dsimp only
    have alive : ¬(ensureGvk object self.gvk).metadata.terminating = true := by
      have same : (ensureGvk object self.gvk).metadata = object.metadata := rfl
      rw [same, live]
      exact Bool.false_ne_true
    rw [if_neg alive, wp_bind]
    refine wp_imp ?_ (wp_addFinalizerIfMissing_guarded named rfl known)
    intro added state' known'
    rw [wp_bind]
    refine wp_imp (fun _ _ _ => trivial) (@wp_reconcileAll Guarding _
      (fun after => after.asked ∧ after.Accurate (self.sourceKey (SourceRef.ofObject object)))
      _ self _ objs ?_ known')
    intro rs member world known''
    obtain ⟨sync, rfl, refers, leaves⟩ := each objs rfl rs member
    exact wp_reconcileSource_guarded refers rfl leaves known'' _

/-- A server with an ObjectSync and its source, which has no finalizer. -/
def settingsSourced : Server :=
  settingsServer.put (configMaps.sourceKey (.ofObject settingsSource))
    (some ⟨settingsSource, none⟩) @settingsSource_named

/-- One ObjectSync is registered, and the server serves every request. -/
def accepting : Handler (Option ObjectSyncRef × Call) (fun call => Reply call.2) Server
  | server, (_, .memory (.lookup ..)) => (some [settingsRef], server)
  | server, (maker, other) => server.answer maker ⟨"u", "2", 0, []⟩ settingsNamespaces "now" other

/-- The answers of a server that accepts the finalizer, with the account of it. -/
def acceptingGuarded (source : ObjectKey) :
    Handler (Option ObjectSyncRef × Call) (fun call => Reply call.2) Guarding :=
  fun before call =>
    let after := (accepting before.server call).2
    ((accepting before.server call).1,
      ⟨after, before.asked ∨ AppliesFinalizer source call, before.ensured ∨
        AppliesFinalizer source call ∧ CarriedOut call.1 before.server call.2 after⟩)

/-- No ObjectSync that a call reads records the object. -/
def readsElsewhere (source : ObjectKey) (before : Guarding) :
    Option ObjectSyncRef × Call → Bool
  | (_, .api (.getSync name)) => (before.server.syncs name).all fun sync =>
    sync.destinationList.all fun d => d.key ≠ source
  | _ => true

/-- The answers of a server that accepts the finalizer are possible. -/
theorem acceptingGuarded_allowed {ref : SourceRef} {source : ObjectKey} {before : Guarding}
    {call : Option ObjectSyncRef × Call} (checked : readsElsewhere source before call = true) :
    (guarding ref source).answers before call (acceptingGuarded source before call).1
      (acceptingGuarded source before call).2 := by
  have allowed : answersBy (Faulty call.1) before.server call.2 (accepting before.server call).1
      (accepting before.server call).2 := by
    obtain ⟨maker, call⟩ := call
    cases call with
    | memory op => cases op <;> rfl
    | _ => exact before.server.answer_allowed maker ⟨"u", "2", 0, []⟩ settingsNamespaces "now" _
  refine ⟨allowed, ?_, Iff.rfl, Iff.rfl⟩
  obtain ⟨maker, call⟩ := call
  cases call with
  | api request =>
    cases request with
    | getSync name =>
      cases stored : before.server.syncs name with
      | none =>
        simp only [acceptingGuarded, accepting, Server.answer, Server.serve, stored, LeavesSource]
      | some sync =>
        simp only [acceptingGuarded, accepting, Server.answer, Server.serve, stored, LeavesSource]
        simp only [readsElsewhere, stored, Option.all_some, List.all_eq_true] at checked
        intro _ d member
        exact of_decide_eq_true (checked d member)
    | _ => trivial
  | _ => trivial

/-- The account when a run for the settings starts. -/
def settingsGuarding : Guarding :=
  ⟨settingsSourced, finalizer ∈ settingsSource.metadata.finalizerList,
    settingsSourced.CarriesFinalizer (configMaps.sourceKey (.ofObject settingsSource))⟩

/-- A run for the settings until it makes the copy. -/
def guardedRun : LabelledAsync Action × Guarding :=
  (configMaps.reconcile settingsSource).runFor
    (acceptingGuarded (configMaps.sourceKey (.ofObject settingsSource))) 7 settingsGuarding

/-- When the copy is made, the finalizer has been asked for and is ensured. -/
theorem guardedRun_ensured : guardedRun.2.asked ∧ guardedRun.2.ensured := by
  have holds := configMaps.copies_guarded_iff settingsSource settingsSourced rfl rfl
  have steps : Steps
      (guarding (.ofObject settingsSource) (configMaps.sourceKey (.ofObject settingsSource))).rely
      (guarding (.ofObject settingsSource)
        (configMaps.sourceKey (.ofObject settingsSource))).answers
      (configMaps.reconcile settingsSource) settingsGuarding guardedRun.1 guardedRun.2 :=
    (@steps_runFor _ _ _ _
      (guarding (.ofObject settingsSource) (configMaps.sourceKey (.ofObject settingsSource))).rely
      _ (acceptingGuarded (configMaps.sourceKey (.ofObject settingsSource)))
      (readsElsewhere (configMaps.sourceKey (.ofObject settingsSource))) (fun _ => True)
      (fun _ => ⟨Iff.rfl, Iff.rfl, Iff.rfl⟩)
      (fun _ _ _ checked => ⟨acceptingGuarded_allowed checked, trivial⟩) 7
      (configMaps.reconcile settingsSource) settingsGuarding trivial (by decide +kernel)).1
  have rest := steps.wp holds
  have carries : guardedRun.2.server.CarriesFinalizer
      (configMaps.sourceKey (.ofObject settingsSource)) := by
    decide +kernel
  have next : ∃ api body, guardedRun.1.pending = some (some settingsRef, .api (.create api body)) :=
    ⟨_, _, rfl⟩
  obtain ⟨api, body, waits⟩ := next
  obtain ⟨resume, same⟩ := exists_resume waits
  rw [same] at rest
  have made := (rest guardedRun.2 ⟨Iff.rfl, Iff.rfl, Iff.rfl⟩ _ _
    (acceptingGuarded_allowed rfl)).1 ⟨_, _, rfl, trivial⟩
  exact ⟨made.1, made.2.mp carries⟩

/-- Copies are only made while the source carries the finalizer, in runs that nobody disturbs. -/
@[reducible] def guaranteed (source : ObjectKey) :
    Contract (Option ObjectSyncRef × Call) (fun call => Reply call.2) Server where
  rely := fun before after => before = after
  answers := fun before call reply after => answersBy (Faulty call.1) before call.2 reply after
  guarantee := fun before call _ _ => MakesCopy call → before.CarriesFinalizer source

/-- One ObjectSync is registered, and the server refuses every apply. -/
def refusing : Handler (Option ObjectSyncRef × Call) (fun call => Reply call.2) Server
  | server, (_, .memory (.lookup ..)) => (some [settingsRef], server)
  | server, (_, .api (.apply ..)) => (.error (.api 403 "forbidden"), server)
  | server, (maker, other) => server.answer maker ⟨"u", "2", 0, []⟩ settingsNamespaces "now" other

/-- The answers of a server that refuses the finalizer are possible. -/
theorem refusing_allowed (server : Server) (call : Option ObjectSyncRef × Call) :
    answersBy (Faulty call.1) server call.2 (refusing server call).1 (refusing server call).2 := by
  obtain ⟨maker, call⟩ := call
  cases call with
  | api request =>
    cases request with
    | apply api name body =>
      have present : ¬(KubeError.api 403 "forbidden").isNotFound = true := by decide
      exact .refused present
    | _ => exact server.answer_allowed maker ⟨"u", "2", 0, []⟩ settingsNamespaces "now" (.api _)
  | memory op =>
    cases op <;> rfl
  | _ => rfl

/-- The run for the settings whose finalizer is refused, until it makes the copy. -/
def refusedRun : LabelledAsync Action × Server :=
  (configMaps.reconcile settingsSource).runFor refusing 7 settingsSourced

/-- A run that may not add the finalizer makes the copy nevertheless. -/
theorem refusedRun_unguarded :
    ¬∀ (self : ResourceControllerImpl) (object : DynamicObject) (server : Server),
      object.metadata.terminating = false →
        (self.reconcile object).wp (guaranteed (self.sourceKey (SourceRef.ofObject object)))
          (fun _ _ => True) server := by
  intro promised
  have holds := promised configMaps settingsSource settingsSourced rfl
  have steps : Steps (fun before after => before = after)
      (fun before (call : Option ObjectSyncRef × Call) reply after =>
        answersBy (Faulty call.1) before call.2 reply after)
      (configMaps.reconcile settingsSource) settingsSourced refusedRun.1 refusedRun.2 :=
    (@steps_runFor _ _ _ _ (fun before after => before = after) _ refusing (fun _ _ => true)
      (fun _ => True) (fun _ => rfl)
      (fun server call _ _ => ⟨refusing_allowed server call, trivial⟩) 7 _ _ trivial
      (checkFor_true _ _ _ _)).1
  have rest := steps.wp holds
  have bare : ¬refusedRun.2.CarriesFinalizer
      (configMaps.sourceKey (SourceRef.ofObject settingsSource)) := by
    decide +kernel
  have next : ∃ request, refusedRun.1.pending = some (some settingsRef, .api request) ∧
      request.Creates := by
    exact ⟨_, rfl, trivial⟩
  obtain ⟨request, waits, creates⟩ := next
  obtain ⟨resume, same⟩ := exists_resume waits
  rw [same] at rest
  have made := (rest refusedRun.2 rfl _ _
    (refusing_allowed refusedRun.2 (some settingsRef, .api request))).1
  exact bare (made ⟨_, _, rfl, creates⟩)

end ObjectSyncer
