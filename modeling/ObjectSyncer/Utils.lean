import ObjectSyncer.Modifications

/-!
# Finalizers and the removal of destinations

The helpers shared by both controllers: adding the finalizer by a minimal server-side apply,
removing it by a JSON patch, and releasing and deleting a list of destinations.
-/
namespace ObjectSyncer

/-- `ensure_gvk`. -/
def ensureGvk (source : DynamicObject) (gvk : GroupVersionKind) : DynamicObject :=
  { source with types := source.types.or (some ⟨gvk.apiVersion, gvk.kind⟩) }

/-- The minimal configuration that `add_finalizer_if_missing` applies. -/
def finalizerPatch (source : DynamicObject) (finalizer : String) : DynamicObject where
  types := source.types
  metadata :=
    { name := source.metadata.name, namespace_ := source.metadata.namespace_,
      finalizers := some [finalizer] }
  data := []

/-- `add_finalizer_if_missing`. -/
def addFinalizerIfMissing (api : DynamicApi) (source : DynamicObject) (finalizer : String) :
    Async (DynamicObject × Except ControllerError Bool) :=
  if finalizer ∈ source.metadata.finalizerList then return (source, .ok false)
  else do
    let patch := finalizerPatch source finalizer
    match ← Async.api (.apply api patch.metadata.nameAny patch) with
    | .error e => return (source, .error (.kubeApi e))
    | .ok _ =>
      return (source.withFinalizers (source.metadata.finalizerList ++ [finalizer]), .ok true)

/-- `remove_finalizer`. -/
def removeFinalizer (api : DynamicApi) (source : DynamicObject) (finalizer : String) :
    Async (DynamicObject × Except ControllerError Bool) :=
  let originalFinalizers := source.metadata.finalizerList
  let before := source
  let source := source.withFinalizers (originalFinalizers.filter (· != finalizer))
  if source.metadata.finalizerList.length ≠ originalFinalizers.length then do
    let patch := diffFinalizers before.metadata.finalizers source.metadata.finalizers
    match ← Async.api (.jsonPatch api source.metadata.nameAny patch) with
    | .ok _ => return (source, .ok true)
    | .error e =>
      if e.isNotFound then return (source, .ok true)
      else return (source.withFinalizers originalFinalizers, .error (.kubeApi e))
  else return (source, .ok false)

/-- Where a finalizer is not listed, none is filtered out. -/
theorem filter_finalizer_of_not_mem {finalizers : List String} {finalizer : String}
    (lacks : finalizer ∉ finalizers) : finalizers.filter (· != finalizer) = finalizers := by
  apply List.filter_eq_self.mpr
  intro f member
  have other : f ≠ finalizer := fun same => lacks (same ▸ member)
  exact bne_iff_ne.mpr other

/-- Where a finalizer is listed, the filtered list is shorter. -/
theorem length_filter_finalizer_ne {finalizers : List String} {finalizer : String}
    (listed : finalizer ∈ finalizers) :
    (finalizers.filter (· != finalizer)).length ≠ finalizers.length := by
  intro same
  have all := List.length_filter_eq_length_iff.mp same finalizer listed
  simp at all

/-- Where the finalizer is not listed, nothing is asked for. -/
theorem removeFinalizer_of_not_mem {api : DynamicApi} {source : DynamicObject} {finalizer : String}
    (lacks : finalizer ∉ source.metadata.finalizerList) :
    removeFinalizer api source finalizer =
      pure (source.withFinalizers source.metadata.finalizerList, .ok false) := by
  have kept (finalizers : List String) :
      (source.withFinalizers finalizers).metadata.finalizerList = finalizers := rfl
  unfold removeFinalizer
  dsimp only
  rw [kept, filter_finalizer_of_not_mem lacks, if_neg (not_not.mpr rfl)]

/-- Where the finalizer is listed, it is patched away. -/
theorem removeFinalizer_of_mem {api : DynamicApi} {source : DynamicObject} {finalizer : String}
    (listed : finalizer ∈ source.metadata.finalizerList) :
    removeFinalizer api source finalizer =
      Async.api (.jsonPatch api source.metadata.nameAny (diffFinalizers source.metadata.finalizers
        (some (source.metadata.finalizerList.filter (· != finalizer))))) >>= fun reply =>
      match reply with
      | .ok _ => pure
        (source.withFinalizers (source.metadata.finalizerList.filter (· != finalizer)),
          .ok true)
      | .error e =>
        if e.isNotFound then
          pure (source.withFinalizers (source.metadata.finalizerList.filter (· != finalizer)),
            .ok true)
        else pure ((source.withFinalizers (source.metadata.finalizerList.filter
          (· != finalizer))).withFinalizers source.metadata.finalizerList,
            .error (.kubeApi e)) := by
  have kept (finalizers : List String) :
      (source.withFinalizers finalizers).metadata.finalizerList = finalizers := rfl
  unfold removeFinalizer
  dsimp only
  rw [kept, if_pos (length_filter_finalizer_ne listed)]
  congr 1
  funext reply
  cases reply <;> rfl

/-- The API of a tracked destination, which may be of another kind than its neighbours. -/
def DestinationStatus.api (status : DestinationStatus) : DynamicApi :=
  ⟨⟨status.group, status.version, status.kind⟩, status.namespace_⟩

/-- The second half of the loop body of `delete_destinations`: delete the object, and return
the destination when that fails. -/
def deleteDestination (d : DestinationStatus) : Async (List DestinationStatus) := do
  match ← Async.api (.delete d.api d.name) with
  | .ok _ => return []
  | .error e => if e.isNotFound then return [] else return [d]

/-- `utils::delete_destinations`: the destinations whose deletion failed. A failed read ends the
loop; a failed removal of the finalizer is only logged. -/
def deleteDestinations :
    List DestinationStatus → Async (Except ControllerError (List DestinationStatus))
  | [] => return .ok []
  | d :: rest => do
    match ← Async.api (.get d.api d.name) with
    | .ok destination =>
      let _ ← removeFinalizer d.api (ensureGvk destination d.api.resource) finalizer
      let errors ← deleteDestination d
      let remaining ← deleteDestinations rest
      return remaining.map (errors ++ ·)
    | .error e =>
      if e.isNotFound then do
        let errors ← deleteDestination d
        let remaining ← deleteDestinations rest
        return remaining.map (errors ++ ·)
      else return .error (.kubeApi e)

/-- The body of the loop of `delete_destinations`. -/
def removeDestination (d : DestinationStatus) :
    Async (Except ControllerError (List DestinationStatus)) := do
  match ← Async.api (.get d.api d.name) with
  | .ok destination =>
    let _ ← removeFinalizer d.api (ensureGvk destination d.api.resource) finalizer
    return .ok (← deleteDestination d)
  | .error e =>
    if e.isNotFound then return .ok (← deleteDestination d) else return .error (.kubeApi e)

open Interaction.Program in
/-- The loop runs its body, and goes on unless it failed. -/
theorem deleteDestinations_cons (d : DestinationStatus) (rest : List DestinationStatus) :
    deleteDestinations (d :: rest) = removeDestination d >>= fun result =>
      match result with
      | .error e => pure (.error e)
      | .ok errors => deleteDestinations rest >>= fun remaining =>
        pure (remaining.map (errors ++ ·)) := by
  rw [deleteDestinations, removeDestination, bind_assoc]
  congr 1
  funext reply
  cases reply with
  | ok destination =>
    dsimp only
    rw [bind_assoc]
    congr 1
    funext released
    rw [bind_assoc]
    rfl
  | error e =>
    dsimp only
    split
    · rw [bind_assoc]
      rfl
    · rfl

end ObjectSyncer
