import ObjectSyncer.Server

/-!
# What a copy carries

The fields of an object that a write sets, when one set of fields carries another, and what the
writes of the API server do to them. A copy is written from a template, which is a function of the
fields and the name of its source alone.
-/
namespace ObjectSyncer

/-- A key that was inserted has its value. -/
theorem StringMap.lookup_insert_self (map : StringMap) (key value : String) :
    (map.insert key value).lookup key = some value := by
  induction map with
  | nil => simp [StringMap.insert]
  | cons entry rest ih =>
    obtain ⟨key', value'⟩ := entry
    unfold StringMap.insert
    by_cases same : key = key'
    · rw [if_pos same, List.lookup_cons, beq_self_eq_true]
    · rw [if_neg same]
      by_cases before : key < key'
      · rw [if_pos before, List.lookup_cons, beq_self_eq_true]
      · rw [if_neg before, List.lookup_cons, beq_eq_false_iff_ne.mpr same]
        exact ih

/-- All other keys keep their values. -/
theorem StringMap.lookup_insert_of_ne (map : StringMap) {key other : String} (value : String)
    (different : other ≠ key) : (map.insert key value).lookup other = map.lookup other := by
  have missed : (other == key) = false := beq_eq_false_iff_ne.mpr different
  induction map with
  | nil => simp [StringMap.insert, missed]
  | cons entry rest ih =>
    obtain ⟨key', value'⟩ := entry
    unfold StringMap.insert
    by_cases same : key = key'
    · rw [if_pos same, List.lookup_cons, List.lookup_cons, missed, ← same, missed]
    · rw [if_neg same]
      by_cases before : key < key'
      · rw [if_pos before, List.lookup_cons, missed]
      · rw [if_neg before, List.lookup_cons, List.lookup_cons, ih]

/-- Removing entries by their keys keeps the others. -/
theorem StringMap.lookup_filter (map : StringMap) (kept : String → Bool) (key : String) :
    (map.filter fun entry => kept entry.1).lookup key =
      if kept key then map.lookup key else none := by
  induction map with
  | nil => simp
  | cons entry rest ih =>
    obtain ⟨key', value'⟩ := entry
    rw [List.filter_cons, List.lookup_cons]
    by_cases same : key = key'
    · subst same
      rw [beq_self_eq_true]
      by_cases keep : kept key = true
      · rw [if_pos keep, if_pos keep, List.lookup_cons, beq_self_eq_true]
      · rw [if_neg keep, ih, if_neg keep, if_neg keep]
    · rw [beq_eq_false_iff_ne.mpr same, ← ih]
      by_cases keep : kept key' = true
      · rw [if_pos keep, List.lookup_cons, beq_eq_false_iff_ne.mpr same]
      · rw [if_neg keep]

/-- A merged map has the values of the configuration, and otherwise those it had. -/
theorem lookup_mergeFields (dropped : List String) (current body : StringMap) (key : String) :
    (mergeFields dropped current body).lookup key =
      (body.lookup key).or (if key ∈ dropped then none else current.lookup key) := by
  unfold mergeFields
  induction body with
  | nil =>
    have filtered := StringMap.lookup_filter current (fun key => decide (key ∉ dropped)) key
    rw [List.foldr_nil, filtered, List.lookup_nil, Option.none_or]
    by_cases member : key ∈ dropped
    · simp [member]
    · simp [member]
  | cons entry rest ih =>
    obtain ⟨key', value'⟩ := entry
    rw [List.foldr_cons, List.lookup_cons]
    by_cases same : key = key'
    · subst same
      rw [StringMap.lookup_insert_self, beq_self_eq_true, Option.some_or]
    · rw [StringMap.lookup_insert_of_ne _ _ same, ih, beq_eq_false_iff_ne.mpr same]

/-- A map has all entries of another one. -/
def Includes (current body : Option StringMap) : Prop :=
  ∀ key value, (body.getD []).lookup key = some value → (current.getD []).lookup key = some value

/-- Every map includes itself. -/
theorem Includes.refl (map : Option StringMap) : Includes map map := fun _ _ => id

/-- A merged map includes the configuration. -/
theorem includes_mergeOptional (dropped : List String) (current body : Option StringMap) :
    Includes (mergeOptional dropped current body) body := by
  intro key value found
  cases body with
  | none => cases found
  | some body =>
    have merged : (mergeOptional dropped current (some body)).getD [] =
        mergeFields dropped (current.getD []) body := by cases current <;> rfl
    have found' : body.lookup key = some value := found
    rw [merged, lookup_mergeFields, found', Option.some_or]

/-- A merged map includes nothing that neither of both maps has. -/
theorem mergeOptional_included {dropped : List String} {current body : Option StringMap}
    (included : Includes body current) : Includes body (mergeOptional dropped current body) := by
  intro key value found
  have merged : (mergeOptional dropped current body).getD [] =
      mergeFields dropped (current.getD []) (body.getD []) ∨
        (mergeOptional dropped current body).getD [] = [] := by
    cases current <;> cases body <;> simp [mergeOptional]
  rcases merged with merged | empty
  · rw [merged, lookup_mergeFields, Option.or_eq_some_iff] at found
    rcases found with written | ⟨-, kept⟩
    · exact written
    · by_cases member : key ∈ dropped
      · rw [if_pos member] at kept
        cases kept
      · rw [if_neg member] at kept
        exact included key value kept
  · rw [empty] at found
    cases found

/-- The fields of an object that a write sets. -/
structure Fields where
  labels : Option StringMap
  annotations : Option StringMap
  finalizers : Option (List String)
  ownerReferences : Option (List String)
  data : StringMap
  deriving DecidableEq, Repr

/-- The fields of an object. -/
def DynamicObject.fields (object : DynamicObject) : Fields :=
  ⟨object.metadata.labels, object.metadata.annotations, object.metadata.finalizers,
    object.metadata.ownerReferences, object.data⟩

namespace Fields

/-- All fields of a template have the values that the template gives them. -/
structure Carries (fields template : Fields) : Prop where
  labels : Includes fields.labels template.labels
  annotations : Includes fields.annotations template.annotations
  finalizers : ∀ f ∈ template.finalizers.getD [], f ∈ fields.finalizers.getD []
  ownerReferences : ∀ r ∈ template.ownerReferences.getD [], r ∈ fields.ownerReferences.getD []
  data : Includes (some fields.data) (some template.data)

/-- A template carries itself. -/
theorem Carries.refl (fields : Fields) : fields.Carries fields :=
  ⟨.refl _, .refl _, fun _ => id, fun _ => id, .refl _⟩

/-- What a strategy is to achieve: the fields of the template, and with exclusive ownership nothing
else. -/
def Matches (fields template : Fields) : SyncStrategy → Prop
  | .apply => fields.Carries template
  | .replace => fields.Carries template ∧ template.Carries fields

/-- The template itself is what either strategy is to achieve. -/
theorem Matches.refl (fields : Fields) (strategy : SyncStrategy) :
    fields.Matches fields strategy := by
  cases strategy with
  | apply => exact Carries.refl fields
  | replace => exact ⟨Carries.refl fields, Carries.refl fields⟩

/-- Either strategy is to achieve the fields of the template. -/
theorem Matches.carries {fields template : Fields} {strategy : SyncStrategy}
    (matches_ : fields.Matches template strategy) : fields.Carries template := by
  cases strategy with
  | apply => exact matches_
  | replace => exact matches_.1

/-- The fields of a template once it is fitted to a destination. -/
def fitted (fields : Fields) : Fields :=
  { fields with finalizers := some [finalizer], ownerReferences := none }

/-- The fields of the copies of a source. -/
def copied (source : SourceRef) (fields : Fields) : Fields where
  labels := some ((fields.labels.getD []).insert "app.kubernetes.io/managed-by" manager)
  annotations := some ((fields.annotations.getD []).insert sourceObjectAnnotation
    (source.name.namespace_ ++ "/" ++ source.name.name))
  finalizers := some [finalizer]
  ownerReferences := none
  data := fields.data

end Fields

namespace ResourceControllerImpl

/-- Fitting a template to a destination sets its finalizers and drops its owners. -/
@[simp] theorem fitTemplate_fields (template : DynamicObject) (d : DestinationStatus) :
    (fitTemplate template d).fields = template.fields.fitted := rfl

/-- A revision is none of the fields. -/
@[simp] theorem withRevision_fields (template : DynamicObject) (revision : ObjectRevision) :
    (withRevision template revision).fields = template.fields := rfl

/-- Whatever the destination, a copy gets the same fields. -/
theorem sourceTemplate_fields (source : DynamicObject) :
    (sourceTemplate source).fields.fitted = source.fields.copied (SourceRef.ofObject source) := rfl

end ResourceControllerImpl

/-- A created object has the fields of the body. -/
@[simp] theorem Choice.created_fields (choice : Choice) (namespace_ name : String)
    (body : DynamicObject) : (choice.created namespace_ name body).fields = body.fields := rfl

/-- A replaced object has the fields of the body. -/
@[simp] theorem Choice.replaced_fields (choice : Choice) (current body : DynamicObject) :
    (choice.replaced current body).fields = body.fields := rfl

/-- An applied configuration without owners is carried. -/
theorem Choice.applied_carries (choice : Choice) (current : DynamicObject) {body : DynamicObject}
    (unowned : body.fields.ownerReferences = none) :
    (choice.applied current body).fields.Carries body.fields := by
  refine ⟨includes_mergeOptional _ _ _, includes_mergeOptional _ _ _, ?_, ?_, ?_⟩
  · intro f member
    have added : f ∈ body.metadata.finalizers.getD [] := member
    show f ∈ (choice.applied current body).metadata.finalizers.getD []
    unfold Choice.applied
    cases listed : body.metadata.finalizers with
    | none =>
      rw [listed] at added
      cases added
    | some finalizers =>
      rw [listed, Option.getD_some] at added
      by_cases former : f ∈ current.metadata.finalizers.getD []
      · simp [former]
      · simp [former, added]
  · rw [unowned]
    exact fun r member => absurd member List.not_mem_nil
  · exact includes_mergeOptional choice.dropped (some current.data) (some body.data)

/-- Applying a template again keeps what was achieved. -/
theorem Choice.applied_matches (choice : Choice) {current body : DynamicObject}
    {strategy : SyncStrategy} (unowned : body.fields.ownerReferences = none)
    (matches_ : current.fields.Matches body.fields strategy) :
    (choice.applied current body).fields.Matches body.fields strategy := by
  have carries := choice.applied_carries current unowned
  cases strategy with
  | apply => exact carries
  | replace =>
    obtain ⟨-, only⟩ := matches_
    refine ⟨carries, mergeOptional_included only.labels, mergeOptional_included only.annotations,
      ?_, only.ownerReferences, ?_⟩
    · intro f member
      have merged : f ∈ (choice.applied current body).metadata.finalizers.getD [] := member
      unfold Choice.applied at merged
      cases listed : body.metadata.finalizers with
      | none =>
        rw [listed] at merged
        exact only.finalizers f merged
      | some finalizers =>
        rw [listed, Option.getD_some, List.mem_append, List.mem_filter] at merged
        rcases merged with former | added
        · exact only.finalizers f former
        · show f ∈ body.metadata.finalizers.getD []
          rw [listed]
          exact added.1
    · exact @mergeOptional_included choice.dropped (some current.data) (some body.data) only.data

end ObjectSyncer
