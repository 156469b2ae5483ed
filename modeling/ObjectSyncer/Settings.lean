import ObjectSyncer.DestinationWatch

/-!
# Settings

The namespaces that the controller is restricted to come from the values of the chart. The chart
joins them into variables of the environment, which the controller takes apart again when it starts,
and from which it decides what it lists and what it leaves out of that.
-/
namespace ObjectSyncer

open Collections

/-- `char::is_whitespace`. -/
def isWhitespace (c : Char) : Bool :=
  let n := c.toNat
  (0x9 ≤ n && n ≤ 0xD) || n == 0x20 || n == 0x85 || n == 0xA0 || n == 0x1680 ||
    (0x2000 ≤ n && n ≤ 0x200A) || n == 0x2028 || n == 0x2029 || n == 0x202F || n == 0x205F ||
    n == 0x3000

/-- `str::trim`. -/
def trim (text : String) : String :=
  .ofList ((text.toList.dropWhile isWhitespace).reverse.dropWhile isWhitespace).reverse

/-- The variables of the environment that are set. -/
abbrev Environment := String → Option String

/-- `env_var`: a blank variable is not set. -/
def envVar (environment : Environment) (name : String) : Option String :=
  ((environment name).map trim).filter fun v => !v.isEmpty

/-- `normalize`: no restriction when there is no namespace or a wildcard. -/
def normalize (hs : List String) : Option (List String) :=
  if hs.isEmpty || hs.contains "*" || hs.contains "" then none else some hs

/-- The set of the namespaces that a variable lists. -/
def namespacesOf (v : String) : List String :=
  (((v.splitOn ",").map trim).filter fun v => !v.isEmpty).dedup

/-- The restrictions of `Configuration::new`. -/
def Configuration.new (environment : Environment) : Configuration where
  watchNamespaces := (envVar environment "WATCH_NAMESPACES").bind (normalize ∘ namespacesOf)
  sourceNamespaces := (envVar environment "SOURCE_NAMESPACES").bind (normalize ∘ namespacesOf)
  targetNamespaces := (envVar environment "TARGET_NAMESPACES").bind (normalize ∘ namespacesOf)

/-- `Configuration::resource_sync`: the namespace that lists and watches of ObjectSyncs are limited
to, if exactly one is watched. -/
def Configuration.resourceSync (configuration : Configuration) : Option String :=
  match (configuration.watchNamespaces.getD []).dedup with
  | [ns] => some ns
  | _ => none

/-- Whether an ObjectSync in a namespace is listed. -/
def Configuration.listsSync (configuration : Configuration) (namespace_ : String) : Bool :=
  match configuration.resourceSync with
  | some ns => namespace_ == ns
  | none => true

section Trimming

variable {text : String}

/-- A text without whitespace is not trimmed. -/
theorem trim_of_none (none : ∀ c ∈ text.toList, isWhitespace c = false) : trim text = text := by
  have kept (characters : List Char) (none : ∀ c ∈ characters, isWhitespace c = false) :
      characters.dropWhile isWhitespace = characters := by
    cases characters with
    | nil => rfl
    | cons c rest => simp [none c List.mem_cons_self]
  have reversed (c : Char) (member : c ∈ text.toList.reverse) : isWhitespace c = false :=
    none c (List.mem_reverse.mp member)
  unfold trim
  rw [kept _ none, kept _ reversed, List.reverse_reverse, String.ofList_toList]

end Trimming

/-- A name that survives being joined by commas: it is not empty, and has neither a comma nor
whitespace. -/
structure Plain (name : String) : Prop where
  nonempty : name ≠ ""
  noComma : ',' ∉ name.toList
  noSpace : ∀ c ∈ name.toList, isWhitespace c = false

/-- Whether a name is plain can be computed. -/
instance (name : String) : Decidable (Plain name) :=
  decidable_of_iff
    ((name != "" && name.toList.all fun c => c != ',' && !isWhitespace c) = true) (by
      rw [Bool.and_eq_true, List.all_eq_true, bne_iff_ne]
      constructor
      · intro checked
        refine ⟨checked.1, fun listed => ?_, fun c listed => ?_⟩
        · have other := checked.2 ',' listed
          simp at other
        · have other := checked.2 c listed
          rw [Bool.and_eq_true, Bool.not_eq_true'] at other
          exact other.2
      · intro plain
        refine ⟨plain.nonempty, fun c listed => ?_⟩
        have other : c ≠ ',' := fun same => plain.noComma (same ▸ listed)
        rw [Bool.and_eq_true, bne_iff_ne, plain.noSpace c listed]
        exact ⟨other, rfl⟩)

/-- An entry of `allowedResources`. -/
structure AllowedResources where
  apiGroups : List String
  resources : List String
  deriving DecidableEq, Repr

/-- The values of the chart that decide what the controller may do. -/
structure Values where
  serviceAccountCreate : Bool
  watchNamespaces : List String
  sourceNamespaces : List String
  targetNamespaces : List String
  allowedResources : List AllowedResources
  deriving DecidableEq, Repr

/-- A variable that `deployment.yaml` sets when the list is not empty, from namespaces that stand
for themselves between double quotes. -/
def rendered (namespaces : List String) : Option String :=
  if namespaces.isEmpty then none else some (",".intercalate namespaces)

/-- The environment of `deployment.yaml`. -/
def Values.environment (values : Values) : Environment := fun name =>
  if name = "WATCH_NAMESPACES" then rendered values.watchNamespaces
  else if name = "SOURCE_NAMESPACES" then rendered values.sourceNamespaces
  else if name = "TARGET_NAMESPACES" then rendered values.targetNamespaces
  else none

/-- The values that the chart comes with. -/
def Values.default : Values where
  serviceAccountCreate := true
  watchNamespaces := ["kube-public", "kube-system"]
  sourceNamespaces := ["kube-public", "kube-system"]
  targetNamespaces := ["*"]
  allowedResources := [⟨["*"], ["*"]⟩]

/-- All namespaces are plain. -/
structure Values.Plain (values : Values) : Prop where
  watch : ∀ ns ∈ values.watchNamespaces, ObjectSyncer.Plain ns
  source : ∀ ns ∈ values.sourceNamespaces, ObjectSyncer.Plain ns
  target : ∀ ns ∈ values.targetNamespaces, ObjectSyncer.Plain ns

/-- The default values are plain. -/
theorem Values.default_plain : Values.default.Plain where
  watch := by decide
  source := by decide
  target := by decide

/-- What a list of namespaces means to a user: no namespace or a wildcard stands for all. -/
def Covers (namespaces : List String) (ns : String) : Prop :=
  namespaces = [] ∨ "*" ∈ namespaces ∨ ns ∈ namespaces

/-- Whether a list covers a namespace can be computed. -/
instance (namespaces : List String) (ns : String) : Decidable (Covers namespaces ns) :=
  inferInstanceAs (Decidable (_ ∨ _ ∨ _))

/-- What the controller makes of a list of namespaces. -/
def restriction (namespaces : List String) : Option (List String) :=
  if namespaces = [] ∨ "*" ∈ namespaces then none else some namespaces.dedup

section Rendering

variable {namespaces : List String}

/-- Joined plain names are taken apart again. -/
theorem namespacesOf_intercalate (plain : ∀ ns ∈ namespaces, Plain ns) (some_ : namespaces ≠ []) :
    namespacesOf (",".intercalate namespaces) = namespaces.dedup := by
  have comma : "," = String.singleton ',' := rfl
  have parts := splitOn_intercalate (fun ns member => (plain ns member).noComma) some_
  have trimmed : namespaces.map trim = namespaces :=
    (List.map_congr_left fun ns member => trim_of_none (plain ns member).noSpace).trans
      (List.map_id _)
  have full : (namespaces.filter fun v => !v.isEmpty) = namespaces := by
    refine List.filter_eq_self.mpr fun ns member => ?_
    simpa using (plain ns member).nonempty
  unfold namespacesOf
  rw [comma, parts, trimmed, full]

/-- Joined plain names have no whitespace. -/
theorem noSpace_intercalate (plain : ∀ ns ∈ namespaces, Plain ns) :
    ∀ c ∈ (",".intercalate namespaces).toList, isWhitespace c = false := by
  intro c member
  rw [String.toList_intercalate] at member
  induction namespaces with
  | nil => cases member
  | cons first rest ih =>
    have later := ih fun ns listed => plain ns (List.mem_cons_of_mem _ listed)
    have own := (plain first List.mem_cons_self).noSpace
    cases rest with
    | nil =>
      have inside : c ∈ first.toList := by simpa using member
      exact own c inside
    | cons second rest =>
      have inside : c ∈ first.toList ∨ c = ',' ∨
          c ∈ ",".toList.intercalate ((second :: rest).map String.toList) := by
        simpa [List.intercalate, List.intersperse] using member
      rcases inside with inside | rfl | inside
      · exact own c inside
      · decide
      · exact later inside

/-- A list of plain names comes through the environment as the set that it means. -/
theorem envVar_rendered {environment : Environment} {name : String}
    (set : environment name = rendered namespaces) (plain : ∀ ns ∈ namespaces, Plain ns) :
    (envVar environment name).bind (normalize ∘ namespacesOf) = restriction namespaces := by
  unfold envVar restriction
  rw [set, rendered]
  cases namespaces with
  | nil => rfl
  | cons first rest =>
    have comma : "," = String.singleton ',' := rfl
    have trimmed := trim_of_none (noSpace_intercalate plain)
    have parts := namespacesOf_intercalate plain (List.cons_ne_nil first rest)
    have listed : first ∈ (first :: rest).dedup := List.mem_dedup.mpr List.mem_cons_self
    have unblank : (",".intercalate (first :: rest)).isEmpty = false := by
      rw [← Bool.not_eq_true, String.isEmpty_iff]
      intro blank
      rw [blank] at parts
      have none : namespacesOf "" = [] := by
        unfold namespacesOf
        rw [comma, splitOn_singleton]
        decide
      rw [none] at parts
      rw [← parts] at listed
      cases listed
    have unnamed : ((first :: rest).dedup.contains "") = false := by
      rw [← Bool.not_eq_true, List.contains_iff_mem, List.mem_dedup]
      exact fun member => (plain "" member).nonempty rfl
    have some_ : (first :: rest).dedup.isEmpty = false := by
      rw [← Bool.not_eq_true, List.isEmpty_iff]
      intro none
      rw [none] at listed
      cases listed
    have found : ((some (",".intercalate (first :: rest))).map trim).filter (fun v => !v.isEmpty) =
        some (",".intercalate (first :: rest)) := by
      rw [Option.map_some, trimmed, Option.filter_some, unblank]
      rfl
    have rendered_ : (first :: rest).isEmpty = false := rfl
    rw [rendered_, if_neg Bool.false_ne_true, found, Option.bind_some, Function.comp_apply, parts]
    unfold normalize
    rw [some_, unnamed, Bool.false_or, Bool.or_false]
    by_cases wildcard : "*" ∈ first :: rest
    · have given := List.contains_iff_mem.mpr (List.mem_dedup.mpr wildcard)
      rw [if_pos given, if_pos (.inr wildcard)]
    · have absent : ¬(first :: rest).dedup.contains "*" = true := by
        rw [List.contains_iff_mem, List.mem_dedup]
        exact wildcard
      rw [if_neg absent, if_neg]
      rintro (none | given)
      · cases none
      · exact wildcard given

/-- A restriction holds the namespaces that the list covers. -/
theorem mem_restriction_iff {ns : String} :
    (∀ names, restriction namespaces = some names → ns ∈ names) ↔ Covers namespaces ns := by
  unfold restriction Covers
  by_cases all : namespaces = [] ∨ "*" ∈ namespaces
  · rw [if_pos all]
    constructor
    · intro _
      exact all.imp_right Or.inl
    · intro _ names given
      cases given
  · rw [if_neg all]
    constructor
    · intro held
      exact .inr (.inr (List.mem_dedup.mp (held _ rfl)))
    · intro covers names given
      rw [← Option.some.inj given, List.mem_dedup]
      exact (or_assoc.mpr covers).resolve_left all

/-- A restriction names a namespace, and no wildcard. -/
theorem restriction_spec {names : List String} (given : restriction namespaces = some names) :
    names ≠ [] ∧ "*" ∉ names := by
  unfold restriction at given
  split at given
  · cases given
  · rename_i some_
    rw [← Option.some.inj given]
    constructor
    · intro none
      exact some_ (.inl ((List.dedup_eq_nil _).mp none))
    · intro wildcard
      exact some_ (.inr (List.mem_dedup.mp wildcard))

/-- A namespace is let through when the list covers it. -/
theorem contains_restriction_iff {ns : String} :
    (match restriction namespaces with
      | none => true
      | some v => v.contains ns) = true ↔ Covers namespaces ns := by
  rw [← mem_restriction_iff]
  cases restriction namespaces with
  | none => simp
  | some names => simp

/-- Once the list is taken apart, looking for a wildcard in it lets nothing else through. -/
theorem admits_restriction_iff {ns : String} :
    (match restriction namespaces with
      | none => true
      | some v => v.isEmpty || v.contains ns || v.contains "*") = true ↔
        Covers namespaces ns := by
  rw [← contains_restriction_iff]
  cases given : restriction namespaces with
  | none => rfl
  | some names =>
    have spec := restriction_spec given
    have unblank : names.isEmpty = false := by simpa using spec.1
    have plain : names.contains "*" = false := by simpa using spec.2
    dsimp only
    rw [unblank, plain, Bool.false_or, Bool.or_false]

end Rendering

section Chart

variable {values : Values}

/-- The restrictions are those that the values mean. -/
theorem Configuration.new_environment (plain : values.Plain) :
    Configuration.new values.environment =
      ⟨restriction values.watchNamespaces, restriction values.sourceNamespaces,
        restriction values.targetNamespaces⟩ := by
  have watch := @envVar_rendered _ values.environment "WATCH_NAMESPACES" rfl plain.watch
  have source := @envVar_rendered _ values.environment "SOURCE_NAMESPACES" rfl plain.source
  have target := @envVar_rendered _ values.environment "TARGET_NAMESPACES" rfl plain.target
  unfold Configuration.new
  rw [watch, source, target]

/-- The only namespace that is listed is the only one that is watched. -/
theorem Configuration.resourceSync_eq_some_iff {configuration : Configuration} {ns : String} :
    configuration.resourceSync = some ns ↔
      ∃ names, configuration.watchNamespaces = some names ∧ names.dedup = [ns] := by
  unfold resourceSync
  cases configuration.watchNamespaces with
  | none => simp
  | some names =>
    cases unique : names.dedup with
    | nil => simp [unique]
    | cons first rest => cases rest <;> simp [unique]

/-- Listing a single watched namespace leaves no watched ObjectSync out. -/
theorem Configuration.listsSync_of_watches {ns : String}
    (covers : Covers values.watchNamespaces ns) (plain : values.Plain) :
    (Configuration.new values.environment).listsSync ns = true := by
  rw [new_environment plain]
  unfold listsSync
  cases single : resourceSync _ with
  | none => rfl
  | some only =>
    obtain ⟨names, given, unique⟩ := resourceSync_eq_some_iff.mp single
    have member := List.mem_dedup.mpr (mem_restriction_iff.mpr covers names given)
    rw [unique, List.mem_singleton] at member
    exact beq_iff_eq.mpr member

/-- The controller handles the ObjectSyncs, the sources and the copies in the namespaces that the
values of its chart cover: neither the joining of the values, nor their parsing, nor what is left
out of the lists makes a difference. -/
theorem configured_as_rendered (plain : values.Plain) :
    (∀ ns, (Configuration.new values.environment).listsSync ns = true ∧
        ObjectSyncController.watches (Configuration.new values.environment) ns = true ↔
      Covers values.watchNamespaces ns) ∧
    ∀ self : ResourceControllerImpl, self.configuration = .new values.environment →
      ∀ object ns, object.metadata.namespace_ = some ns →
        (ResourceControllerImpl.listed self.configuration.sourceNamespaces object = true ∧
            self.isSourceNamespace ns = true ↔ Covers values.sourceNamespaces ns) ∧
        (ResourceControllerImpl.listed self.configuration.targetNamespaces object = true ∧
            self.isTargetNamespace ns = true ↔ Covers values.targetNamespaces ns) := by
  have restrictions := Configuration.new_environment plain
  constructor
  · intro ns
    have watched : ObjectSyncController.watches (Configuration.new values.environment) ns = true ↔
        Covers values.watchNamespaces ns := by
      rw [restrictions]
      exact admits_restriction_iff
    constructor
    · intro handled
      exact watched.mp handled.2
    · intro covers
      exact ⟨Configuration.listsSync_of_watches covers plain, watched.mpr covers⟩
  · intro self configured object ns inside
    have source : self.isSourceNamespace ns = true ↔ Covers values.sourceNamespaces ns := by
      unfold ResourceControllerImpl.isSourceNamespace
      rw [configured, restrictions]
      exact admits_restriction_iff
    have target : self.isTargetNamespace ns = true ↔ Covers values.targetNamespaces ns := by
      unfold ResourceControllerImpl.isTargetNamespace
      rw [configured, restrictions]
      exact contains_restriction_iff
    constructor
    · constructor
      · intro handled
        exact source.mp handled.2
      · intro covers
        refine ⟨ResourceControllerImpl.listed_of_mem inside ?_, source.mpr covers⟩
        rw [configured, restrictions]
        exact mem_restriction_iff.mpr covers
    · constructor
      · intro handled
        exact target.mp handled.2
      · intro covers
        exact ⟨ResourceControllerImpl.listed_of_isTargetNamespace inside (target.mpr covers),
          target.mpr covers⟩

end Chart

/-- With the default values, sources are limited to two namespaces, and copies to none. -/
theorem default_configured :
    ObjectSyncController.watches (Configuration.new Values.default.environment)
      "kube-system" = true ∧
    ∀ self : ResourceControllerImpl, self.configuration = .new Values.default.environment →
      ¬(ResourceControllerImpl.listed self.configuration.sourceNamespaces
          ⟨none, { namespace_ := some "shop" }, []⟩ = true ∧ self.isSourceNamespace "shop" = true) ∧
        self.isTargetNamespace "shop" = true := by
  have spec := configured_as_rendered Values.default_plain
  constructor
  · exact ((spec.1 "kube-system").mpr (by decide)).2
  · intro self configured
    have sides := spec.2 self configured ⟨none, { namespace_ := some "shop" }, []⟩ "shop" rfl
    constructor
    · rw [sides.1]
      decide
    · exact (sides.2.mpr (by decide)).2

end ObjectSyncer
