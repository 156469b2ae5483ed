import Mathlib.Data.List.Basic

/-!
# Role based access

What requests to resources ask for, and what roles grant. A role is bound in one namespace or in all
of them, and grants what one of its rules matches. A family of equal roles, one for each namespace
of a list, grants exactly what its rules match in the namespaces that the list reaches.
-/
namespace Access

/-- What may be done to a resource. -/
inductive Verb where
  | list
  | get
  | watch
  | create
  | delete
  | patch
  | update
  deriving DecidableEq, Repr

/-- A kind of resource, or what is stored below one. -/
structure Resource where
  group : String
  plural : String
  subresource : String
  deriving DecidableEq, Repr

/-- The resource together with its subresource. -/
def Resource.combined (resource : Resource) : String :=
  if resource.subresource = "" then resource.plural
  else resource.plural ++ "/" ++ resource.subresource

/-- Whether lists of groups and of resources include a resource. -/
def Resource.within (resource : Resource) (apiGroups resources : List String) : Bool :=
  (apiGroups.contains "*" || apiGroups.contains resource.group) &&
    (resources.contains "*" || resources.contains resource.combined ||
      (resource.subresource != "" && resources.contains ("*/" ++ resource.subresource)))

/-- What a request asks for. A request without a namespace is about all of them, or about a resource
that lies in none. -/
structure Attributes where
  verb : Verb
  resource : Resource
  namespace_ : Option String
  deriving DecidableEq, Repr

/-- A rule of a role. -/
structure PolicyRule where
  apiGroups : List String
  resources : List String
  verbs : List Verb
  deriving DecidableEq, Repr

/-- Whether a rule matches what is asked for. -/
def PolicyRule.allows (rule : PolicyRule) (asked : Attributes) : Bool :=
  rule.verbs.contains asked.verb && asked.resource.within rule.apiGroups rule.resources

/-- A role and where it is bound: in a namespace, or in all of them. -/
structure Role where
  namespace_ : Option String
  rules : List PolicyRule
  deriving DecidableEq, Repr

/-- Whether a role grants what is asked for. -/
def Role.grants (role : Role) (asked : Attributes) : Bool :=
  (role.namespace_ == none || role.namespace_ == asked.namespace_) &&
    role.rules.any fun rule => rule.allows asked

/-- Equal roles for the namespaces of a list, where a wildcard stands for all namespaces. -/
def rolesFor (namespaces : List String) (rules : List PolicyRule) : List Role :=
  namespaces.map fun ns => ⟨if ns = "*" then none else some ns, rules⟩

/-- A list of namespaces reaches the namespace of a request. -/
def Reaches (namespaces : List String) (asked : Option String) : Prop :=
  "*" ∈ namespaces ∨ ∃ ns ∈ namespaces, asked = some ns

section Rules

variable {namespaces : List String} {rules : List PolicyRule} {asked : Attributes}

/-- A request for one namespace is reached by that namespace, or by the wildcard. -/
theorem reaches_some_iff {ns : String} :
    Reaches namespaces (some ns) ↔ "*" ∈ namespaces ∨ ns ∈ namespaces := by
  unfold Reaches
  apply or_congr_right
  constructor
  · intro found
    obtain ⟨other, member, same⟩ := found
    rw [Option.some.inj same]
    exact member
  · intro member
    exact ⟨ns, member, rfl⟩

/-- A request for all namespaces is reached by the wildcard alone. -/
theorem reaches_none_iff : Reaches namespaces none ↔ "*" ∈ namespaces := by
  unfold Reaches
  constructor
  · intro found
    rcases found with wildcard | found
    · exact wildcard
    · obtain ⟨ns, member, same⟩ := found
      cases same
  · exact Or.inl

/-- A rule allows its verbs on what it includes. -/
theorem PolicyRule.allows_iff {rule : PolicyRule} :
    rule.allows asked = true ↔
      asked.verb ∈ rule.verbs ∧ asked.resource.within rule.apiGroups rule.resources = true := by
  simp [allows]

/-- The roles of a list of namespaces grant what one of the rules allows, in a namespace that the
list reaches: no more and no less. -/
theorem rolesFor_grants_iff :
    (∃ role ∈ rolesFor namespaces rules, role.grants asked = true) ↔
      Reaches namespaces asked.namespace_ ∧ ∃ rule ∈ rules, rule.allows asked = true := by
  have bound (ns : String) : Role.grants ⟨if ns = "*" then none else some ns, rules⟩ asked = true ↔
      (ns = "*" ∨ asked.namespace_ = some ns) ∧ ∃ rule ∈ rules, rule.allows asked = true := by
    unfold Role.grants
    by_cases wildcard : ns = "*"
    · simp [wildcard]
    · have here : ((some ns == none) || (some ns == asked.namespace_)) = true ↔
          ns = "*" ∨ asked.namespace_ = some ns := by
        have swapped : asked.namespace_ = some ns ↔ some ns = asked.namespace_ := eq_comm
        rw [swapped]
        simp [wildcard]
      rw [if_neg wildcard, Bool.and_eq_true, List.any_eq_true, here]
  unfold rolesFor Reaches
  constructor
  · intro found
    obtain ⟨role, member, grants⟩ := found
    obtain ⟨ns, listed, same⟩ := List.mem_map.mp member
    rw [← same, bound] at grants
    refine ⟨?_, grants.2⟩
    rcases grants.1 with wildcard | here
    · rw [wildcard] at listed
      exact .inl listed
    · exact .inr ⟨ns, listed, here⟩
  · intro found
    obtain ⟨reached, allowed⟩ := found
    rcases reached with wildcard | found
    · exact ⟨_, List.mem_map_of_mem wildcard, (bound "*").mpr ⟨.inl rfl, allowed⟩⟩
    · obtain ⟨ns, listed, here⟩ := found
      exact ⟨_, List.mem_map_of_mem listed, (bound ns).mpr ⟨.inr here, allowed⟩⟩

/-- A role that is bound in all namespaces grants in each what one of its rules allows. -/
theorem Role.grants_everywhere_iff :
    Role.grants ⟨none, rules⟩ asked = true ↔ ∃ rule ∈ rules, rule.allows asked = true := by
  simp [grants]

end Rules

end Access
