import ObjectSyncer.Serialization.Codec

/-!
# Schemas of JSON

A schema says which JSON values a server admits, and what it keeps of them: members that are not
properties of the schema are dropped. A schema agrees with a codec when everything that is written
is admitted and kept as it is, and when what is admitted can be read exactly if a stricter schema
admits it too. Agreement is proved field by field.
-/
namespace Serialization

/-- What a server admits and keeps of a JSON value. -/
structure Schema where
  /-- Whether a value is admitted. -/
  admits : Json → Bool
  /-- What is kept of it. -/
  prune : Json → Json
  /-- What is kept once is kept. -/
  prune_prune : ∀ value, prune (prune value) = prune value

namespace Schema

/-- The schema of strings. -/
def string : Schema where
  admits
    | .string _ => true
    | _ => false
  prune := id
  prune_prune _ := rfl

/-- The schema of some strings. -/
def oneOf (values : List String) : Schema where
  admits
    | .string value => values.contains value
    | _ => false
  prune := id
  prune_prune _ := rfl

/-- The schema of integers between two bounds. -/
def integer (least greatest : Int) : Schema where
  admits
    | .number value => decide (least ≤ value ∧ value ≤ greatest)
    | _ => false
  prune := id
  prune_prune _ := rfl

/-- What is kept of the items of an array. -/
def pruneItems (items : Schema) : Json → Json
  | .array values => .array (values.map items.prune)
  | other => other

/-- The schema of arrays of items. -/
def array (items : Schema) : Schema where
  admits
    | .array values => values.all items.admits
    | _ => false
  prune := items.pruneItems
  prune_prune value := by
    cases value with
    | array values =>
      have again : items.prune ∘ items.prune = items.prune := funext items.prune_prune
      simp [pruneItems, again]
    | _ => rfl

/-- What a property keeps of its member. -/
def pruneMember (properties : List (String × Schema)) (member : String × Json) :
    Option (String × Json) :=
  (properties.lookup member.1).map fun schema => (member.1, schema.prune member.2)

/-- What is kept of a member is kept. -/
theorem pruneMember_bind (properties : List (String × Schema)) (member : String × Json) :
    (pruneMember properties member).bind (pruneMember properties) =
      pruneMember properties member := by
  cases found : properties.lookup member.1 with
  | none => simp [pruneMember, found]
  | some schema => simp [pruneMember, found, schema.prune_prune]

/-- What is kept of the members of an object. -/
def pruneMembers (properties : List (String × Schema)) : Json → Json
  | .object members => .object (members.filterMap (pruneMember properties))
  | other => other

/-- An object with properties, some of which are required. -/
def object (properties : List (String × Schema)) (required : List String) : Schema where
  admits
    | .object members =>
      (properties.all fun property => (members.lookup property.1).all property.2.admits) &&
        required.all fun key => (members.lookup key).isSome
    | _ => false
  prune := pruneMembers properties
  prune_prune value := by
    cases value with
    | object members => simp [pruneMembers, List.filterMap_filterMap, pruneMember_bind]
    | _ => rfl

/-- What is kept where `null` is admitted. -/
def pruneNullable (schema : Schema) : Json → Json
  | .null => .null
  | value => schema.prune value

/-- What is not `null` is kept as elsewhere. -/
theorem pruneNullable_eq (schema : Schema) {value : Json} (present : value ≠ .null) :
    schema.pruneNullable value = schema.prune value := by
  cases value <;> first | rfl | exact absurd rfl present

/-- The schema of what another one admits, or `null`. -/
def nullable (schema : Schema) : Schema where
  admits
    | .null => true
    | value => schema.admits value
  prune := schema.pruneNullable
  prune_prune value := by
    by_cases isNull : value = .null
    · rw [isNull]
      rfl
    · rw [schema.pruneNullable_eq isNull]
      by_cases nothing : schema.prune value = .null
      · rw [nothing]
        rfl
      · rw [schema.pruneNullable_eq nothing, schema.prune_prune]

/-- What a server stores of a value that is sent to it. -/
def stores (schema : Schema) (value : Json) : Option Json :=
  if schema.admits (schema.prune value) then some (schema.prune value) else none

/-- What is stored is stored again as it is. -/
theorem stores_stores (schema : Schema) {value stored : Json}
    (stores : schema.stores value = some stored) : schema.stores stored = some stored := by
  unfold Schema.stores at stores ⊢
  split at stores
  · rename_i admitted
    obtain rfl := Option.some.inj stores
    rw [schema.prune_prune, if_pos admitted]
  · contradiction

/-- A schema agrees with a codec. What is admitted can be read if the strict schema admits it. -/
structure Agrees {α : Type} (schema strict : Schema) (codec : Codec α) : Prop where
  /-- What is written is admitted. -/
  admitted : ∀ value, codec.Fits value → schema.admits (codec.encode value)
  /-- Nothing of it is dropped. -/
  kept : ∀ value, codec.Fits value → schema.prune (codec.encode value) = codec.encode value
  /-- What is admitted can be read exactly if the strict schema admits it. -/
  read : ∀ json, schema.admits json → ((codec.decode json).isSome ↔ strict.admits json)

namespace Agrees

variable {α : Type} {schema strict : Schema} {codec : Codec α}

/-- All strings can be read. -/
theorem string : Agrees .string .string .string where
  admitted _ _ := rfl
  kept _ _ := rfl
  read json admitted := by cases json <;> simp_all [Schema.string, Codec.string]

/-- All integers between the bounds can be read. -/
theorem integer (least greatest : Int) :
    Agrees (.integer least greatest) (.integer least greatest) (.integer least greatest) where
  admitted _ fits := decide_eq_true fits
  kept _ _ := rfl
  read json admitted := by
    cases json <;> simp_all [Schema.integer, Codec.integer]

/-- Of the strings, the names can be read. -/
theorem enum {name : α → String} {find : String → Option α}
    (found : ∀ value, find (name value) = some value) {values : List String}
    (listed : ∀ text, (find text).isSome ↔ text ∈ values) :
    Agrees .string (.oneOf values) (.enum name find found) where
  admitted _ _ := rfl
  kept _ _ := rfl
  read json admitted := by
    cases json <;> simp_all [Schema.string, Schema.oneOf, Codec.enum]

/-- Arrays can be read when their items can. -/
theorem array (agrees : schema.Agrees strict codec) :
    Agrees schema.array strict.array codec.list where
  admitted values fits := by
    show (values.map codec.encode).all schema.admits = true
    rw [List.all_map, List.all_eq_true]
    exact fun value member => agrees.admitted value (fits value member)
  kept values fits := by
    show Json.array ((values.map codec.encode).map schema.prune) = .array (values.map codec.encode)
    rw [List.map_map]
    congr 1
    exact List.map_congr_left fun value member => agrees.kept value (fits value member)
  read json admitted := by
    cases json with
    | array items =>
      have each := List.all_eq_true.mp admitted
      show (codec.decodeItems items).isSome ↔ items.all strict.admits = true
      rw [codec.decodeItems_isSome, List.all_eq_true]
      exact forall₂_congr fun item member => agrees.read item (each item member)
    | _ => exact absurd admitted Bool.false_ne_true

end Agrees

end Schema

/-- Properties agree with the fields of a record. -/
structure Fields.Agrees {α : Type} (fields : Fields α) (properties strict : List (String × Schema))
    (required : List String) : Prop where
  /-- What is written has a property that admits it and keeps it as it is. -/
  written : ∀ value, fields.Fits value → ∀ entry ∈ fields.encode value, ∃ schema,
    properties.lookup entry.1 = some schema ∧ schema.admits entry.2 ∧ schema.prune entry.2 = entry.2
  /-- What is required is written. -/
  required_written : ∀ value, ∀ key ∈ fields.keys, key ∈ required →
    ((fields.encode value).lookup key).isSome
  /-- What is admitted can be read exactly if the strict properties admit it. -/
  read : ∀ find : String → Option Json,
    (∀ key ∈ fields.keys, ∀ schema, properties.lookup key = some schema →
      (find key).all schema.admits) →
    (∀ key ∈ fields.keys, key ∈ required → (find key).isSome) →
    ((fields.decode find).isSome ↔ ∀ key ∈ fields.keys, ∀ schema, strict.lookup key = some schema →
      (find key).all schema.admits)

namespace Fields.Agrees

variable {α β : Type} {properties strict : List (String × Schema)} {keys : List String}

/-- A required field agrees when its codec does. -/
theorem required {codec : Codec α} {schema schema' : Schema} {key : String}
    (agrees : schema.Agrees schema' codec) (property : properties.lookup key = some schema)
    (property' : strict.lookup key = some schema') (required : key ∈ keys) :
    (Fields.required key codec).Agrees properties strict keys where
  written value fits entry member := by
    obtain rfl := List.mem_singleton.mp member
    exact ⟨schema, property, agrees.admitted value fits, agrees.kept value fits⟩
  required_written value other member _ := by
    obtain rfl := List.mem_singleton.mp member
    simp [Fields.required]
  read find admitted there := by
    have found := there key List.mem_cons_self required
    obtain ⟨json, found⟩ := Option.isSome_iff_exists.mp found
    have admitted := admitted key List.mem_cons_self schema property
    rw [found] at admitted
    simp only [Fields.required, found, Option.bind_some, agrees.read json admitted,
      List.forall_mem_singleton, property', Option.some.injEq, forall_eq', Option.all_some]

/-- An optional field agrees when its codec does; `null` is admitted there. -/
theorem optional {codec : Codec α} {schema schema' : Schema} {key : String}
    (agrees : schema.Agrees schema' codec) (property : properties.lookup key = some schema.nullable)
    (property' : strict.lookup key = some schema'.nullable) (notRequired : key ∉ keys) :
    (Fields.optional key codec).Agrees properties strict keys where
  written value fits entry member := by
    cases value with
    | none => exact absurd member List.not_mem_nil
    | some value =>
      obtain rfl := List.mem_singleton.mp member
      have present := codec.present value
      have admitted := agrees.admitted value (fits value rfl)
      have kept := agrees.kept value (fits value rfl)
      refine ⟨_, property, ?_⟩
      generalize codec.encode value = json at present admitted kept
      cases json <;> first | exact ⟨admitted, kept⟩ | exact absurd rfl present
  required_written value other member isRequired := by
    obtain rfl := List.mem_singleton.mp member
    exact absurd isRequired notRequired
  read find admitted _ := by
    have admitted := admitted key List.mem_cons_self schema.nullable property
    simp only [Fields.optional, List.forall_mem_singleton, property', Option.some.injEq,
      forall_eq']
    cases found : find key with
    | none => simp [Fields.decodeOptional]
    | some json =>
      rw [found, Option.all_some] at admitted
      by_cases isNull : json = .null
      · subst isNull
        simp [Fields.decodeOptional, Schema.nullable]
      · have read := agrees.read json
        rw [Fields.decodeOptional_some codec isNull]
        cases json <;> simp_all [Schema.nullable]

/-- The fields of two records agree when those of each do. -/
theorem pair {left : Fields α} {right : Fields β} {apart : ∀ key ∈ left.keys, key ∉ right.keys}
    (first : left.Agrees properties strict keys) (second : right.Agrees properties strict keys) :
    (left.pair right apart).Agrees properties strict keys where
  written value fits entry member := by
    rcases List.mem_append.mp member with member | member
    · exact first.written value.1 fits.1 entry member
    · exact second.written value.2 fits.2 entry member
  required_written value key member isRequired := by
    show ((left.encode value.1 ++ right.encode value.2).lookup key).isSome
    rw [List.lookup_append, Option.isSome_or, Bool.or_eq_true]
    rcases List.mem_append.mp member with member | member
    · exact .inl (first.required_written value.1 key member isRequired)
    · exact .inr (second.required_written value.2 key member isRequired)
  read find admitted there := by
    have readLeft :=
      first.read find (fun key member => admitted key (List.mem_append_left _ member))
      fun key member => there key (List.mem_append_left _ member)
    have readRight := second.read find
      (fun key member => admitted key (List.mem_append_right _ member))
      fun key member => there key (List.mem_append_right _ member)
    have both : ((left.pair right apart).decode find).isSome ↔
        (left.decode find).isSome ∧ (right.decode find).isSome := by
      cases decodedLeft : left.decode find <;> cases decodedRight : right.decode find <;>
        simp [Fields.pair, decodedLeft, decodedRight]
    rw [both, readLeft, readRight]
    exact List.forall_mem_append.symm

/-- The fields of a structure agree when those that it is made of do. -/
theorem map {fields : Fields α} {pack : α → β} {unpack : β → α}
    {inverse : ∀ value, pack (unpack value) = value}
    (agrees : fields.Agrees properties strict keys) :
    (fields.map pack unpack inverse).Agrees properties strict keys where
  written value fits := agrees.written (unpack value) fits
  required_written value := agrees.required_written (unpack value)
  read find admitted there := by
    have read := agrees.read find admitted there
    show ((fields.decode find).map pack).isSome ↔ _
    rw [Option.isSome_map]
    exact read

end Fields.Agrees

/-- What is found under a key is an entry of that key. -/
theorem mem_of_lookup {ν : Type} {entries : List (String × ν)} {key : String} {found : ν}
    (lookup : entries.lookup key = some found) : (key, found) ∈ entries := by
  obtain ⟨front, back, rfl, -⟩ := List.lookup_eq_some_iff.mp lookup
  simp

/-- A property is found under its key. -/
theorem lookup_eq_some_iff_mem {properties : List (String × Schema)}
    (distinct : (properties.map Prod.fst).Nodup) {key : String} {schema : Schema} :
    properties.lookup key = some schema ↔ (key, schema) ∈ properties := by
  refine ⟨mem_of_lookup, fun member => ?_⟩
  cases found : properties.lookup key with
  | none =>
    have different := List.lookup_eq_none_iff.mp found _ member
    simp at different
  | some schema' =>
    have same := List.inj_on_of_nodup_map distinct (mem_of_lookup found) member rfl
    simpa using same

/-- All members are admitted when those that are found under the keys of the properties are. -/
theorem all_properties_iff {properties : List (String × Schema)} {keys : List String}
    (distinct : (properties.map Prod.fst).Nodup)
    (keyed : ∀ key ∈ properties.map Prod.fst, key ∈ keys) (find : String → Option Json) :
    (properties.all fun property => (find property.1).all property.2.admits) ↔
      ∀ key ∈ keys, ∀ schema, properties.lookup key = some schema →
        (find key).all schema.admits := by
  rw [List.all_eq_true]
  constructor
  · intro all key _ schema found
    exact all (key, schema) ((lookup_eq_some_iff_mem distinct).mp found)
  · rintro all ⟨key, schema⟩ member
    exact all key (keyed key (List.mem_map_of_mem member)) schema
      ((lookup_eq_some_iff_mem distinct).mpr member)

/-- An object agrees with a record when its properties are fields and agree with them. -/
theorem Schema.Agrees.object {α : Type} {fields : Fields α}
    {properties strict : List (String × Schema)} {required : List String}
    (agrees : fields.Agrees properties strict required)
    (same : strict.map Prod.fst = properties.map Prod.fst)
    (distinct : (properties.map Prod.fst).Nodup)
    (keyed : ∀ key ∈ properties.map Prod.fst, key ∈ fields.keys)
    (requiredKeyed : ∀ key ∈ required, key ∈ fields.keys) :
    Agrees (.object properties required) (.object strict required) (.record fields) where
  admitted value fits := by
    have found (key : String) := Json.member_ofMembers (fields.encode_distinct value) key
    refine Bool.and_eq_true_iff.mpr ⟨(all_properties_iff distinct keyed
      fun key => (Json.ofMembers (fields.encode value)).member key).mpr ?_, ?_⟩
    · intro key _ schema property
      show ((Json.ofMembers (fields.encode value)).member key).all schema.admits = true
      rw [found key, Option.all_eq_true]
      intro json member
      obtain ⟨schema', property', admitted, -⟩ := agrees.written value fits (key, json)
        (mem_of_lookup member)
      rw [property] at property'
      exact Option.some.inj property' ▸ admitted
    · rw [List.all_eq_true]
      intro key isRequired
      show ((Json.ofMembers (fields.encode value)).member key).isSome
      rw [found key]
      exact agrees.required_written value key (requiredKeyed key isRequired) isRequired
  kept value fits := by
    show Json.object (List.filterMap _ _) = Json.object _
    congr 1
    have keeps (entry : String × Json) (member : entry ∈ fields.encode value) :
        Schema.pruneMember properties entry = some entry := by
      obtain ⟨schema, property, -, kept⟩ := agrees.written value fits entry member
      simp [Schema.pruneMember, property, kept]
    refine (List.filterMap_congr fun entry member => ?_).trans List.filterMap_some
    exact keeps entry ((List.perm_insertionSort _ _).mem_iff.mp member)
  read json admitted := by
    cases json with
    | object members =>
      obtain ⟨all, there⟩ := Bool.and_eq_true_iff.mp admitted
      have read := agrees.read (fun key => members.lookup key)
        ((all_properties_iff distinct keyed _).mp all)
        fun key _ isRequired => List.all_eq_true.mp there key isRequired
      have strictly := all_properties_iff (same ▸ distinct) (same ▸ keyed)
        fun key => members.lookup key
      show (fields.decode fun key => members.lookup key).isSome ↔ (_ && _) = true
      rw [read, ← strictly, Bool.and_eq_true, and_iff_left there]
    | _ => exact absurd admitted Bool.false_ne_true

end Serialization
