import Mathlib.Data.List.Sort
import Mathlib.Data.List.Nodup

/-!
# Values as JSON

A codec writes a value as JSON and reads values back. A record is written as an object with a
member for each field; a field that is absent is not written, and reads as absent, as `null` does.
Members that no field has are skipped. A codec carries its round-trip law, so a record built from
fields with different keys reads back by construction.
-/
namespace Serialization

/-- A JSON value; the members of an object are in key order. -/
inductive Json where
  | null
  | bool (value : Bool)
  | number (value : Int)
  | string (value : String)
  | array (items : List Json)
  | object (members : List (String × Json))

/-- The key order of members. -/
def keyOrder (left right : String × Json) : Prop := left.1 ≤ right.1

/-- The order of two keys can be computed. -/
instance : DecidableRel keyOrder := fun left right =>
  inferInstanceAs (Decidable (left.1 ≤ right.1))

/-- An object with given members. -/
def Json.ofMembers (members : List (String × Json)) : Json :=
  .object (members.insertionSort keyOrder)

/-- The member of a key of a JSON value. -/
def Json.member (key : String) : Json → Option Json
  | .object members => members.lookup key
  | _ => none

/-- Whatever the order of members with different keys, the same is found. -/
theorem lookup_of_perm {members members' : List (String × Json)} (perm : members.Perm members')
    (distinct : (members.map Prod.fst).Nodup) (key : String) :
    members.lookup key = members'.lookup key := by
  induction perm with
  | nil => rfl
  | cons entry _ ih =>
    obtain ⟨first, found⟩ := entry
    have rest := (List.nodup_cons.mp distinct).2
    simp only [List.lookup_cons, ih rest]
  | swap first second rest =>
    obtain ⟨first, found⟩ := first
    obtain ⟨second, found'⟩ := second
    have different : second ≠ first := by
      intro same
      simp [same] at distinct
    by_cases atFirst : key = first
    · have notSecond : (key == second) = false := by simpa [atFirst] using different.symm
      simp only [List.lookup_cons, notSecond]
    · have notFirst : (key == first) = false := by simpa using atFirst
      simp only [List.lookup_cons, notFirst]
  | trans front _ first second =>
    rw [first distinct, second ((front.map Prod.fst).nodup_iff.mp distinct)]

/-- The members of an object are found under their keys. -/
theorem Json.member_ofMembers {members : List (String × Json)}
    (distinct : (members.map Prod.fst).Nodup) (key : String) :
    (Json.ofMembers members).member key = members.lookup key := by
  have perm := List.perm_insertionSort keyOrder members
  exact (lookup_of_perm perm.symm distinct key).symm

/-- How values of one type are written and read. -/
structure Codec (α : Type) where
  /-- Write a value. -/
  encode : α → Json
  /-- Read a value. -/
  decode : Json → Option α
  /-- The values that can be stored. -/
  Fits : α → Prop
  /-- What is stored reads back. -/
  roundtrip : ∀ value, Fits value → decode (encode value) = some value
  /-- No value is written as `null`. -/
  present : ∀ value, encode value ≠ .null

namespace Codec

variable {α β : Type}

/-- The codec of strings. -/
def string : Codec String where
  encode := .string
  decode
    | .string value => some value
    | _ => none
  Fits _ := True
  roundtrip _ _ := rfl
  present _ := Json.noConfusion

/-- The codec of integers between two bounds. -/
def integer (least greatest : Int) : Codec Int where
  encode := .number
  decode
    | .number value => if least ≤ value ∧ value ≤ greatest then some value else none
    | _ => none
  Fits value := least ≤ value ∧ value ≤ greatest
  roundtrip _ fits := if_pos fits
  present _ := Json.noConfusion

/-- The codec of values with finitely many names. -/
def enum (name : α → String) (find : String → Option α)
    (found : ∀ value, find (name value) = some value) : Codec α where
  encode value := .string (name value)
  decode
    | .string text => find text
    | _ => none
  Fits _ := True
  roundtrip value _ := found value
  present _ := Json.noConfusion

/-- Read all items of an array. -/
def decodeItems (codec : Codec α) : List Json → Option (List α)
  | [] => some []
  | item :: rest => do
    let value ← codec.decode item
    let values ← decodeItems codec rest
    some (value :: values)

/-- What is stored item by item reads back. -/
theorem decodeItems_map (codec : Codec α) (values : List α)
    (fits : ∀ value ∈ values, codec.Fits value) :
    codec.decodeItems (values.map codec.encode) = some values := by
  induction values with
  | nil => rfl
  | cons value rest ih =>
    have first := codec.roundtrip value (fits value List.mem_cons_self)
    have others := ih fun other member => fits other (List.mem_cons_of_mem _ member)
    simp [decodeItems, first, others]

/-- The items can be read when each can. -/
theorem decodeItems_isSome (codec : Codec α) (items : List Json) :
    (codec.decodeItems items).isSome ↔ ∀ item ∈ items, (codec.decode item).isSome := by
  induction items with
  | nil => simp [decodeItems]
  | cons item rest ih =>
    rw [List.forall_mem_cons, ← ih]
    cases first : codec.decode item <;> cases others : codec.decodeItems rest <;>
      simp [decodeItems, first, others]

/-- The codec of lists of values. -/
def list (codec : Codec α) : Codec (List α) where
  encode values := .array (values.map codec.encode)
  decode
    | .array items => codec.decodeItems items
    | _ => none
  Fits values := ∀ value ∈ values, codec.Fits value
  roundtrip := codec.decodeItems_map
  present _ := Json.noConfusion

end Codec

/-- How the fields of a record are written as members of an object, and read. -/
structure Fields (α : Type) where
  /-- The keys of the fields. -/
  keys : List String
  /-- No two fields have one key. -/
  distinct : keys.Nodup
  /-- The members, in the order of the fields. -/
  encode : α → List (String × Json)
  /-- Read the fields, given what is found under each key. -/
  decode : (String → Option Json) → Option α
  /-- The records that can be stored. -/
  Fits : α → Prop
  /-- The members have the keys of their fields. -/
  keyed : ∀ value, ((encode value).map Prod.fst).Sublist keys
  /-- Other members are skipped. -/
  reads : ∀ find find', (∀ key ∈ keys, find key = find' key) → decode find = decode find'
  /-- What is stored reads back. -/
  roundtrip : ∀ value, Fits value → decode (fun key => (encode value).lookup key) = some value

namespace Fields

variable {α β : Type}

/-- Nothing is found under the keys of other fields. -/
theorem lookup_of_not_mem (fields : Fields α) (value : α) {key : String}
    (other : key ∉ fields.keys) : (fields.encode value).lookup key = none := by
  rw [List.lookup_eq_none_iff]
  intro entry member
  have listed := (fields.keyed value).subset (List.mem_map_of_mem member)
  simpa using fun same : key = entry.1 => other (same ▸ listed)

/-- A field that is always there. -/
def required (key : String) (codec : Codec α) : Fields α where
  keys := [key]
  distinct := List.nodup_singleton key
  encode value := [(key, codec.encode value)]
  decode find := (find key).bind codec.decode
  Fits := codec.Fits
  keyed _ := .refl _
  reads find find' same := by rw [same key List.mem_cons_self]
  roundtrip value fits := by simpa using codec.roundtrip value fits

/-- Read what is found of a field that may be absent. -/
def decodeOptional (codec : Codec α) : Option Json → Option (Option α)
  | none => some none
  | some .null => some none
  | some found => (codec.decode found).map some

/-- What is found and not `null` is read. -/
theorem decodeOptional_some (codec : Codec α) {found : Json} (present : found ≠ .null) :
    decodeOptional codec (some found) = (codec.decode found).map some := by
  cases found <;> first | rfl | exact absurd rfl present

/-- A value that is stored or absent reads back. -/
theorem decodeOptional_map (codec : Codec α) (value : Option α)
    (fits : ∀ present ∈ value, codec.Fits present) :
    decodeOptional codec (value.map codec.encode) = some value := by
  cases value with
  | none => rfl
  | some value =>
    have back := codec.roundtrip value (fits value rfl)
    rw [Option.map_some, decodeOptional_some codec (codec.present value), back]
    rfl

/-- A field that may be absent. -/
def optional (key : String) (codec : Codec α) : Fields (Option α) where
  keys := [key]
  distinct := List.nodup_singleton key
  encode
    | none => []
    | some value => [(key, codec.encode value)]
  decode find := decodeOptional codec (find key)
  Fits value := ∀ present ∈ value, codec.Fits present
  keyed value := by cases value <;> simp
  reads find find' same := by rw [same key List.mem_cons_self]
  roundtrip value fits := by
    refine Eq.trans ?_ (decodeOptional_map codec value fits)
    congr 1
    cases value <;> simp

/-- The fields of two records with different keys. -/
def pair (left : Fields α) (right : Fields β) (apart : ∀ key ∈ left.keys, key ∉ right.keys) :
    Fields (α × β) where
  keys := left.keys ++ right.keys
  distinct := List.nodup_append.mpr ⟨left.distinct, right.distinct,
    fun key member _ member' same => apart key member (same ▸ member')⟩
  encode value := left.encode value.1 ++ right.encode value.2
  decode find := do
    let first ← left.decode find
    let second ← right.decode find
    some (first, second)
  Fits value := left.Fits value.1 ∧ right.Fits value.2
  keyed value := by
    rw [List.map_append]
    exact (left.keyed value.1).append (right.keyed value.2)
  reads find find' same := by
    have first := left.reads find find' fun key member => same key (List.mem_append_left _ member)
    have second := right.reads find find' fun key member =>
      same key (List.mem_append_right _ member)
    rw [first, second]
  roundtrip value fits := by
    have first : left.decode (fun key => (left.encode value.1 ++ right.encode value.2).lookup key) =
        some value.1 := by
      refine (left.reads _ _ fun key member => ?_).trans (left.roundtrip value.1 fits.1)
      simp [List.lookup_append, right.lookup_of_not_mem value.2 (apart key member)]
    have second : right.decode
      (fun key => (left.encode value.1 ++ right.encode value.2).lookup key) =
        some value.2 := by
      refine (right.reads _ _ fun key member => ?_).trans (right.roundtrip value.2 fits.2)
      have other : key ∉ left.keys := fun listed => apart key listed member
      simp [List.lookup_append, left.lookup_of_not_mem value.1 other]
    simp [first, second]

/-- The fields of a structure that is made of the values of others. -/
def map (fields : Fields α) (pack : α → β) (unpack : β → α)
    (inverse : ∀ value, pack (unpack value) = value) : Fields β where
  keys := fields.keys
  distinct := fields.distinct
  encode value := fields.encode (unpack value)
  decode find := (fields.decode find).map pack
  Fits value := fields.Fits (unpack value)
  keyed value := fields.keyed (unpack value)
  reads find find' same := by rw [fields.reads find find' same]
  roundtrip value fits := by simp [fields.roundtrip (unpack value) fits, inverse]

/-- No two members of an object that is written have one key. -/
theorem encode_distinct (fields : Fields α) (value : α) :
    ((fields.encode value).map Prod.fst).Nodup := fields.distinct.sublist (fields.keyed value)

end Fields

/-- The codec of records, as objects with their fields. -/
def Codec.record {α : Type} (fields : Fields α) : Codec α where
  encode value := .ofMembers (fields.encode value)
  decode
    | .object members => fields.decode fun key => members.lookup key
    | _ => none
  Fits := fields.Fits
  roundtrip value fits := by
    have found (key : String) := Json.member_ofMembers (fields.encode_distinct value) key
    exact (fields.reads _ _ fun key _ => found key).trans (fields.roundtrip value fits)
  present _ := Json.noConfusion

end Serialization
