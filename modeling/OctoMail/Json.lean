import OctoMail.Assoc

/-!
# Documents and record codecs

A document column of the database stores a JSON document as a value: of its text only the
order of members, and a name that occurs twice, are lost. The members of an object are
kept ordered by the length of their names and then by the names, so that a reader finds
them by name only.

A `Codec` is an encoder and a decoder with the proof that a value is read back from the
document that is stored for it. `Fields` is the same for the members of an object: records
are put together from single members, and a record embedded in another adds its members to
those of the outer one. The decoders read what `encoding/json` reads into a zero value: an absent
member and `null` leave the zero value, and a value of another kind is an error.
-/

namespace OctoMail

inductive Json where
  | null
  | bool (value : Bool)
  | number (value : Int)
  | string (value : String)
  | array (items : List Json)
  | object (members : List (String × Json))
deriving Repr

namespace Json

/-- The order in which members are stored. -/
def before (first second : String × Json) : Bool :=
  decide (first.1.utf8ByteSize < second.1.utf8ByteSize) ||
    first.1.utf8ByteSize == second.1.utf8ByteSize && !decide (second.1 < first.1)

mutual

/-- The document as a column stores it. -/
def stored : Json → Json
  | array items => array (storedItems items)
  | object members => object ((Assoc.ofList (storedMembers members)).mergeSort before)
  | null => null
  | bool value => bool value
  | number value => number value
  | string value => string value

def storedItems : List Json → List Json
  | [] => []
  | item :: rest => item.stored :: storedItems rest

def storedMembers : List (String × Json) → List (String × Json)
  | [] => []
  | (name, value) :: rest => (name, value.stored) :: storedMembers rest

end

theorem storedMembers_eq (members : List (String × Json)) :
    storedMembers members = members.map (fun entry => (entry.1, entry.2.stored)) := by
  induction members with
  | nil => rfl
  | cons entry rest ih =>
    rw [storedMembers, ih]
    rfl

/-- The member of an object with a name. -/
def find (members : List (String × Json)) (name : String) : Option Json := Assoc.get members name

/-- Members with distinct names are all found in what is stored. -/
theorem find_stored {members : List (String × Json)} (unique : Assoc.Unique members)
    {entry : String × Json} (member : entry ∈ members) :
    find ((Assoc.ofList (storedMembers members)).mergeSort before) entry.1 =
      some entry.2.stored := by
  have names : (storedMembers members).map Prod.fst = members.map Prod.fst := by
    rw [storedMembers_eq, List.map_map]
    rfl
  have distinct : Assoc.Unique (storedMembers members) := by
    rw [Assoc.Unique, names]
    exact unique
  have sorted : ((storedMembers members).mergeSort before).Perm (storedMembers members) :=
    List.mergeSort_perm _ _
  have listed : (entry.1, entry.2.stored) ∈ storedMembers members := by
    rw [storedMembers_eq]
    exact List.mem_map_of_mem member
  rw [Assoc.ofList_of_unique distinct]
  exact Assoc.get_of_mem ((sorted.map Prod.fst).nodup_iff.mpr distinct) (sorted.mem_iff.mpr listed)

end Json

/-- A way to write values of a type as documents and to read them back. -/
structure Codec (α : Type) where
  encode : α → Json
  decode : Json → Option α
  decode_encode : ∀ value, decode (encode value).stored = some value

namespace Codec

variable {α : Type}

def bool : Codec Bool where
  encode := .bool
  decode
    | .bool value => some value
    | .null => some false
    | _ => none
  decode_encode _ := rfl

def int : Codec Int where
  encode := .number
  decode
    | .number value => some value
    | .null => some 0
    | _ => none
  decode_encode _ := rfl

/-- Numbers that are never negative. -/
def nat : Codec Nat where
  encode value := .number value
  decode
    | .number value => if 0 ≤ value then some value.toNat else none
    | .null => some 0
    | _ => none
  decode_encode value := by simp [Json.stored]

def string : Codec String where
  encode := .string
  decode
    | .string value => some value
    | .null => some ""
    | _ => none
  decode_encode _ := rfl

theorem mapM_decode (codec : Codec α) (values : List α) :
    (Json.storedItems (values.map codec.encode)).mapM codec.decode = some values := by
  induction values with
  | nil => rfl
  | cons value rest ih =>
    rw [List.map_cons, Json.storedItems, List.mapM_cons, codec.decode_encode, ih]
    rfl

/-- A slice, nil being `none`. -/
def slice (codec : Codec α) : Codec (Option (List α)) where
  encode
    | some values => .array (values.map codec.encode)
    | none => .null
  decode
    | .array items => (items.mapM codec.decode).map some
    | .null => some none
    | _ => none
  decode_encode values := by
    cases values with
    | none => rfl
    | some values =>
      simp only [Json.stored]
      rw [codec.mapM_decode]
      rfl

/-- A slice that nothing but appending has filled: nil if it is empty. -/
def appended (codec : Codec α) : Codec (List α) where
  encode values := codec.slice.encode (if values.isEmpty then none else some values)
  decode document := (codec.slice.decode document).map (fun values => values.getD [])
  decode_encode values := by
    rw [codec.slice.decode_encode]
    cases values <;> rfl

end Codec

/-- A way to write values of a type as members of an object and to read them back from any
object that has these members. -/
structure Fields (α : Type) where
  names : List String
  encode : α → List (String × Json)
  encode_names : ∀ value, (encode value).map Prod.fst = names
  decode : (String → Option Json) → Option α
  decode_encode : ∀ value find,
    (∀ entry ∈ encode value, find entry.1 = some entry.2.stored) → decode find = some value

namespace Fields

variable {α β : Type}

/-- A single member; the zero value is what an absent one leaves. -/
def one (name : String) (codec : Codec α) (zero : α) : Fields α where
  names := [name]
  encode value := [(name, codec.encode value)]
  encode_names _ := rfl
  decode find := (find name).elim (some zero) codec.decode
  decode_encode value find found := by
    rw [found (name, codec.encode value) List.mem_cons_self]
    exact codec.decode_encode value

/-- A member that is written with the same document for every value. -/
def fixed (name : String) (document : Json) : Fields Unit where
  names := [name]
  encode _ := [(name, document)]
  encode_names _ := rfl
  decode _ := some ()
  decode_encode _ _ _ := rfl

def pair (first : Fields α) (second : Fields β) : Fields (α × β) where
  names := first.names ++ second.names
  encode value := first.encode value.1 ++ second.encode value.2
  encode_names value := by rw [List.map_append, first.encode_names, second.encode_names]
  decode find := (first.decode find).bind fun left => (second.decode find).map fun right =>
    (left, right)
  decode_encode value find found := by
    rw [first.decode_encode value.1 find fun entry member =>
        found entry (List.mem_append_left _ member),
      second.decode_encode value.2 find fun entry member =>
        found entry (List.mem_append_right _ member)]
    rfl

/-- The fields of a record, from those of the tuple of its parts. -/
def of (fields : Fields α) (parts : β → α) (make : α → β)
    (made : ∀ value, make (parts value) = value) : Fields β where
  names := fields.names
  encode value := fields.encode (parts value)
  encode_names value := fields.encode_names (parts value)
  decode find := (fields.decode find).map make
  decode_encode value find found := by
    rw [fields.decode_encode (parts value) find found]
    exact congrArg some (made value)

/-- An object with these members; `null` leaves what absent members leave. -/
def object (fields : Fields α) (distinct : fields.names.Nodup) : Codec α where
  encode value := .object (fields.encode value)
  decode
    | .object members => fields.decode (Json.find members)
    | .null => fields.decode (fun _ => none)
    | _ => none
  decode_encode value := by
    simp only [Json.stored]
    refine fields.decode_encode value _ fun entry member => Json.find_stored ?_ member
    rw [Assoc.Unique, fields.encode_names]
    exact distinct

end Fields

end OctoMail
