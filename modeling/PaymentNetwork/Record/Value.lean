import PaymentNetwork.Bytes
import PaymentNetwork.SortedMap
import PaymentNetwork.Word

/-!
# Record Values

The written form of the records of a node, as a tree of values.

A structure is written as a record of its fields by name. A choice between
variants is written as a record of one field, which names the variant and holds
its data; a variant without data is written as its name alone. An absent option
is null, and a field that is missing reads as null. Byte strings are written as
their text. Fields that nobody asked for are ignored.

`Codec` joins the writing and the reading of a type. Each instance is one list
of fields written down twice, once in either direction.

## Main definitions

* `Value`: A tree of values.
* `Codec`: How a type is written and read.
* `Value.field`: Read a field of a record.
* `Value.variant`, `Value.variant?`: Write and read a variant.
-/

namespace PaymentNetwork

/-- A tree of values. A number is a decimal fraction: `number m p` stands for
    `m / 10 ^ p`. -/
inductive Value where
  | null
  | bool (b : Bool)
  | number (mantissa : Int) (places : Nat)
  | text (s : String)
  | list (items : List Value)
  | record (fields : List (String × Value))
deriving Inhabited

/-- How a type is written as a value and read from one. -/
class Codec (α : Type) where
  encode : α → Value
  decode : Value → Option α

export Codec (encode decode)

namespace Value

/-- The value of a field. A missing field is null. -/
def get (v : Value) (name : String) : Value :=
  match v with
  | record fields => (fields.lookup name).getD null
  | _ => null

/-- Read a field of a record. -/
def field {α : Type} [Codec α] (v : Value) (name : String) : Option α :=
  match v with
  | record _ => decode (v.get name)
  | _ => none

/-- A variant with its data. -/
def variant (name : String) (data : Value) : Value := record [(name, data)]

/-- The name and the data of a variant. Without data a variant is its name, and
    null is no data. -/
def variant? : Value → Option (String × Option Value)
  | text name => some (name, none)
  | record [(name, null)] => some (name, none)
  | record [(name, data)] => some (name, some data)
  | _ => none

/-- The items of a list. -/
def items? : Value → Option (List Value)
  | list items => some items
  | _ => none

/-- The fields of a record. -/
def fields? : Value → Option (List (String × Value))
  | record fields => some fields
  | _ => none

end Value

instance : Codec Bool where
  encode := .bool
  decode
    | .bool b => some b
    | _ => none

instance : Codec String where
  encode := .text
  decode
    | .text s => some s
    | _ => none

instance {bits : Nat} : Codec (Word bits) where
  encode w := .number w.val 0
  decode
    | .number m 0 => if 0 ≤ m then Word.ofNat? m.toNat else none
    | _ => none

instance {n : Nat} : Codec (FixedBytes n) where
  encode b := .text b.toText
  decode
    | .text s => (FixedBytes.parse n s).toOption
    | _ => none

instance {α : Type} [Codec α] : Codec (Option α) where
  encode
    | some a => encode a
    | none => .null
  decode
    | .null => some none
    | v => (decode v).map some

instance {α : Type} [Codec α] : Codec (List α) where
  encode l := .list (l.map encode)
  decode v := v.items?.bind fun items => items.mapM decode

/-- Read a field as an entry of a map from byte strings. -/
def decodeEntry {n : Nat} {α : Type} [Codec α] (f : String × Value) : Option (FixedBytes n × α) :=
  do
    let key ← (FixedBytes.parse n f.1).toOption
    let value ← decode f.2
    return (key, value)

/-- Maps from byte strings are written as records, with the text of the keys as
    names. -/
instance {n : Nat} {α : Type} [Codec α] : Codec (SortedMap (FixedBytes n) α) where
  encode m := .record (m.entries.map fun e => (e.1.toText, encode e.2))
  decode v := v.fields?.bind fun fields =>
    (fields.mapM decodeEntry).map SortedMap.ofList

end PaymentNetwork
