import CompilerIR.Decimal.Numeral

/-!
Trees of the JSON data format. The entries of an object keep their order and may repeat a
key.
-/

namespace CompilerIR

/-- The content of a string literal. An escape can name one half of a surrogate pair
alone; such a literal is well formed but stands for no text. -/
inductive Json.Literal
  | text (content : String)
  | unpaired
deriving DecidableEq

instance : Coe String Json.Literal := ⟨.text⟩

inductive Json
  | null
  | bool (value : Bool)
  | number (numeral : Numeral)
  | string (literal : Json.Literal)
  | array (items : List Json)
  | object (entries : List (Json.Literal × Json))
deriving Inhabited

namespace Json

def ofString (content : String) : Json := .string (.text content)

def ofInt (value : Int) : Json := .number (.ofInt value)

def ofNat (value : Nat) : Json := ofInt value

def ofOption {α : Type} (encode : α → Json) : Option α → Json
  | none => .null
  | some value => encode value

def ofList {α : Type} (encode : α → Json) (values : List α) : Json := .array (values.map encode)

def bool? : Json → Option Bool
  | .bool value => some value
  | _ => none

def string? : Json → Option String
  | .string (.text content) => some content
  | _ => none

/-- A name that carries nothing: alone, or as the key of a null. -/
def name? : Json → Option String
  | .string (.text name) => some name
  | .object [(.text name, .null)] => some name
  | _ => none

def array? : Json → Option (List Json)
  | .array items => some items
  | _ => none

def numeral? : Json → Option Numeral
  | .number numeral => some numeral
  | _ => none

def int? (json : Json) : Option Int := json.numeral? >>= Numeral.int?

def intBetween? (least greatest : Int) (json : Json) : Option Int :=
  json.int?.filter fun value => least ≤ value ∧ value ≤ greatest

def nat? (bound : Nat) (json : Json) : Option Nat :=
  (json.intBetween? 0 (bound - 1)).map Int.toNat

def uint16? (json : Json) : Option UInt16 := (json.nat? UInt16.size).map UInt16.ofNat

def uint32? (json : Json) : Option UInt32 := (json.nat? UInt32.size).map UInt32.ofNat

def uint64? (json : Json) : Option UInt64 := (json.nat? UInt64.size).map UInt64.ofNat

def int8? (json : Json) : Option Int8 := (json.intBetween? (-0x80) 0x7f).map Int8.ofInt

def int16? (json : Json) : Option Int16 :=
  (json.intBetween? (-0x8000) 0x7fff).map Int16.ofInt

def int32? (json : Json) : Option Int32 :=
  (json.intBetween? (-0x80000000) 0x7fffffff).map Int32.ofInt

def int64? (json : Json) : Option Int64 :=
  (json.intBetween? (-0x8000000000000000) 0x7fffffffffffffff).map Int64.ofInt

def option? {α : Type} (decode : Json → Option α) : Json → Option (Option α)
  | .null => some none
  | json => (decode json).map some

def list? {α : Type} (decode : Json → Option α) (json : Json) : Option (List α) :=
  json.array? >>= List.mapM decode

/-- The value under a key that stands at most once among the entries; the inner `none` is
its absence. -/
def unique? (key : String) (entries : List (Literal × Json)) : Option (Option Json) :=
  match entries.filter (·.1 = .text key) with
  | [] => some none
  | [entry] => some (some entry.2)
  | _ => none

/-- The values of an object's fields in the order of `names`. The fields may stand in any
order, some may be absent, and others are passed over. -/
def fields? (names : List String) : Json → Option (List (Option Json))
  | .object entries =>
      if entries.any (·.1 = .unpaired) then none
      else names.mapM (unique? · entries)
  | _ => none

/-- The values of a record's fields. Besides the object there is a shorter form: an array
that lists all of them in their order. -/
def record? (names : List String) : Json → Option (List (Option Json))
  | .array items => if items.length = names.length then some (items.map some) else none
  | json => json.fields? names

/-- A tree is read straight from its text, or from a value that keeps it, with each key once. -/
inductive Source
  | text
  | value

/-- The record of a variant has the shorter form in a text only. -/
def Source.variant? : Source → List String → Json → Option (List (Option Json))
  | .text => record?
  | .value => fields?

end Json

end CompilerIR
