import CompilerIR.Annotation.Basic
import CompilerIR.Decimal.Layout
import CompilerIR.Decimal.Reader
import CompilerIR.Json.Parser
import CompilerIR.Json.Writer

/-!
The saved form of annotations. The parameters make an object in their order, and every
value is an object with one entry, whose key tells its kind.
-/

namespace CompilerIR

namespace Scalar

def doubleLayout : Decimal.Layout := ⟨.even, -5, 15⟩

def singleLayout : Decimal.Layout := ⟨.even, -6, 12⟩

/-- Numbers that are not finite have no numeral and are saved as null. -/
def floatJson (layout : Decimal.Layout) (format : BinaryFormat) (bits : Nat) : Json :=
  match format.decode bits with
  | .finite negative significand exponent =>
      .number (layout.numeral format negative significand exponent)
  | _ => .null

def toJson : Scalar → Json
  | .bool value => .object [("Bool", .bool value)]
  | .byte value => .object [("Byte", .ofInt value.toInt)]
  | .char unit => .object [("Char", .ofNat unit.toNat)]
  | .short value => .object [("Short", .ofInt value.toInt)]
  | .int value => .object [("Int", .ofInt value.toInt)]
  | .long value => .object [("Long", .ofInt value.toInt)]
  | .float bits => .object [("Float", floatJson singleLayout .single bits.toNat)]
  | .double bits => .object [("Double", floatJson doubleLayout .double bits.toNat)]
  | .string value => .object [("String", .ofString value)]
  | .classRef desc => .object [("Type", .ofString desc)]

def ofJson? : Json → Option Scalar
  | .object [(.text kind, body)] =>
      match kind with
      | "Bool" => body.bool?.map .bool
      | "Byte" => body.int8?.map .byte
      | "Char" => body.uint16?.map .char
      | "Short" => body.int16?.map .short
      | "Int" => body.int32?.map .int
      | "Long" => body.int64?.map .long
      | "Float" => (body.numeral? >>= Numeral.single?).map fun bits => .float (.ofNat bits)
      | "Double" => (body.numeral? >>= Numeral.double?).map fun bits => .double (.ofNat bits)
      | "String" => body.string?.map .string
      | "Type" => body.string?.map .classRef
      | _ => none
  | _ => none

end Scalar

namespace EnumMember

def toJson (member : EnumMember) : Json :=
  .object [("desc", .ofString member.desc), ("name", .ofString member.name)]

def ofJson? (json : Json) : Option EnumMember := do
  let [some desc, some name] ← json.record? ["desc", "name"] | none
  return ⟨← desc.string?, ← name.string?⟩

end EnumMember

mutual

def ElementValue.toJson : ElementValue → Json
  | .scalar value => .object [("Scalar", value.toJson)]
  | .enum member => .object [("Enum", member.toJson)]
  | .nested entry => .object [("Annotation", entry.toJson)]
  | .array items => .object [("Array", .array (ElementValue.itemsJson items))]

def AnnotationEntry.toJson : AnnotationEntry → Json
  | ⟨desc, visible, params⟩ =>
      .object [("desc", .ofString desc), ("visible", .bool visible),
        ("values", .object (ElementValue.paramsJson params))]

def ElementValue.itemsJson : List ElementValue → List Json
  | [] => []
  | item :: items => item.toJson :: ElementValue.itemsJson items

def ElementValue.paramsJson : List (String × ElementValue) → List (Json.Literal × Json)
  | [] => []
  | (name, value) :: rest => (.text name, value.toJson) :: ElementValue.paramsJson rest

end

def AnnotationEntry.saved (entry : AnnotationEntry) : String := entry.toJson.text

/-! ### Loading

Every object or array that is entered uses up one level of nesting. -/

/-- How many objects and arrays may be open at the same time. -/
def AnnotationEntry.nestingLimit : Nat := 127

/-- The record of an enumeration member and the tagged object of a scalar take one level
themselves. -/
def withinNesting {α : Type} (levels : Nat) (decoded : Option α) : Option α :=
  if levels = 0 then none else decoded

/-- An annotation, given how its values are read two levels further in. A repeated name
overwrites the earlier value. -/
def AnnotationEntry.decode? (value? : Json → Option ElementValue) (json : Json) :
    Option AnnotationEntry := do
  let [some desc, some visible, some (.object entries)] ←
    json.record? ["desc", "visible", "values"] | none
  let desc ← desc.string?
  let visible ← visible.bool?
  let pairs ← entries.mapM fun (key, json) => do
    let .text name := key | none
    return (name, ← value? json)
  return ⟨desc, visible, Parameters.ofList pairs⟩

def ElementValue.ofJson? : Nat → Json → Option ElementValue
  | levels + 1, .object [(.text kind, body)] =>
      match kind with
      | "Scalar" => withinNesting levels ((Scalar.ofJson? body).map .scalar)
      | "Enum" => withinNesting levels ((EnumMember.ofJson? body).map .enum)
      | "Annotation" =>
          match levels with
          | levels + 2 => (AnnotationEntry.decode? (ElementValue.ofJson? levels) body).map .nested
          | _ => none
      | "Array" =>
          match levels with
          | levels + 1 => (body.list? (ElementValue.ofJson? levels)).map .array
          | 0 => none
      | _ => none
  | _, _ => none

def AnnotationEntry.ofJson? (json : Json) : Option AnnotationEntry :=
  AnnotationEntry.decode? (ElementValue.ofJson? (nestingLimit - 2)) json

def AnnotationEntry.load? (text : String) : Option AnnotationEntry :=
  Json.parse? text >>= AnnotationEntry.ofJson?

end CompilerIR
