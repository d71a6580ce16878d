import CompilerIR.Annotation.Basic
import CompilerIR.Decimal.Layout
import CompilerIR.Text.Quoted
import CompilerIR.Text.Record

/-!
Annotations as text, in the manner of source code.
-/

namespace CompilerIR

namespace Scalar

/-- Positional from a ten-thousandth up to sixteen digits before the point. -/
def layout : Decimal.Layout := ⟨.up, -4, 15⟩

def floatText (format : BinaryFormat) (bits : Nat) : String :=
  match format.decode bits with
  | .nan => "NaN"
  | .infinite negative => if negative then "-inf" else "inf"
  | .finite negative significand exponent =>
      (layout.numeral format negative significand exponent).text ""

def text : Scalar → String
  | .bool value => Text.boolean value
  | .byte value => Text.signedDecimal value.toInt
  | .char unit => Text.quotedUnit unit
  | .short value => Text.signedDecimal value.toInt
  | .int value => Text.signedDecimal value.toInt
  | .long value => Text.signedDecimal value.toInt ++ "L"
  | .float bits => floatText .single bits.toNat ++ "f"
  | .double bits => floatText .double bits.toNat
  | .string value => Text.quoted value
  | .classRef desc => desc ++ ".class"

end Scalar

def EnumMember.text (member : EnumMember) : String := member.desc ++ "." ++ member.name

mutual

def ElementValue.text : ElementValue → String
  | .scalar value => value.text
  | .enum member => member.text
  | .nested entry => entry.text
  | .array items => "\x7b" ++ ", ".intercalate (ElementValue.itemTexts items) ++ "\x7d"

def AnnotationEntry.text : AnnotationEntry → String
  | ⟨desc, _, []⟩ => "@" ++ desc
  | ⟨desc, _, params⟩ =>
      "@" ++ desc ++ "(" ++ ", ".intercalate (ElementValue.paramTexts params) ++ ")"

def ElementValue.itemTexts : List ElementValue → List String
  | [] => []
  | item :: items => item.text :: ElementValue.itemTexts items

/-- A value under the empty name is written without it. -/
def ElementValue.paramTexts : List (String × ElementValue) → List String
  | [] => []
  | (name, value) :: rest =>
      (if name = "" then value.text else name ++ "=" ++ value.text) ::
        ElementValue.paramTexts rest

end

end CompilerIR
