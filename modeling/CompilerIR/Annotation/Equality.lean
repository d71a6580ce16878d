import CompilerIR.Annotation.Basic
import CompilerIR.Binary.Format

/-!
Equality of annotations by value. Floating-point numbers compare as numbers, and the order
of the parameters does not matter.
-/

namespace CompilerIR

/-- Constants of different kinds are never equal, and neither is a NaN to anything. -/
def Scalar.equal : Scalar → Scalar → Bool
  | .float left, .float right => BinaryFormat.single.equal left.toNat right.toNat
  | .double left, .double right => BinaryFormat.double.equal left.toNat right.toNat
  | left, right => left = right

mutual

def ElementValue.equal : ElementValue → ElementValue → Bool
  | .scalar left, .scalar right => left.equal right
  | .enum left, .enum right => left = right
  | .nested left, .nested right => left.equal right
  | .array left, .array right => ElementValue.equalItems left right
  | _, _ => false

def AnnotationEntry.equal : AnnotationEntry → AnnotationEntry → Bool
  | ⟨desc, visible, params⟩, other =>
      desc = other.desc && visible = other.visible && params.length = other.params.length &&
        ElementValue.equalParams params other.params

def ElementValue.equalItems : List ElementValue → List ElementValue → Bool
  | [], [] => true
  | left :: lefts, right :: rights => left.equal right && ElementValue.equalItems lefts rights
  | _, _ => false

def ElementValue.equalParams : List (String × ElementValue) → Parameters → Bool
  | [], _ => true
  | (name, left) :: rest, others =>
      (match Parameters.get? name others with
        | none => false
        | some right => left.equal right) && ElementValue.equalParams rest others

end

end CompilerIR
