import CompilerIR.Node.Kind

/-!
The slots of a node, through which one walk serves all kinds.
-/

namespace CompilerIR

inductive Slot
  | child (id : ExprId)
  | list (range : ExprRange)
deriving DecidableEq

namespace Slot

def children (slots : List Slot) : List ExprId :=
  slots.filterMap fun
    | .child id => some id
    | .list _ => none

end Slot

namespace NodeKind

/-- The slots in the order of evaluation. The class literals of an array creation are no
expressions to evaluate, and a list that is absent has no slot. -/
def slots : NodeKind → List Slot
  | .arrayRef receiver index => [.child receiver, .child index]
  | .binary _ lhs rhs => [.child lhs, .child rhs]
  | .prefixed _ arg => [.child arg]
  | .postfixed _ arg => [.child arg]
  | .cast _ expr => [.child expr]
  | .instanceOf _ expr => [.child expr]
  | .conditional test thenExpr elseExpr => [.child test, .child thenExpr, .child elseExpr]
  | .fieldRef receiver _ _ => [.child receiver]
  | .methodCall receiver _ args _ => [.child receiver, .list args]
  | .newArray _ dims initializers _ => dims.toList.map .list ++ initializers.toList.map .list
  | .multi exprs => [.list exprs]
  | .deferredCreate _ _ instantiations => [.list instantiations]
  | _ => []

def withSlots (kind : NodeKind) (filled : List Slot) : NodeKind :=
  match kind, filled with
  | .arrayRef _ _, [.child receiver, .child index] => .arrayRef receiver index
  | .binary op _ _, [.child lhs, .child rhs] => .binary op lhs rhs
  | .prefixed op _, [.child arg] => .prefixed op arg
  | .postfixed op _, [.child arg] => .postfixed op arg
  | .cast castType _, [.child expr] => .cast castType expr
  | .instanceOf testType _, [.child expr] => .instanceOf testType expr
  | .conditional _ _ _, [.child test, .child thenExpr, .child elseExpr] =>
      .conditional test thenExpr elseExpr
  | .fieldRef _ field enclosingType, [.child receiver] => .fieldRef receiver field enclosingType
  | .methodCall _ target _ polymorphic, [.child receiver, .list args] =>
      .methodCall receiver target args polymorphic
  | .newArray arrayType (some _) (some _) classLiterals, [.list dims, .list initializers] =>
      .newArray arrayType (some dims) (some initializers) classLiterals
  | .newArray arrayType (some _) none classLiterals, [.list dims] =>
      .newArray arrayType (some dims) none classLiterals
  | .newArray arrayType none (some _) classLiterals, [.list initializers] =>
      .newArray arrayType none (some initializers) classLiterals
  | .multi _, [.list exprs] => .multi exprs
  | .deferredCreate sourceType resultTypes _, [.list instantiations] =>
      .deferredCreate sourceType resultTypes instantiations
  | kind, _ => kind

theorem slots_length_le (kind : NodeKind) : kind.slots.length ≤ 3 := by
  cases kind with
  | newArray _ dims initializers _ => cases dims <;> cases initializers <;> simp [slots]
  | _ => simp [slots]

theorem withSlots_slots (kind : NodeKind) : kind.withSlots kind.slots = kind := by
  cases kind with
  | newArray _ dims initializers _ => cases dims <;> cases initializers <;> rfl
  | _ => rfl

end NodeKind

end CompilerIR
