import CompilerIR.Node.Kind

/-!
What a kind consists of besides its name. The text of a kind and its saved form are both
read off this one view.
-/

namespace CompilerIR

inductive Component
  | flag (value : Bool)
  | integer (value : Int)
  /-- One of a fixed set of operators, by its name. -/
  | operator (name : String)
  | handle (table : Table) (value : Handle table)
  | type (value : TypeId)
  | expr (value : ExprId)
  | exprs (value : ExprRange)
  | exprsIfPresent (value : Option ExprRange)
  | types (value : TypeRange)

inductive Payload
  | empty
  | single (component : Component)
  /-- Named components in their order. -/
  | record (components : List (String × Component))

def NodeKind.payload : NodeKind → Payload
  | .bool value => .single (.flag value)
  | .char unit => .single (.integer unit.toNat)
  | .int value => .single (.integer value.toInt)
  | .long value => .single (.integer value.toInt)
  | .float bits => .single (.integer bits.toNat)
  | .double bits => .single (.integer bits.toNat)
  | .string name => .single (.handle .names name)
  | .null => .empty
  | .absentArrayDimension => .empty
  | .classLiteral refType => .record [("ref_type", .type refType)]
  | .nativeFieldRef field => .record [("field", .handle .fields field)]
  | .nativeMethodRef method => .record [("method", .handle .methods method)]
  | .thisRef classType => .record [("class_type", .type classType)]
  | .localRef declaration => .single (.handle .locals declaration)
  | .paramRef declaration => .single (.handle .params declaration)
  | .arrayRef receiver index => .record [("instance", .expr receiver), ("index", .expr index)]
  | .binary op lhs rhs =>
      .record [("op", .operator op.name), ("lhs", .expr lhs), ("rhs", .expr rhs)]
  | .prefixed op arg => .record [("op", .operator op.name), ("arg", .expr arg)]
  | .postfixed op arg => .record [("op", .operator op.name), ("arg", .expr arg)]
  | .cast castType expr => .record [("cast_type", .type castType), ("expr", .expr expr)]
  | .instanceOf testType expr => .record [("test_type", .type testType), ("expr", .expr expr)]
  | .conditional test thenExpr elseExpr =>
      .record [("test", .expr test), ("then_expr", .expr thenExpr), ("else_expr", .expr elseExpr)]
  | .fieldRef receiver field enclosingType =>
      .record [("instance", .expr receiver), ("field", .handle .fields field),
        ("enclosing_type", .type enclosingType)]
  | .methodCall receiver target args polymorphic =>
      .record [("instance", .expr receiver), ("target", .handle .methods target),
        ("args", .exprs args), ("polymorphic", .flag polymorphic)]
  | .newInstance classType => .record [("class_type", .type classType)]
  | .newArray arrayType dims initializers classLiterals =>
      .record [("array_type", .type arrayType), ("dims", .exprsIfPresent dims),
        ("initializers", .exprsIfPresent initializers), ("class_literals", .exprs classLiterals)]
  | .multi exprs => .record [("exprs", .exprs exprs)]
  | .classSeed refType => .record [("ref_type", .type refType)]
  | .deferredCreate sourceType resultTypes instantiations =>
      .record [("source_type", .type sourceType), ("result_types", .types resultTypes),
        ("instantiations", .exprs instantiations)]

end CompilerIR
