import CompilerIR.Node.Operator
import CompilerIR.Handle
import CompilerIR.ListRange
import CompilerIR.Span

/-!
Kinds of expressions.
-/

namespace CompilerIR

/-- What an expression is. Nodes refer to other nodes by their identity and to lists by
the range that these occupy in the arena. -/
inductive NodeKind
  | bool (value : Bool)
  /-- A UTF-16 code unit. -/
  | char (unit : UInt16)
  | int (value : Int32)
  | long (value : Int64)
  /-- Single precision, by its bits, so that equal literals are those that are written
  alike. -/
  | float (bits : UInt32)
  /-- Double precision, by its bits. -/
  | double (bits : UInt64)
  | string (name : Name)
  | null
  /-- An array dimension left out, as the last one of `new int[3][]`. -/
  | absentArrayDimension
  | classLiteral (refType : TypeId)
  | nativeFieldRef (field : FieldId)
  | nativeMethodRef (method : MethodId)
  | thisRef (classType : TypeId)
  | localRef (declaration : LocalId)
  | paramRef (declaration : ParamId)
  | arrayRef (receiver index : ExprId)
  | binary (op : BinaryOp) (lhs rhs : ExprId)
  | prefixed (op : PrefixOp) (arg : ExprId)
  | postfixed (op : PostfixOp) (arg : ExprId)
  | cast (castType : TypeId) (expr : ExprId)
  | instanceOf (testType : TypeId) (expr : ExprId)
  | conditional (test thenExpr elseExpr : ExprId)
  | fieldRef (receiver : ExprId) (field : FieldId) (enclosingType : TypeId)
  | methodCall (receiver : ExprId) (target : MethodId) (args : ExprRange) (polymorphic : Bool)
  | newInstance (classType : TypeId)
  /-- An array is created by its dimensions or by its initializers. -/
  | newArray (arrayType : TypeId) (dims initializers : Option ExprRange) (classLiterals : ExprRange)
  /-- Expressions evaluated in order, the last of which is the value. -/
  | multi (exprs : ExprRange)
  /-- Marks the class that a dispatch table is seeded with. -/
  | classSeed (refType : TypeId)
  /-- One of several instantiations of a type, chosen once the result type is known. -/
  | deferredCreate (sourceType : TypeId) (resultTypes : TypeRange) (instantiations : ExprRange)
deriving DecidableEq

namespace NodeKind

def name : NodeKind → String
  | .bool _ => "Bool"
  | .char _ => "Char"
  | .int _ => "Int"
  | .long _ => "Long"
  | .float _ => "Float"
  | .double _ => "Double"
  | .string _ => "String"
  | .null => "Null"
  | .absentArrayDimension => "AbsentArrayDimension"
  | .classLiteral _ => "ClassLiteral"
  | .nativeFieldRef _ => "NativeFieldRef"
  | .nativeMethodRef _ => "NativeMethodRef"
  | .thisRef _ => "ThisRef"
  | .localRef _ => "LocalRef"
  | .paramRef _ => "ParamRef"
  | .arrayRef _ _ => "ArrayRef"
  | .binary _ _ _ => "Binary"
  | .prefixed _ _ => "Prefix"
  | .postfixed _ _ => "Postfix"
  | .cast _ _ => "Cast"
  | .instanceOf _ _ => "InstanceOf"
  | .conditional _ _ _ => "Conditional"
  | .fieldRef _ _ _ => "FieldRef"
  | .methodCall _ _ _ _ => "MethodCall"
  | .newInstance _ => "NewInstance"
  | .newArray _ _ _ _ => "NewArray"
  | .multi _ => "Multi"
  | .classSeed _ => "ClassSeed"
  | .deferredCreate _ _ _ => "DeferredCreate"

/-- Kinds whose nodes hold nothing that a later pass could change. Trees may share them,
and their identity is never given up. -/
def isShareable : NodeKind → Bool
  | .bool _ | .char _ | .int _ | .long _ | .float _ | .double _ | .string _ | .null
  | .absentArrayDimension | .classLiteral _ | .nativeFieldRef _ | .nativeMethodRef _ => true
  | _ => false

end NodeKind

structure Node where
  kind : NodeKind
  span : Span
  type : TypeId
deriving DecidableEq

end CompilerIR
