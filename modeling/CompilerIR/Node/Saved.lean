import CompilerIR.Node.Payload
import CompilerIR.Json.Parser
import CompilerIR.Json.Writer

/-!
The saved form of kinds. A kind is an object with one entry under its name, or the name
alone if it has no components. Named components are written under their names.
-/

namespace CompilerIR

def Component.toJson : Component → Json
  | .flag value => .bool value
  | .integer value => .ofInt value
  | .operator name => .ofString name
  | .handle _ value => value.toJson
  | .type value => value.toJson
  | .expr value => value.toJson
  | .exprs value => value.toJson
  | .exprsIfPresent value => .ofOption ListRange.toJson value
  | .types value => value.toJson

namespace NodeKind

def toJson (kind : NodeKind) : Json :=
  match kind.payload with
  | .empty => .ofString kind.name
  | .single component => .object [(kind.name, component.toJson)]
  | .record components =>
      .object [(kind.name,
        .object (components.map fun (field, component) => (.text field, component.toJson)))]

/-- A list that is left out of its record is absent. -/
def listIfPresent? : Option Json → Option (Option ExprRange)
  | none => some none
  | some json => json.option? ListRange.ofJson?

def ofEntry? (source : Json.Source) (name : String) (body : Json) : Option NodeKind :=
  match name with
  | "Bool" => body.bool?.map .bool
  | "Char" => body.uint16?.map .char
  | "Int" => body.int32?.map .int
  | "Long" => body.int64?.map .long
  | "Float" => body.uint32?.map .float
  | "Double" => body.uint64?.map .double
  | "String" => (Handle.ofJson? body).map .string
  | "Null" => if body matches .null then some .null else none
  | "AbsentArrayDimension" => if body matches .null then some .absentArrayDimension else none
  | "ClassLiteral" => do
      let [some refType] ← source.variant? ["ref_type"] body | none
      return .classLiteral (← TypeId.ofJson? refType)
  | "NativeFieldRef" => do
      let [some field] ← source.variant? ["field"] body | none
      return .nativeFieldRef (← Handle.ofJson? field)
  | "NativeMethodRef" => do
      let [some method] ← source.variant? ["method"] body | none
      return .nativeMethodRef (← Handle.ofJson? method)
  | "ThisRef" => do
      let [some classType] ← source.variant? ["class_type"] body | none
      return .thisRef (← TypeId.ofJson? classType)
  | "LocalRef" => (Handle.ofJson? body).map .localRef
  | "ParamRef" => (Handle.ofJson? body).map .paramRef
  | "ArrayRef" => do
      let [some receiver, some index] ← source.variant? ["instance", "index"] body | none
      return .arrayRef (← ExprId.ofJson? receiver) (← ExprId.ofJson? index)
  | "Binary" => do
      let [some op, some lhs, some rhs] ← source.variant? ["op", "lhs", "rhs"] body | none
      return .binary (← op.name? >>= BinaryOp.ofName?) (← ExprId.ofJson? lhs) (← ExprId.ofJson? rhs)
  | "Prefix" => do
      let [some op, some arg] ← source.variant? ["op", "arg"] body | none
      return .prefixed (← op.name? >>= PrefixOp.ofName?) (← ExprId.ofJson? arg)
  | "Postfix" => do
      let [some op, some arg] ← source.variant? ["op", "arg"] body | none
      return .postfixed (← op.name? >>= PostfixOp.ofName?) (← ExprId.ofJson? arg)
  | "Cast" => do
      let [some castType, some expr] ← source.variant? ["cast_type", "expr"] body | none
      return .cast (← TypeId.ofJson? castType) (← ExprId.ofJson? expr)
  | "InstanceOf" => do
      let [some testType, some expr] ← source.variant? ["test_type", "expr"] body | none
      return .instanceOf (← TypeId.ofJson? testType) (← ExprId.ofJson? expr)
  | "Conditional" => do
      let [some test, some thenExpr, some elseExpr] ←
        source.variant? ["test", "then_expr", "else_expr"] body | none
      return .conditional (← ExprId.ofJson? test) (← ExprId.ofJson? thenExpr)
        (← ExprId.ofJson? elseExpr)
  | "FieldRef" => do
      let [some receiver, some field, some enclosingType] ←
        source.variant? ["instance", "field", "enclosing_type"] body | none
      return .fieldRef (← ExprId.ofJson? receiver) (← Handle.ofJson? field)
        (← TypeId.ofJson? enclosingType)
  | "MethodCall" => do
      let [some receiver, some target, some args, some polymorphic] ←
        source.variant? ["instance", "target", "args", "polymorphic"] body | none
      return .methodCall (← ExprId.ofJson? receiver) (← Handle.ofJson? target)
        (← ListRange.ofJson? args) (← polymorphic.bool?)
  | "NewInstance" => do
      let [some classType] ← source.variant? ["class_type"] body | none
      return .newInstance (← TypeId.ofJson? classType)
  | "NewArray" => do
      let [some arrayType, dims, initializers, some classLiterals] ←
        source.variant? ["array_type", "dims", "initializers", "class_literals"] body | none
      return .newArray (← TypeId.ofJson? arrayType) (← listIfPresent? dims)
        (← listIfPresent? initializers) (← ListRange.ofJson? classLiterals)
  | "Multi" => do
      let [some exprs] ← source.variant? ["exprs"] body | none
      return .multi (← ListRange.ofJson? exprs)
  | "ClassSeed" => do
      let [some refType] ← source.variant? ["ref_type"] body | none
      return .classSeed (← TypeId.ofJson? refType)
  | "DeferredCreate" => do
      let [some sourceType, some resultTypes, some instantiations] ←
        source.variant? ["source_type", "result_types", "instantiations"] body | none
      return .deferredCreate (← TypeId.ofJson? sourceType) (← ListRange.ofJson? resultTypes)
        (← ListRange.ofJson? instantiations)
  | _ => none

/-- A name alone stands for an entry without components. -/
def ofJson? (source : Json.Source) : Json → Option NodeKind
  | .string (.text name) => ofEntry? source name .null
  | .object [(.text name, body)] => ofEntry? source name body
  | _ => none

def saved (kind : NodeKind) : String := kind.toJson.text

def load? (text : String) : Option NodeKind := Json.parse? text >>= ofJson? .text

end NodeKind

end CompilerIR
