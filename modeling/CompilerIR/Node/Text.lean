import CompilerIR.Node.Payload
import CompilerIR.Text.Record

/-!
Kinds and nodes as text.
-/

namespace CompilerIR

def Component.text : Component → String
  | .flag value => Text.boolean value
  | .integer value => Text.signedDecimal value
  | .operator name => name
  | .handle _ value => value.text
  | .type value => value.text
  | .expr value => value.text
  | .exprs value => ExprRange.text value
  | .exprsIfPresent none => "None"
  | .exprsIfPresent (some value) => "Some(" ++ ExprRange.text value ++ ")"
  | .types value => TypeRange.text value

def NodeKind.text (kind : NodeKind) : String :=
  match kind.payload with
  | .empty => kind.name
  | .single component => kind.name ++ "(" ++ component.text ++ ")"
  | .record components =>
      Text.record kind.name (components.map fun (field, component) => (field, component.text))

def Node.text (node : Node) : String :=
  node.kind.text ++ ": " ++ node.type.text ++ " @ " ++ node.span.text

end CompilerIR
