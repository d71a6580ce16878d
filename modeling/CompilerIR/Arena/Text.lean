import CompilerIR.Arena.Basic
import CompilerIR.Node.Text

/-!
Arenas as text, with one list for each part of their nodes.
-/

namespace CompilerIR

def Arena.text (arena : Arena) : String :=
  let nodes := arena.nodes.toList
  Text.record "ExprArena" [
    ("kinds", Text.list (nodes.map (·.kind.text))),
    ("spans", Text.list (nodes.map (·.span.text))),
    ("types", Text.list (nodes.map (·.type.text))),
    ("expr_lists", Text.list (arena.exprLists.toList.map ExprId.text)),
    ("type_lists", Text.list (arena.typeLists.toList.map TypeId.text))]

end CompilerIR
