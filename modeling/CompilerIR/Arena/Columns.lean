import CompilerIR.Arena.Basic

/-!
Arenas as they are stored, with one array for each part of a node. Every access is guarded: one
that does not go well is a fault, which would end the whole compiler.
-/

namespace CompilerIR

structure Columns where
  kinds : Array NodeKind
  spans : Array Span
  types : Array TypeId
  exprLists : Array ExprId
  typeLists : Array TypeId
deriving DecidableEq

inductive Fault
  | outOfBounds (length index : Nat)
  | overlongList (error : OverlongList)
  /-- There is no number left for what is to be added. -/
  | tooMany (what : String) (length : Nat)
  /-- The recursion is deeper than it was allowed to get. -/
  | tooDeep
deriving DecidableEq

namespace Columns

/-- Every node has all of its parts. -/
structure Aligned (columns : Columns) : Prop where
  spans : columns.spans.size = columns.kinds.size
  types : columns.types.size = columns.kinds.size

def contains (columns : Columns) (id : ExprId) : Bool :=
  id.isValid && id.index < columns.kinds.size

def read {α : Type} (column : Array α) (id : ExprId) : Except Fault α :=
  match column[id.index]? with
  | some entry => .ok entry
  | none => .error (.outOfBounds column.size id.index)

def node (columns : Columns) (id : ExprId) : Except Fault Node := do
  let kind ← read columns.kinds id
  let span ← read columns.spans id
  let type ← read columns.types id
  return ⟨kind, span, type⟩

def alloc (columns : Columns) (node : Node) : Except Fault (ExprId × Columns) :=
  if columns.kinds.size < UInt32.size then
    .ok (.ofIndex columns.kinds.size,
      { columns with
        kinds := columns.kinds.push node.kind
        spans := columns.spans.push node.span
        types := columns.types.push node.type })
  else .error (.tooMany "expressions" columns.kinds.size)

def pushExprs (columns : Columns) (ids : List ExprId) : Except Fault (ExprRange × Columns) :=
  if ids.isEmpty then .ok (.empty, columns)
  else if ids.length > ListRange.maxLength then .error (.overlongList ⟨ids.length⟩)
  else if columns.exprLists.size < UInt32.size then
    .ok (⟨.ofNat columns.exprLists.size, .ofNat ids.length⟩,
      { columns with exprLists := columns.exprLists ++ ids })
  else .error (.tooMany "expression lists" columns.exprLists.size)

end Columns

end CompilerIR
