import CompilerIR.Node.Kind

/-!
Arenas of expression nodes. Nodes and list entries are only ever added, so an identity
handed out once keeps naming the same node.
-/

namespace CompilerIR

structure Arena where
  nodes : Array Node
  /-- The expression lists of all nodes, one behind the other. -/
  exprLists : Array ExprId
  /-- The type lists of all nodes, one behind the other. -/
  typeLists : Array TypeId
deriving DecidableEq

structure OverlongList where
  length : Nat
deriving DecidableEq

def OverlongList.message (error : OverlongList) : String :=
  "expression list of " ++ Text.decimal error.length ++ " entries exceeds the " ++
    Text.decimal ListRange.maxLength ++ " an ExprRange can hold"

structure OverlongTypeList where
  length : Nat
deriving DecidableEq

def OverlongTypeList.message (error : OverlongTypeList) : String :=
  "type list too long: " ++ Text.decimal error.length ++ " exceeds u16::MAX"

namespace Arena

def empty : Arena := ⟨#[], #[], #[]⟩

instance : Inhabited Arena := ⟨empty⟩

def size (arena : Arena) : Nat := arena.nodes.size

def alloc (arena : Arena) (node : Node) : ExprId × Arena :=
  (.ofIndex arena.size, { arena with nodes := arena.nodes.push node })

/-- A fresh reference to the current object; such nodes are never shared between trees. -/
def allocThis (arena : Arena) (span : Span) (classType : TypeId) : ExprId × Arena :=
  arena.alloc ⟨.thisRef classType, span, classType⟩

def get? (arena : Arena) (id : ExprId) : Option Node := arena.nodes[id.index]?

def contains (arena : Arena) (id : ExprId) : Bool := id.isValid && id.index < arena.size

theorem size_alloc (arena : Arena) (node : Node) :
    (arena.alloc node).2.size = arena.size + 1 := by
  simp only [alloc, size, Array.size_push]

/-- A new node is found under the identity given out for it. -/
theorem get?_alloc {arena : Arena} (room : arena.size < UInt32.size) (node : Node) :
    (arena.alloc node).2.get? (arena.alloc node).1 = some node := by
  have indexKept : (UInt32.ofNat arena.nodes.size).toNat = arena.nodes.size :=
    UInt32.toNat_ofNat_of_lt' room
  simp only [alloc, get?, ExprId.ofIndex, ExprId.index, size, indexKept, Array.getElem?_push_size]

def storeExprs : Arena → List ExprId → ExprRange × Arena
  | ⟨nodes, exprLists, typeLists⟩, ids =>
      let (range, exprLists) := ListRange.append exprLists ids
      (range, ⟨nodes, exprLists, typeLists⟩)

def pushExprs (arena : Arena) (ids : List ExprId) : Except OverlongList (ExprRange × Arena) :=
  if ids.length ≤ ListRange.maxLength then .ok (arena.storeExprs ids) else .error ⟨ids.length⟩

/-- Store a list of types. The entries of a list that is too long are kept, but no range
is given out for them. -/
def pushTypes : Arena → List TypeId → Except OverlongTypeList TypeRange × Arena
  | ⟨nodes, exprLists, typeLists⟩, types =>
      let (range, typeLists) := ListRange.append typeLists types
      let result := if types.length ≤ ListRange.maxLength then .ok range else .error ⟨types.length⟩
      (result, ⟨nodes, exprLists, typeLists⟩)

def exprs? (arena : Arena) (range : ExprRange) : Option (List ExprId) :=
  range.read? arena.exprLists

def types? (arena : Arena) (range : TypeRange) : Option (List TypeId) :=
  range.read? arena.typeLists

end Arena

end CompilerIR
