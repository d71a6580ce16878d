import CompilerIR.Clone.Defect
import CompilerIR.Node.Slot

/-!
How a single node is cloned once its slots have been, and which children may be followed.
-/

namespace CompilerIR

structure Owner where
  id : ExprId
  node : Node

def Owner.site (owner : Owner) : DefectSite := ⟨owner.id, owner.node.kind.name, owner.node.span⟩

/-- The declared type of a copy. A reference to the current object is made anew with the
type of its class, and a seed no longer knows its class. -/
def Node.copyType (node : Node) : TypeId :=
  match node.kind with
  | .thisRef classType => classType
  | .classSeed _ => .root
  | _ => node.type

def Node.copyWith (node : Node) (filled : List Slot) : Node :=
  ⟨node.kind.withSlots filled, node.span, node.copyType⟩

/-- A node that may be followed from `owner`. Children are always allocated before their
owner, so an owner that does not come after its child is part of a cycle. -/
abbrev Owner.Child (owner : Owner) := { child : Owner // child.id.index < owner.id.index }

def Arena.child? (arena : Arena) (owner : Owner) (id : ExprId) :
    Except CloneDefect (Option owner.Child) :=
  if id.isValid then
    match arena.get? id with
    | none => .error (.danglingChild owner.site id)
    | some node =>
        if precedes : id.index < owner.id.index then .ok (some ⟨⟨id, node⟩, precedes⟩)
        else .error (.cyclicChild owner.site id)
  else .ok none

abbrev Children := { children : List ExprId // children.length ≤ ListRange.maxLength }

/-- The children in a list slot, as the lists of the arena stand now. -/
def Arena.children? (arena : Arena) (owner : Owner) (range : ExprRange) :
    Except CloneDefect Children :=
  match read : range.read? arena.exprLists with
  | none => .error (.danglingList owner.site range)
  | some children =>
      .ok ⟨children, ListRange.length_eq_of_read? read ▸ range.length_le⟩

end CompilerIR
