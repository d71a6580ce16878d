import CompilerIR.Clone.Result
import CompilerIR.Clone.Rule

/-!
Cloning as a plain recursion over the tree.
-/

namespace CompilerIR

def Arena.copyChild (owner : Owner) (visit : owner.Child → Arena → CloneResult ExprId)
    (id : ExprId) (arena : Arena) : CloneResult ExprId :=
  match arena.child? owner id with
  | .error defect => (.error defect, arena)
  | .ok none => (.ok .invalid, arena)
  | .ok (some child) => visit child arena

/-- Clone what one slot of `owner` holds. The clones of a list are stored as a list of
their own once all of them are there. -/
def Arena.copySlot (owner : Owner) (visit : owner.Child → Arena → CloneResult ExprId) :
    Slot → Arena → CloneResult Slot
  | .child id, arena =>
      (arena.copyChild owner visit id).andThen fun clone arena => (.ok (.child clone), arena)
  | .list range, arena =>
      match arena.children? owner range with
      | .error defect => (.error defect, arena)
      | .ok ⟨children, _⟩ =>
          (CloneResult.each (Arena.copyChild owner visit) children arena).andThen
            fun clones arena =>
              let (range, arena) := arena.storeExprs clones
              (.ok (.list range), arena)

/-- Clone the tree at a node: its slots from left to right, then the node itself. -/
def Arena.copyTree (owner : Owner) (arena : Arena) : CloneResult ExprId :=
  if owner.node.kind.isShareable then (.ok owner.id, arena)
  else
    (CloneResult.each (Arena.copySlot owner fun child => Arena.copyTree child.1)
      owner.node.kind.slots arena).andThen fun filled arena =>
        let (id, arena) := arena.alloc (owner.node.copyWith filled)
        (.ok id, arena)
termination_by owner.id.index
decreasing_by exact child.2

end CompilerIR
