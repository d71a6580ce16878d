import CompilerIR.Arena.Columns
import CompilerIR.Clone.Rule

/-!
Cloning as a recursion that may get only so deep, with every access to the arena guarded.
-/

namespace CompilerIR

abbrev Guarded (α : Type) := Except Fault (Except CloneDefect α × Columns)

namespace Guarded

variable {α β : Type}

def andThen (result : Guarded α) (next : α → Columns → Guarded β) : Guarded β :=
  match result with
  | .error fault => .error fault
  | .ok (.error defect, columns) => .ok (.error defect, columns)
  | .ok (.ok value, columns) => next value columns

def each (work : α → Columns → Guarded β) : List α → Columns → Guarded (List β)
  | [], columns => .ok (.ok [], columns)
  | entry :: entries, columns =>
      (work entry columns).andThen fun value columns =>
        (each work entries columns).andThen fun values columns =>
          .ok (.ok (value :: values), columns)

end Guarded

namespace Columns

/-- Where a defect of `owner` is. Its parts are read again from the arena as it stands. -/
def site (columns : Columns) (owner : ExprId) : Except Fault DefectSite := do
  let kind ← read columns.kinds owner
  let span ← read columns.spans owner
  return ⟨owner, kind.name, span⟩

def cloneChild (visit : ExprId → Columns → Guarded ExprId) (owner child : ExprId)
    (columns : Columns) : Guarded ExprId :=
  if child.isValid then
    match columns.site owner with
    | .error fault => .error fault
    | .ok site =>
        if !columns.contains child then .ok (.error (.danglingChild site child), columns)
        else if owner.index ≤ child.index then .ok (.error (.cyclicChild site child), columns)
        else visit child columns
  else .ok (.ok .invalid, columns)

def cloneList (visit : ExprId → Columns → Guarded ExprId) (owner : ExprId) (range : ExprRange)
    (columns : Columns) : Guarded ExprRange :=
  match range.read? columns.exprLists with
  | none =>
      match columns.site owner with
      | .error fault => .error fault
      | .ok site => .ok (.error (.danglingList site range), columns)
  | some children =>
      (Guarded.each (cloneChild visit owner) children columns).andThen fun clones columns =>
        match columns.pushExprs clones with
        | .error fault => .error fault
        | .ok (range, columns) => .ok (.ok range, columns)

def cloneSlot (visit : ExprId → Columns → Guarded ExprId) (owner : ExprId) :
    Slot → Columns → Guarded Slot
  | .child child, columns =>
      (columns.cloneChild visit owner child).andThen fun clone columns =>
        .ok (.ok (.child clone), columns)
  | .list range, columns =>
      (columns.cloneList visit owner range).andThen fun clones columns =>
        .ok (.ok (.list clones), columns)

/-- Clone the node at `id` with at most `depth` nodes being cloned at a time. -/
def cloneNode : Nat → ExprId → Columns → Guarded ExprId
  | 0, _, _ => .error .tooDeep
  | depth + 1, id, columns =>
      match columns.node id with
      | .error fault => .error fault
      | .ok node =>
          if node.kind.isShareable then .ok (.ok id, columns)
          else
            (Guarded.each (cloneSlot (cloneNode depth) id) node.kind.slots columns).andThen
              fun filled columns =>
                match columns.alloc (node.copyWith filled) with
                | .error fault => .error fault
                | .ok (copy, columns) => .ok (.ok copy, columns)

/-- The deepest recursion allowed is one more than the number of the root. -/
def cloneExpr (columns : Columns) (id : ExprId) : Guarded ExprId :=
  if id.isValid then
    if columns.contains id then cloneNode (id.index + 1) id columns
    else .ok (.error (.foreignRoot id), columns)
  else .ok (.ok .invalid, columns)

def cloneExprs (columns : Columns) : Option (List ExprId) → Guarded (Option (List ExprId))
  | none => .ok (.ok none, columns)
  | some ids =>
      (Guarded.each (fun id columns => columns.cloneExpr id) ids columns).andThen
        fun clones columns => .ok (.ok (some clones), columns)

end Columns

end CompilerIR
