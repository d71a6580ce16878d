import CompilerIR.Arena.Columns
import CompilerIR.Proofs.Arena.Extension
import CompilerIR.Proofs.Arena.Reference

/-!
Arenas and their columns. Guarded accesses to nodes that an arena has, and additions that it has
room for, go well.
-/

namespace CompilerIR

namespace Columns

def arena (columns : Columns) : Arena where
  nodes := columns.kinds.zipWith (fun kind part => ⟨kind, part.1, part.2⟩)
    (columns.spans.zip columns.types)
  exprLists := columns.exprLists
  typeLists := columns.typeLists

end Columns

namespace Arena

def columns (arena : Arena) : Columns where
  kinds := arena.nodes.map Node.kind
  spans := arena.nodes.map Node.span
  types := arena.nodes.map Node.type
  exprLists := arena.exprLists
  typeLists := arena.typeLists

variable {arena : Arena}

theorem size_kinds_columns (arena : Arena) : arena.columns.kinds.size = arena.size := by
  rw [columns, Array.size_map, size]

theorem contains_columns (arena : Arena) (id : ExprId) :
    arena.columns.contains id = arena.contains id := by
  rw [Columns.contains, size_kinds_columns, contains]

section Found

variable {id : ExprId} {node : Node} (found : arena.get? id = some node)

include found

theorem read_columns {α : Type} (part : Node → α) :
    Columns.read (arena.nodes.map part) id = .ok (part node) := by
  rw [get?] at found
  rw [Columns.read, Array.getElem?_map, found]
  rfl

theorem node_columns : arena.columns.node id = .ok node := by
  simp only [Columns.node, columns, read_columns found]
  rfl

end Found

theorem alloc_columns (room : arena.size < UInt32.size) (node : Node) :
    arena.columns.alloc node = .ok ((arena.alloc node).1, (arena.alloc node).2.columns) := by
  rw [Columns.alloc, size_kinds_columns, if_pos room]
  simp only [columns, alloc, Array.map_push]

theorem pushExprs_columns {ids : List ExprId} (short : ids.length ≤ ListRange.maxLength)
    (room : arena.exprLists.size < UInt32.size) :
    arena.columns.pushExprs ids =
      .ok ((arena.storeExprs ids).1, (arena.storeExprs ids).2.columns) := by
  cases ids with
  | nil => rfl
  | cons first rest =>
      rw [Columns.pushExprs, if_neg (by simp), if_neg (Nat.not_lt.mpr short)]
      change (if arena.exprLists.size < UInt32.size then _ else _) = _
      rw [if_pos room]
      rfl

end Arena

theorem Columns.Aligned.columns_arena {columns : Columns} (aligned : columns.Aligned) :
    columns.arena.columns = columns := by
  obtain ⟨kinds, spans, types, exprLists, typeLists⟩ := columns
  obtain ⟨spansAligned, typesAligned⟩ := aligned
  dsimp only at spansAligned typesAligned
  have length : (kinds.zipWith (fun kind part => (⟨kind, part.1, part.2⟩ : Node))
      (spans.zip types)).size = kinds.size := by
    rw [Array.size_zipWith, Array.size_zip, spansAligned, typesAligned, Nat.min_self, Nat.min_self]
  simp only [Columns.arena, Arena.columns, Columns.mk.injEq, and_true]
  refine ⟨Array.ext ((Array.size_map ..).trans length) ?kinds,
    Array.ext ((Array.size_map ..).trans (length.trans spansAligned.symm)) ?spans,
    Array.ext ((Array.size_map ..).trans (length.trans typesAligned.symm)) ?types⟩
  all_goals
    intro index _inside _insideToo
    simp

end CompilerIR
