import CompilerIR.Arena.Basic

/-!
Arenas that grow. What an arena holds can be read from every extension of it.
-/

namespace CompilerIR.Arena

/-- `after` is `before` with nodes and list entries added behind the old ones. Type lists
stay as they are. -/
structure Extends (before after : Arena) : Prop where
  nodes : before.nodes.toList <+: after.nodes.toList
  exprLists : before.exprLists.toList <+: after.exprLists.toList
  typeLists : after.typeLists = before.typeLists

/-- Every node and every entry of a list has a number of its own, and no node has the one
that stands for no expression. -/
structure Fits (arena : Arena) : Prop where
  nodes : arena.size < UInt32.size - 1
  entries : arena.exprLists.size < UInt32.size

instance (arena : Arena) : Decidable arena.Fits :=
  decidable_of_iff (arena.size < UInt32.size - 1 ∧ arena.exprLists.size < UInt32.size)
    ⟨fun ⟨nodes, entries⟩ => ⟨nodes, entries⟩, fun ⟨nodes, entries⟩ => ⟨nodes, entries⟩⟩

theorem Extends.refl (arena : Arena) : arena.Extends arena :=
  ⟨List.prefix_rfl, List.prefix_rfl, rfl⟩

theorem Extends.trans {first middle last : Arena} (start : first.Extends middle)
    (rest : middle.Extends last) : first.Extends last :=
  ⟨start.nodes.trans rest.nodes, start.exprLists.trans rest.exprLists,
    rest.typeLists.trans start.typeLists⟩

variable {before after : Arena} (extended : before.Extends after)

include extended

theorem Extends.size_le : before.size ≤ after.size := by
  have bound := extended.nodes.length_le
  simpa only [size, Array.length_toList] using bound

theorem Extends.fits (fits : after.Fits) : before.Fits := by
  have nodeBound := extended.size_le
  have entryBound := extended.exprLists.length_le
  simp only [Array.length_toList] at entryBound
  exact ⟨Nat.lt_of_le_of_lt nodeBound fits.nodes, Nat.lt_of_le_of_lt entryBound fits.entries⟩

theorem Extends.get? {id : ExprId} {node : Node} (found : before.get? id = some node) :
    after.get? id = some node := by
  obtain ⟨more, added⟩ := extended.nodes
  unfold Arena.get? at *
  rw [← Array.getElem?_toList] at *
  have inside := (List.getElem?_eq_some_iff.mp found).1
  rw [← added, List.getElem?_append_left inside]
  exact found

theorem Extends.read? {range : ExprRange} {entries : List ExprId}
    (read : range.read? before.exprLists = some entries) :
    range.read? after.exprLists = some entries :=
  ListRange.read?_mono extended.exprLists read

omit extended

theorem alloc_extends (arena : Arena) (node : Node) : arena.Extends (arena.alloc node).2 := by
  refine ⟨?_, List.prefix_rfl, rfl⟩
  simp only [alloc, Array.toList_push]
  exact List.prefix_append _ _

theorem storeExprs_extends (arena : Arena) (ids : List ExprId) :
    arena.Extends (arena.storeExprs ids).2 := by
  have added : (arena.storeExprs ids).2.exprLists.toList = arena.exprLists.toList ++ ids :=
    ListRange.toList_append arena.exprLists ids
  exact ⟨List.prefix_rfl, added ▸ List.prefix_append _ _, rfl⟩

theorem storeExprs_size (arena : Arena) (ids : List ExprId) :
    (arena.storeExprs ids).2.size = arena.size := rfl

theorem read?_storeExprs {arena : Arena} {ids : List ExprId}
    (short : ids.length ≤ ListRange.maxLength) (room : arena.exprLists.size < UInt32.size) :
    (arena.storeExprs ids).1.read? (arena.storeExprs ids).2.exprLists = some ids :=
  ListRange.read?_append short room

end CompilerIR.Arena
