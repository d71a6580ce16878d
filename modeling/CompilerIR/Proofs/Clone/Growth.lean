import CompilerIR.Proofs.Clone.Isomorphism
import Mathlib.Algebra.BigOperators.Group.List.Basic
import Mathlib.Algebra.GroupWithZero.Nat

/-!
How much a clone adds. Main statement: a well-formed tree takes the same numbers of new nodes and
of new list entries whenever it is cloned, however far the arena has grown by then.
-/

namespace CompilerIR

def Slot.listLength (storage : Array ExprId) : Slot → Nat
  | .child _ => 0
  | .list range => ((Slot.list range).entries storage).length

/-- The storage has grown by what the cloned pieces count, whatever their clones are. -/
def StorageGrows {α : Type} (count : α → Nat) (before after : Arena) (pieces _copies : List α) :
    Prop :=
  after.exprLists.size = before.exprLists.size + (pieces.map count).sum

theorem storageGrows_sequential {α : Type} (count : α → Nat) : Sequential (StorageGrows count) where
  nil _arena := rfl
  cons {before middle after piece copy pieces copies} first _toAfter second := by
    rw [StorageGrows] at second
    rw [StorageGrows, second, first, List.map_singleton, List.sum_singleton, List.map_cons,
      List.sum_cons, Nat.add_assoc]

namespace Arena

def ownEntries (arena : Arena) (id : ExprId) : Nat :=
  (arena.node? id).elim 0 fun node => (node.kind.slots.map (Slot.listLength arena.exprLists)).sum

/-- The entries in the lists of the given nodes. A node that is given twice counts twice. -/
def entryCount (arena : Arena) (ids : List ExprId) : Nat := (ids.map arena.ownEntries).sum

theorem entryCount_append (arena : Arena) (first second : List ExprId) :
    arena.entryCount (first ++ second) = arena.entryCount first + arena.entryCount second := by
  rw [entryCount, List.map_append, List.sum_append]
  rfl

theorem entryCount_flatMap {α : Type} (arena : Arena) (pieces : List α)
    (visited : α → List ExprId) :
    arena.entryCount (pieces.flatMap visited) =
      (pieces.map fun piece => arena.entryCount (visited piece)).sum := by
  induction pieces with
  | nil => rfl
  | cons piece rest inductionHypothesis =>
      rw [List.flatMap_cons, entryCount_append, inductionHypothesis, List.map_cons, List.sum_cons]

theorem ownEntries_of_node? {arena : Arena} {id : ExprId} {node : Node}
    (found : arena.node? id = some node) :
    arena.ownEntries id = (node.kind.slots.map (Slot.listLength arena.exprLists)).sum := by
  rw [ownEntries, found]
  rfl

theorem entryCount_occurrences {arena : Arena} {id : ExprId} {node : Node}
    (found : arena.node? id = some node) (precede : arena.ChildrenPrecede id) :
    arena.entryCount (arena.occurrences id) = (node.kind.slots.map fun slot =>
      arena.entryCount (slot.visited arena) + slot.listLength arena.exprLists).sum := by
  rw [occurrences_eq_slots found precede, entryCount_append, entryCount_flatMap, List.sum_map_add,
    ← ownEntries_of_node? found]
  rw [entryCount, List.map_singleton, List.sum_singleton]

theorem entries_storeExprs (arena : Arena) (ids : List ExprId) :
    (arena.storeExprs ids).2.exprLists.size = arena.exprLists.size + ids.length :=
  ListRange.size_append arena.exprLists ids

theorem growthInvariant (original : Arena) : original.WalkInvariant
    (StorageGrows fun id => original.entryCount (original.occurrences id))
    (StorageGrows fun slot =>
      original.entryCount (slot.visited original) + slot.listLength original.exprLists) where
  trees := storageGrows_sequential _
  slots := storageGrows_sequential _
  empty arena := by
    rw [StorageGrows, List.map_singleton, occurrences_invalid]
    rfl
  shared {arena id node} found shareable wellFormed _extended := by
    rw [StorageGrows, List.map_singleton, List.sum_singleton,
      entryCount_occurrences found wellFormed.childrenPrecede,
      NodeKind.slots_of_isShareable shareable]
    rfl
  child {before after id copy} grown := by
    simpa [StorageGrows, Slot.visited, Slot.entries, Slot.listLength] using grown
  list {before middle range entries clones} read counted grown := by
    have held := Slot.entries_of_read? read
    rw [StorageGrows, entries_storeExprs, grown, counted, List.map_singleton, List.sum_singleton,
      Slot.visited, Slot.listLength, held, entryCount_flatMap, Nat.add_assoc]
  node {before middle id node filled} found precede _owned _extended grown := by
    rw [StorageGrows, List.map_singleton, List.sum_singleton, entryCount_occurrences found precede]
    exact grown

theorem WellFormedAt.clone_adds {original before : Arena} {id : ExprId}
    (wellFormed : original.WellFormedAt id) (admitted : original.Admits id)
    (extended : original.Extends before) :
    ∃ copy after, before.clone id = (.ok copy, after) ∧
      after.size = before.size + (original.copied (original.occurrences id)).length ∧
      after.exprLists.size =
        before.exprLists.size + original.entryCount (original.occurrences id) ∧
      (after.Fits → original.TreeStands after id copy) := by
  obtain ⟨tree, unfolded⟩ := wellFormed.exists_unfold admitted
  have laterUnfolded := extended.unfold unfolded
  obtain ⟨copy, after, done⟩ :=
    (wellFormedAt_of_unfold laterUnfolded).clone_ok (admits_of_unfold laterUnfolded)
  have copies := original.copyInvariant.clone wellFormed admitted extended done
  have grown := original.growthInvariant.clone wellFormed admitted extended done
  refine ⟨copy, after, done, ?_, ?_, ?_⟩
  · simpa [treeCopies] using copies.size
  · simpa [StorageGrows] using grown
  · exact fun fits => copies.single fits

end Arena

end CompilerIR
