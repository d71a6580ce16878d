import CompilerIR.Proofs.Arena.Occurrence
import CompilerIR.Proofs.Clone.BadChild
import CompilerIR.Proofs.Clone.Walk

/-!
What a clone is a copy of. The walk writes into the arena that it reads, so everything is
stated about an original arena and its extensions. Main statement: every step of a walk over a
well-formed tree makes a copy with the types of one, and the nodes of the copies are numbered in
the order of the occurrences that they stand for.
-/

namespace CompilerIR

open Arena

/-- How pieces of a tree and their copies are compared, and which occurrences a piece
has. A copy stays a copy as the arena grows. -/
structure CopyRelation (α : Type) where
  Stands : Arena → α → α → Prop
  visited : Arena → α → List ExprId
  later : ∀ {before after : Arena}, before.Extends after → ∀ {piece copy : α},
    Stands before piece copy → Stands after piece copy ∧ visited after copy = visited before copy

theorem CopyRelation.visited_later {α : Type} (relation : CopyRelation α) {before after : Arena}
    (extended : before.Extends after) {pieces copies : List α}
    (stand : List.Forall₂ (relation.Stands before) pieces copies) :
    copies.flatMap (relation.visited after) = copies.flatMap (relation.visited before) :=
  flatMap_eq_of_forall₂ stand fun _ _ stands => (relation.later extended stands).2

structure CopyRelation.Copies {α : Type} (relation : CopyRelation α)
    (original before after : Arena) (pieces copies : List α) : Prop where
  size : after.size =
    before.size + (original.copied (pieces.flatMap (relation.visited original))).length
  stand : after.Fits → List.Forall₂ (relation.Stands after) pieces copies
  numbered : after.Fits → copies.flatMap (relation.visited after) =
    original.standIns before.size (pieces.flatMap (relation.visited original))

theorem CopyRelation.Copies.single {α : Type} {relation : CopyRelation α}
    {original before after : Arena} {piece copy : α}
    (copies : relation.Copies original before after [piece] [copy]) (fits : after.Fits) :
    relation.Stands after piece copy :=
  (List.forall₂_cons.mp (copies.stand fits)).1

theorem CopyRelation.sequential {α : Type} (relation : CopyRelation α) (original : Arena) :
    Sequential (relation.Copies original) where
  nil _arena := ⟨rfl, fun _ => .nil, fun _ => rfl⟩
  cons {before middle after piece copy pieces copies} first toAfter second := by
    have firstStands (fits : after.Fits) : relation.Stands middle piece copy :=
      first.single (toAfter.fits fits)
    refine ⟨?_, ?_, ?_⟩
    · have firstSize := first.size
      have secondSize := second.size
      simp only [List.flatMap_cons, List.flatMap_nil, List.append_nil] at firstSize
      rw [List.flatMap_cons, copied_append, List.length_append]
      omega
    · intro fits
      exact .cons (relation.later toAfter (firstStands fits)).1 (second.stand fits)
    · intro fits
      have firstNumbered := first.numbered (toAfter.fits fits)
      have firstSize := first.size
      simp only [List.flatMap_cons, List.flatMap_nil, List.append_nil] at firstNumbered firstSize
      rw [List.flatMap_cons, List.flatMap_cons, standIns_append, second.numbered fits,
        (relation.later toAfter (firstStands fits)).2, firstNumbered, firstSize]

def Slot.visited (arena : Arena) (slot : Slot) : List ExprId :=
  (slot.entries arena.exprLists).flatMap arena.occurrences

namespace Arena

/-- The tree at `copy` is the one at `id` in the original, with the types of a copy. -/
def TreeStands (original after : Arena) (id copy : ExprId) : Prop :=
  ∃ tree, original.unfold id = some tree ∧ after.unfold copy = some tree.retyped

inductive SlotStands (original after : Arena) : Slot → Slot → Prop
  | child {id copy : ExprId} (stands : original.TreeStands after id copy) :
      SlotStands original after (.child id) (.child copy)
  | list {range copy : ExprRange} {entries copies : List ExprId}
      (read : range.read? original.exprLists = some entries)
      (kept : copy.read? after.exprLists = some copies)
      (stand : List.Forall₂ (original.TreeStands after) entries copies) :
      SlotStands original after (.list range) (.list copy)

theorem TreeStands.later {original before after : Arena} (extended : before.Extends after)
    {id copy : ExprId} (stands : original.TreeStands before id copy) :
    original.TreeStands after id copy ∧ after.occurrences copy = before.occurrences copy := by
  obtain ⟨tree, unfolded, copied⟩ := stands
  exact ⟨⟨tree, unfolded, extended.unfold copied⟩, extended.occurrences copied⟩

def treeCopies (original : Arena) : CopyRelation ExprId where
  Stands := original.TreeStands
  visited := Arena.occurrences
  later extended _ _ stands := stands.later extended

def slotCopies (original : Arena) : CopyRelation Slot where
  Stands := original.SlotStands
  visited := Slot.visited
  later extended slot copy stands := by
    cases stands with
    | child stands =>
        obtain ⟨standsLater, same⟩ := stands.later extended
        refine ⟨.child standsLater, ?_⟩
        simp only [Slot.visited, Slot.entries, List.flatMap_cons, same]
        rfl
    | list read kept stand =>
        have standLater := stand.imp fun _ _ stands => (stands.later extended).1
        refine ⟨.list read (extended.read? kept) standLater, ?_⟩
        simp only [Slot.visited, Slot.entries_of_read? kept,
          Slot.entries_of_read? (extended.read? kept)]
        exact original.treeCopies.visited_later extended stand

theorem treeCopies_invalid (original before : Arena) :
    original.treeCopies.Copies original before before [.invalid] [.invalid] where
  size := by simp [treeCopies, occurrences_invalid, copied]
  stand _fits := .cons ⟨.empty, unfold_invalid original, unfold_invalid before⟩ .nil
  numbered _fits := by simp [treeCopies, occurrences_invalid, standIns]

theorem slotCopies_child {original before after : Arena} {id copy : ExprId}
    (copies : original.treeCopies.Copies original before after [id] [copy]) :
    original.slotCopies.Copies original before after [.child id] [.child copy] := by
  refine ⟨?_, ?_, ?_⟩
  · simpa [slotCopies, treeCopies, Slot.visited, Slot.entries] using copies.size
  · exact fun fits => .cons (.child (copies.single fits)) .nil
  · intro fits
    simpa [slotCopies, treeCopies, Slot.visited, Slot.entries] using copies.numbered fits

/-- The list of a slot is stored when all its entries have been cloned. -/
theorem slotCopies_list {original before middle : Arena} {range : ExprRange}
    {entries clones : List ExprId} (read : range.read? original.exprLists = some entries)
    (counted : clones.length = entries.length)
    (copies : original.treeCopies.Copies original before middle entries clones) :
    original.slotCopies.Copies original before (middle.storeExprs clones).2 [.list range]
      [.list (middle.storeExprs clones).1] := by
  have held := Slot.entries_of_read? read
  have stored := middle.storeExprs_extends clones
  have short : clones.length ≤ ListRange.maxLength := counted ▸ ListRange.length_le_of_read? read
  have kept (fits : (middle.storeExprs clones).2.Fits) :
      (middle.storeExprs clones).1.read? (middle.storeExprs clones).2.exprLists = some clones :=
    read?_storeExprs short (stored.fits fits).entries
  refine ⟨?_, ?_, ?_⟩
  · have size := copies.size
    simpa [slotCopies, treeCopies, Slot.visited, held, storeExprs_size] using size
  · intro fits
    have stand := copies.stand (stored.fits fits)
    have standLater := stand.imp fun _ _ stands => (stands.later stored).1
    exact .cons (.list read (kept fits) standLater) .nil
  · intro fits
    have stand := copies.stand (stored.fits fits)
    have numbered := copies.numbered (stored.fits fits)
    simp only [slotCopies, Slot.visited, List.flatMap_cons, List.flatMap_nil, List.append_nil,
      Slot.entries_of_read? (kept fits), held]
    exact (original.treeCopies.visited_later stored stand).trans numbered

theorem retyped_of_isShareable {arena : Arena} {id : ExprId} {node : Node} {tree : Tree}
    (found : arena.node? id = some node) (shareable : node.kind.isShareable = true)
    (unfolded : arena.unfold id = some tree) : tree.retyped = tree := by
  rw [unfold_of_node? found] at unfolded
  obtain ⟨kind, span, type⟩ := node
  cases kind <;> cases shareable <;> cases unfolded <;> rfl

section Reading

variable {original middle after : Arena} {owner copy : ExprId} (extended : middle.Extends after)
  (last : copy.index = middle.size)

include extended last

theorem TreeStands.reads {id clone : ExprId} (precedes : id = .invalid ∨ id.index < owner.index)
    (stands : original.TreeStands middle id clone) :
    ∃ tree, (original.reader owner).child id = some tree ∧
      (after.reader copy).child clone = some tree.retyped := by
  obtain ⟨tree, unfolded, copied⟩ := stands
  refine ⟨tree, reader_child_eq_some_iff.mpr ⟨precedes, unfolded⟩,
    reader_child_eq_some_iff.mpr ⟨?_, extended.unfold copied⟩⟩
  apply (admits_of_unfold copied).cases.imp_right
  rintro ⟨node, present⟩
  rw [last]
  exact index_lt_size present

theorem TreeStands.reads_all {entries copies : List ExprId}
    (precede : ∀ id ∈ entries, id = .invalid ∨ id.index < owner.index)
    (stand : List.Forall₂ (original.TreeStands middle) entries copies) :
    ∃ trees : List Tree,
      List.Forall₂ (fun id tree => (original.reader owner).child id = some tree) entries trees ∧
        List.Forall₂ (fun id tree => (after.reader copy).child id = some tree) copies
          (trees.map Tree.retyped) := by
  induction stand with
  | nil => exact ⟨[], .nil, .nil⟩
  | cons stands _others inductionHypothesis =>
      obtain ⟨tree, read, readCopy⟩ := stands.reads extended last (precede _ List.mem_cons_self)
      obtain ⟨trees, reads, readCopies⟩ := inductionHypothesis fun id member =>
        precede id (List.mem_cons_of_mem _ member)
      exact ⟨tree :: trees, .cons read reads, .cons readCopy readCopies⟩

/-- If a slot of a node has been cloned, then the node allocated later holds in it the same
trees with the types of a copy. -/
theorem SlotStands.relates {slot filled : Slot}
    (precede : ∀ id ∈ slot.entries original.exprLists, id = .invalid ∨ id.index < owner.index)
    (stands : original.SlotStands middle slot filled) :
    (original.reader owner).Relates (after.reader copy) Tree.retyped slot filled := by
  cases stands with
  | child stands =>
      obtain ⟨tree, read, readCopy⟩ := stands.reads extended last (precede _ List.mem_cons_self)
      exact .child read readCopy
  | list read kept stand =>
      rw [Slot.entries_of_read? read] at precede
      obtain ⟨trees, reads, readCopies⟩ := TreeStands.reads_all extended last precede stand
      exact .list (reader_list_eq_some_iff.mpr ⟨_, read, reads⟩)
        (reader_list_eq_some_iff.mpr ⟨_, extended.read? kept, readCopies⟩)

end Reading

theorem occurrences_eq_slots {arena : Arena} {id : ExprId} {node : Node}
    (found : arena.node? id = some node) (precede : arena.ChildrenPrecede id) :
    arena.occurrences id = node.kind.slots.flatMap (Slot.visited arena) ++ [id] := by
  rw [occurrences_of_node? found precede, children_of_node? found, List.flatMap_assoc]
  rfl

section Nodes

variable {original middle : Arena} {id : ExprId} {node : Node} {filled : List Slot}
  (found : original.node? id = some node) (precede : original.ChildrenPrecede id)
  (room : middle.size < UInt32.size - 1)
  (stand : List.Forall₂ (original.SlotStands middle) node.kind.slots filled)

include found precede room stand

/-- The node allocated for a node whose slots have been cloned. -/
theorem treeStands_alloc :
    (node.copyWith filled).kind.slots = filled ∧
      original.TreeStands (middle.alloc (node.copyWith filled)).2 id
        (middle.alloc (node.copyWith filled)).1 := by
  have extended := middle.alloc_extends (node.copyWith filled)
  have last : (middle.alloc (node.copyWith filled)).1.index = middle.size :=
    ExprId.index_ofIndex (by omega)
  have related : List.Forall₂ ((original.reader id).Relates
      ((middle.alloc (node.copyWith filled)).2.reader (middle.alloc (node.copyWith filled)).1)
      Tree.retyped) node.kind.slots filled := by
    have members := (List.forall₂_and_left node.kind.slots filled).mpr
      ⟨fun slot (member : slot ∈ node.kind.slots) => member, stand⟩
    apply members.imp
    intro slot copy stands
    apply stands.2.relates extended last
    intro child held
    exact precede child (refers_of_mem found stands.1 held)
  obtain ⟨sameSlots, form, formed, formedCopy⟩ := NodeKind.form?_withSlots related
  refine ⟨sameSlots, .node form node.span node.type, ?_, ?_⟩
  · rw [unfold_of_node? found, formed]
    rfl
  · rw [unfold_of_node? (node?_alloc room _), Tree.retyped_node,
      NodeKind.typeOfCopy_of_form? formed]
    change ((node.kind.withSlots filled).form? _).map _ = _
    rw [formedCopy]
    rfl

end Nodes

theorem treeCopies_of_isShareable {original before : Arena} {id : ExprId} {node : Node}
    (found : original.node? id = some node) (shareable : node.kind.isShareable = true)
    (wellFormed : original.WellFormedAt id) (extended : original.Extends before) :
    original.treeCopies.Copies original before before [id] [id] := by
  have shared : original.shares id = true := by
    rw [shares_of_node? found, shareable]
  have alone := occurrences_of_isShareable found shareable
  obtain ⟨tree, unfolded⟩ := wellFormed.exists_unfold (Or.inr (exists_node?_iff.mp ⟨node, found⟩))
  refine ⟨?_, ?_, ?_⟩
  · simp [treeCopies, alone, copied, shared]
  · intro _fits
    have same := retyped_of_isShareable found shareable unfolded
    exact .cons ⟨tree, unfolded, same.symm ▸ extended.unfold unfolded⟩ .nil
  · intro _fits
    simp [treeCopies, alone, extended.occurrences unfolded, standIns, shared]

/-- The copy of any other node follows those of its slots. -/
theorem treeCopies_alloc {original before middle : Arena} {id : ExprId} {node : Node}
    {filled : List Slot} (found : original.node? id = some node)
    (precede : original.ChildrenPrecede id) (owned : node.kind.isShareable = false)
    (copies : original.slotCopies.Copies original before middle node.kind.slots filled) :
    original.treeCopies.Copies original before (middle.alloc (node.copyWith filled)).2 [id]
      [(middle.alloc (node.copyWith filled)).1] := by
  have grown := middle.alloc_extends (node.copyWith filled)
  have listed := occurrences_eq_slots found precede
  have notShared : original.shares id = false := by
    rw [shares_of_node? found, owned]
  have size := copies.size
  simp only [slotCopies] at size
  have stands (fits : (middle.alloc (node.copyWith filled)).2.Fits) :=
    treeStands_alloc found precede (grown.fits fits).nodes (copies.stand (grown.fits fits))
  refine ⟨?_, ?_, ?_⟩
  · simp only [treeCopies, List.flatMap_cons, List.flatMap_nil, List.append_nil, listed,
      copied_append, List.length_append, size_alloc, size]
    simp [copied, notShared, Nat.add_assoc]
  · exact fun fits => .cons (stands fits).2 .nil
  · intro fits
    have numbered := copies.numbered (grown.fits fits)
    obtain ⟨sameSlots, _tree, _unfolded, unfoldedCopy⟩ := stands fits
    have listedCopy := occurrences_eq_slots
      (node?_alloc (grown.fits fits).nodes (node.copyWith filled))
      (wellFormedAt_of_unfold unfoldedCopy).childrenPrecede
    have sameVisits := original.slotCopies.visited_later grown (copies.stand (grown.fits fits))
    simp only [slotCopies] at numbered sameVisits
    simp only [treeCopies, List.flatMap_cons, List.flatMap_nil, List.append_nil]
    rw [listedCopy, sameSlots, sameVisits, numbered, listed, standIns_append, ← size]
    simp [standIns, notShared, alloc]

theorem copyInvariant (original : Arena) : original.WalkInvariant
    (original.treeCopies.Copies original) (original.slotCopies.Copies original) where
  trees := original.treeCopies.sequential original
  slots := original.slotCopies.sequential original
  empty := treeCopies_invalid original
  shared := treeCopies_of_isShareable
  child := slotCopies_child
  list := slotCopies_list
  node found precede owned _extended copies := treeCopies_alloc found precede owned copies

end Arena

end CompilerIR
