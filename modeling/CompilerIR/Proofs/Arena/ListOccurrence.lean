import CompilerIR.Proofs.Arena.Occurrence
import CompilerIR.Proofs.Arena.Soundness
import Mathlib.Data.List.Perm.Basic

/-!
The lists of a tree, in the order in which a copy of it stores them: a list follows all lists that
its entries lead to, and a node has its slots from left to right. Main statement: apart from the
order they are the lists of the nodes that occur in the tree.
-/

namespace CompilerIR

structure OwnedList where
  owner : ExprId
  range : ExprRange
deriving DecidableEq

def Slot.lists (owner : ExprId) : Slot → List OwnedList
  | .child _ => []
  | .list range => [⟨owner, range⟩]

namespace Arena

def ownLists (arena : Arena) (owner : ExprId) : List OwnedList :=
  (arena.node? owner).elim [] fun node => node.kind.slots.flatMap (Slot.lists owner)

/-- One entry for each path from `id` to a list. -/
def listOccurrences (arena : Arena) (id : ExprId) : List OwnedList :=
  match arena.node? id with
  | none => []
  | some node =>
      node.kind.slots.flatMap fun slot =>
        (slot.entries arena.exprLists).flatMap (fun child =>
          if _precedes : child.index < id.index then arena.listOccurrences child else []) ++
        slot.lists id
termination_by id.index
decreasing_by exact _precedes

end Arena

def Slot.listOccurrences (arena : Arena) (owner : ExprId) (slot : Slot) : List OwnedList :=
  (slot.entries arena.exprLists).flatMap arena.listOccurrences ++ slot.lists owner

namespace Arena

theorem ownLists_of_node? {arena : Arena} {id : ExprId} {node : Node}
    (found : arena.node? id = some node) :
    arena.ownLists id = node.kind.slots.flatMap (Slot.lists id) := by
  rw [ownLists, found]
  rfl

theorem ownLists_of_shares {arena : Arena} {id : ExprId} (shared : arena.shares id = true) :
    arena.ownLists id = [] := by
  cases found : arena.node? id with
  | none =>
      rw [ownLists, found]
      rfl
  | some node =>
      rw [shares_of_node? found] at shared
      rw [ownLists_of_node? found, NodeKind.slots_of_isShareable shared]
      rfl

theorem listOccurrences_invalid (arena : Arena) : arena.listOccurrences .invalid = [] := by
  rw [listOccurrences, node?_invalid]

theorem listOccurrences_of_isShareable {arena : Arena} {id : ExprId} {node : Node}
    (found : arena.node? id = some node) (shareable : node.kind.isShareable = true) :
    arena.listOccurrences id = [] := by
  rw [listOccurrences, found]
  dsimp only
  rw [NodeKind.slots_of_isShareable shareable, List.flatMap_nil]

theorem listOccurrences_of_node? {arena : Arena} {id : ExprId} {node : Node}
    (found : arena.node? id = some node) (precede : arena.ChildrenPrecede id) :
    arena.listOccurrences id = node.kind.slots.flatMap (Slot.listOccurrences arena id) := by
  rw [listOccurrences, found]
  dsimp only
  apply List.flatMap_congr
  intro slot member
  rw [Slot.listOccurrences]
  congr 1
  apply List.flatMap_congr
  intro child held
  rcases precede child (refers_of_mem found member held) with empty | precedes
  · subst empty
    rw [listOccurrences_invalid]
    split <;> rfl
  · rw [dif_pos precedes]

theorem Extends.listOccurrences {before after : Arena} (extended : before.Extends after)
    {id : ExprId} {tree : Tree} (unfolded : before.unfold id = some tree) :
    after.listOccurrences id = before.listOccurrences id := by
  refine (wellFormedAt_of_unfold unfolded).induction ?empty ?node (admits_of_unfold unfolded)
  case empty => rw [listOccurrences_invalid, listOccurrences_invalid]
  case node =>
    intro id node found wellFormed below
    rw [listOccurrences_of_node? found wellFormed.childrenPrecede,
      listOccurrences_of_node? (extended.node? found)
        (extended.childrenPrecede_later found wellFormed)]
    apply List.flatMap_congr
    intro slot member
    have sameEntries : slot.entries after.exprLists = slot.entries before.exprLists := by
      apply extended.entries
      rintro range rfl
      exact wellFormed.listsInside.read? found member
    rw [Slot.listOccurrences, Slot.listOccurrences, sameEntries]
    congr 1
    apply List.flatMap_congr
    exact fun child held => below child (refers_of_mem found member held)

/-- A node has its lists together, but in the tree the lists that an entry of one of them leads to
come between it and the one before. -/
theorem WellFormedAt.listOccurrences_perm {arena : Arena} {id : ExprId}
    (wellFormed : arena.WellFormedAt id) (admitted : arena.Admits id) :
    (arena.listOccurrences id).Perm ((arena.occurrences id).flatMap arena.ownLists) := by
  refine wellFormed.induction ?empty ?node admitted
  case empty =>
    rw [listOccurrences_invalid, occurrences_invalid]
    exact .nil
  case node =>
    intro id node found wellFormed below
    have belowSlot (slot : Slot) (member : slot ∈ node.kind.slots) :
        ((slot.entries arena.exprLists).flatMap arena.listOccurrences).Perm
          ((slot.entries arena.exprLists).flatMap fun child =>
            (arena.occurrences child).flatMap arena.ownLists) :=
      List.Perm.flatMap_left _ fun child held => below child (refers_of_mem found member held)
    rw [listOccurrences_of_node? found wellFormed.childrenPrecede,
      occurrences_of_node? found wellFormed.childrenPrecede, children_of_node? found,
      List.flatMap_append, List.flatMap_singleton, List.flatMap_assoc, List.flatMap_assoc,
      ownLists_of_node? found]
    refine .trans (List.Perm.flatMap_left _ fun slot member =>
      (belowSlot slot member).append_right (slot.lists id)) ?_
    exact (List.flatMap_append_perm _ _ _).symm

end Arena

end CompilerIR
