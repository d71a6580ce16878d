import CompilerIR.Proofs.Arena.Extension
import CompilerIR.Node.Slot
import Mathlib.Data.List.Basic
import Mathlib.Logic.Relation

/-!
References between the nodes of an arena. A tree is well formed if whatever its root leads
to comes before its owner and lies in the arena.
-/

namespace CompilerIR

/-- The children in a slot. A list outside the storage has none. -/
def Slot.entries (storage : Array ExprId) : Slot → List ExprId
  | .child id => [id]
  | .list range => (range.read? storage).getD []

theorem Slot.entries_of_read? {storage : Array ExprId} {range : ExprRange} {entries : List ExprId}
    (read : range.read? storage = some entries) : (Slot.list range).entries storage = entries := by
  rw [Slot.entries, read, Option.getD_some]

def Slot.Inside (storage : Array ExprId) : Slot → Prop
  | .child _ => True
  | .list range => range.isEmpty = true ∨ range.stop ≤ storage.size

instance (storage : Array ExprId) : DecidablePred (Slot.Inside storage)
  | .child _ => .isTrue trivial
  | .list range => inferInstanceAs (Decidable (range.isEmpty = true ∨ range.stop ≤ storage.size))

theorem Slot.Inside.read? {storage : Array ExprId} {range : ExprRange}
    (inside : (Slot.list range).Inside storage) :
    ∃ entries, range.read? storage = some entries := by
  unfold ListRange.read?
  split
  · exact ⟨[], rfl⟩
  · rename_i notEmpty
    rw [if_pos (inside.resolve_left notEmpty)]
    exact ⟨_, rfl⟩

theorem NodeKind.slots_of_isShareable {kind : NodeKind} (shareable : kind.isShareable = true) :
    kind.slots = [] := by
  cases kind <;> first | rfl | cases shareable

theorem ListRange.inside_of_read? {α : Type} {range : ListRange α} {storage : Array α}
    {entries : List α} (read : range.read? storage = some entries) :
    range.isEmpty = true ∨ range.stop ≤ storage.size := by
  unfold ListRange.read? at read
  split at read
  · rename_i isEmpty
    exact Or.inl isEmpty
  · split at read
    · rename_i inside
      exact Or.inr inside
    · cases read

namespace Arena

/-- The node with an identity. That of no expression belongs to no node, however large the
arena. -/
def node? (arena : Arena) (id : ExprId) : Option Node :=
  if id.isValid then arena.get? id else none

def children (arena : Arena) (owner : ExprId) : List ExprId :=
  match arena.node? owner with
  | none => []
  | some node => node.kind.slots.flatMap (Slot.entries arena.exprLists)

def Refers (arena : Arena) (owner child : ExprId) : Prop := child ∈ arena.children owner

/-- Every child of the owner, if there is one in its slot, was allocated before it. -/
def ChildrenPrecede (arena : Arena) (owner : ExprId) : Prop :=
  ∀ child, arena.Refers owner child → child = .invalid ∨ child.index < owner.index

def ListsInside (arena : Arena) (owner : ExprId) : Prop :=
  ∀ node ∈ arena.node? owner, ∀ slot ∈ node.kind.slots, slot.Inside arena.exprLists

instance (arena : Arena) (owner : ExprId) : Decidable (arena.ChildrenPrecede owner) :=
  inferInstanceAs (Decidable (∀ child ∈ arena.children owner, _))

instance (arena : Arena) (owner : ExprId) : Decidable (arena.ListsInside owner) :=
  inferInstanceAs (Decidable (∀ node ∈ arena.node? owner, _))

/-- Every node that `id` leads to, itself included, has sound children and lists. -/
def WellFormedAt (arena : Arena) (id : ExprId) : Prop :=
  ∀ owner, Relation.ReflTransGen arena.Refers id owner →
    arena.ChildrenPrecede owner ∧ arena.ListsInside owner

/-- An identity that may be asked for: no expression, or a node. -/
def Admits (arena : Arena) (id : ExprId) : Prop :=
  id = .invalid ∨ arena.contains id = true

instance (arena : Arena) : DecidablePred arena.Admits :=
  fun id => inferInstanceAs (Decidable (id = .invalid ∨ arena.contains id = true))

theorem node?_eq_some_iff {arena : Arena} {id : ExprId} {node : Node} :
    arena.node? id = some node ↔ id.isValid = true ∧ arena.get? id = some node := by
  unfold node?
  split
  · rename_i valid
    simp only [valid, true_and]
  · rename_i invalid
    simp only [invalid, false_and, reduceCtorEq]

theorem node?_invalid (arena : Arena) : arena.node? .invalid = none := rfl

theorem exists_node?_iff {arena : Arena} {id : ExprId} :
    (∃ node, arena.node? id = some node) ↔ arena.contains id = true := by
  simp only [node?_eq_some_iff, exists_and_left, contains, Bool.and_eq_true, decide_eq_true_eq]
  apply and_congr_right
  intro _valid
  simp only [get?, Array.getElem?_eq_some_iff, size]
  constructor
  · rintro ⟨_node, inside, _same⟩
    exact inside
  · intro inside
    exact ⟨_, inside, rfl⟩

theorem contains_eq_false_of_get?_none {arena : Arena} {id : ExprId}
    (missing : arena.get? id = none) : arena.contains id = false := by
  rw [Bool.eq_false_iff]
  intro contained
  obtain ⟨node, found⟩ := exists_node?_iff.mpr contained
  rw [(node?_eq_some_iff.mp found).2] at missing
  cases missing

theorem index_lt_size {arena : Arena} {id : ExprId} {node : Node}
    (found : arena.node? id = some node) : id.index < arena.size :=
  (Array.getElem?_eq_some_iff.mp (node?_eq_some_iff.mp found).2).1

theorem node?_of_index_lt {arena : Arena} {id owner : ExprId} {node : Node}
    (found : arena.node? owner = some node) (precedes : id.index < owner.index) :
    ∃ child, arena.node? id = some child := by
  rw [exists_node?_iff]
  have bound := index_lt_size found
  simp only [contains, ExprId.isValid_of_index_lt precedes, Bool.true_and, decide_eq_true_eq]
  omega

theorem Admits.cases {arena : Arena} {id : ExprId} (admitted : arena.Admits id) :
    id = .invalid ∨ ∃ node, arena.node? id = some node :=
  admitted.imp_right exists_node?_iff.mpr

theorem node?_alloc {arena : Arena} (room : arena.size < UInt32.size - 1) (node : Node) :
    (arena.alloc node).2.node? (arena.alloc node).1 = some node := by
  have index : (arena.alloc node).1.index = arena.size := ExprId.index_ofIndex (by omega)
  have fresh : arena.size < UInt32.size := Nat.lt_of_lt_of_le room (by decide)
  exact node?_eq_some_iff.mpr
    ⟨ExprId.isValid_of_lt (index.symm ▸ room), get?_alloc fresh node⟩

theorem children_of_node? {arena : Arena} {owner : ExprId} {node : Node}
    (found : arena.node? owner = some node) :
    arena.children owner = node.kind.slots.flatMap (Slot.entries arena.exprLists) := by
  rw [children, found]

theorem refers_of_mem {arena : Arena} {owner child : ExprId} {node : Node} {slot : Slot}
    (found : arena.node? owner = some node) (member : slot ∈ node.kind.slots)
    (held : child ∈ slot.entries arena.exprLists) : arena.Refers owner child := by
  rw [Refers, children_of_node? found]
  exact List.mem_flatMap_of_mem member held

theorem ListsInside.read? {arena : Arena} {owner : ExprId} {node : Node} {range : ExprRange}
    (inside : arena.ListsInside owner) (found : arena.node? owner = some node)
    (held : .list range ∈ node.kind.slots) :
    ∃ entries, range.read? arena.exprLists = some entries :=
  Slot.Inside.read? (inside node found (.list range) held)

namespace WellFormedAt

variable {arena : Arena} {id : ExprId} (wellFormed : arena.WellFormedAt id)

include wellFormed

theorem childrenPrecede : arena.ChildrenPrecede id := (wellFormed id .refl).1

theorem listsInside : arena.ListsInside id := (wellFormed id .refl).2

theorem child {child : ExprId} (refers : arena.Refers id child) : arena.WellFormedAt child :=
  fun owner reached => wellFormed owner (.head refers reached)

theorem admits_child {node : Node} {child : ExprId} (found : arena.node? id = some node)
    (refers : arena.Refers id child) : arena.Admits child := by
  rcases wellFormed.childrenPrecede child refers with empty | precedes
  · exact Or.inl empty
  · exact Or.inr (exists_node?_iff.mp (node?_of_index_lt found precedes))

end WellFormedAt

/-- What holds of no expression, and of a node once it holds of all that the node refers to, holds
of every well-formed tree. -/
@[elab_as_elim]
theorem WellFormedAt.induction {arena : Arena} {Holds : ExprId → Prop} (empty : Holds .invalid)
    (node : ∀ id node, arena.node? id = some node → arena.WellFormedAt id →
      (∀ child, arena.Refers id child → Holds child) → Holds id)
    {id : ExprId} (wellFormed : arena.WellFormedAt id) (admitted : arena.Admits id) : Holds id := by
  rcases admitted.cases with nothing | ⟨held, found⟩
  · rw [nothing]
    exact empty
  · apply node id held found wellFormed
    intro child refers
    have admittedChild := wellFormed.admits_child found refers
    rcases wellFormed.childrenPrecede child refers with nothing | _precedes
    · rw [nothing]
      exact empty
    · exact (wellFormed.child refers).induction empty node admittedChild
termination_by id.index

private theorem of_forall_index {arena : Arena} {sound : ExprId → Prop}
    (outside : ∀ id, arena.node? id = none → sound id)
    (inside : ∀ index : Fin arena.size, sound (.ofIndex index)) (id : ExprId) : sound id := by
  cases found : arena.node? id with
  | none => exact outside id found
  | some node =>
      have soundHere := inside ⟨id.index, index_lt_size found⟩
      rwa [ExprId.ofIndex_index] at soundHere

theorem childrenPrecede_of_forall {arena : Arena}
    (precede : ∀ index : Fin arena.size, arena.ChildrenPrecede (.ofIndex index)) (id : ExprId) :
    arena.ChildrenPrecede id := by
  apply of_forall_index _ precede
  intro owner missing child refers
  rw [Refers, children, missing] at refers
  cases refers

theorem listsInside_of_forall {arena : Arena}
    (inside : ∀ index : Fin arena.size, arena.ListsInside (.ofIndex index)) (id : ExprId) :
    arena.ListsInside id := by
  apply of_forall_index _ inside
  intro owner missing node present
  rw [missing] at present
  cases present

theorem wellFormedAt_of_forall {arena : Arena}
    (precede : ∀ index : Fin arena.size, arena.ChildrenPrecede (.ofIndex index))
    (inside : ∀ index : Fin arena.size, arena.ListsInside (.ofIndex index)) (id : ExprId) :
    arena.WellFormedAt id :=
  fun owner _reached =>
    ⟨childrenPrecede_of_forall precede owner, listsInside_of_forall inside owner⟩

section Extension

variable {before after : Arena} (extended : before.Extends after)

include extended

theorem Extends.node? {id : ExprId} {node : Node} (found : before.node? id = some node) :
    after.node? id = some node := by
  rw [node?_eq_some_iff] at *
  exact ⟨found.1, extended.get? found.2⟩

theorem Extends.entries {slot : Slot} (read : ∀ range, slot = .list range →
    ∃ entries, range.read? before.exprLists = some entries) :
    slot.entries after.exprLists = slot.entries before.exprLists := by
  cases slot with
  | child id => rfl
  | list range =>
      obtain ⟨entries, held⟩ := read range rfl
      rw [Slot.entries_of_read? held, Slot.entries_of_read? (extended.read? held)]

theorem Extends.children {owner : ExprId} {node : Node} (found : before.node? owner = some node)
    (inside : before.ListsInside owner) : after.children owner = before.children owner := by
  rw [children_of_node? found, children_of_node? (extended.node? found)]
  apply List.flatMap_congr
  intro slot held
  apply extended.entries
  intro range same
  subst same
  exact inside.read? found held

/-- A reference that can be read stays, even if other lists of the owner cannot be read yet. -/
theorem Extends.refers {owner child : ExprId} (refers : before.Refers owner child) :
    after.Refers owner child := by
  cases found : before.node? owner with
  | none =>
      rw [Refers, Arena.children, found] at refers
      cases refers
  | some node =>
      rw [Refers, children_of_node? found, List.mem_flatMap] at refers
      obtain ⟨slot, member, held⟩ := refers
      apply refers_of_mem (extended.node? found) member
      cases slot with
      | child id => exact held
      | list range =>
          cases read : range.read? before.exprLists with
          | none =>
              rw [Slot.entries, read] at held
              cases held
          | some entries =>
              rw [Slot.entries_of_read? read] at held
              rw [Slot.entries_of_read? (extended.read? read)]
              exact held

end Extension

end Arena

end CompilerIR
