import CompilerIR.Proofs.Clone.Invariant
import CompilerIR.Proofs.Clone.Step

/-!
What the steps of a walk show of a request. Main statements: what every piece that a walk makes
keeps of the arena is kept by the request, wherever a defect ends it; and what can be said, step by
step, of the pieces of a well-formed tree, their clones and the arenas before and after can be said
of the tree and its clone.
-/

namespace CompilerIR

open Arena

namespace Arena

theorem copySlot_alike {owner : Owner} {visit : owner.Child → Arena → CloneResult ExprId}
    {slot copy : Slot} {before after : Arena}
    (done : copySlot owner visit slot before = (.ok copy, after)) : slot.Alike copy := by
  cases slot with
  | child id =>
      obtain ⟨clone, middle, _childDone, same⟩ := CloneResult.andThen_eq_ok done
      cases same
      exact .child id clone
  | list range =>
      cases read : range.read? before.exprLists with
      | none =>
          rw [copySlot_list_of_none read] at done
          cases done
      | some entries =>
          rw [copySlot_list read] at done
          obtain ⟨clones, middle, _eachDone, same⟩ := CloneResult.andThen_eq_ok done
          cases same
          exact .list range _

/-- The copy of a node has in its slots what has been made for them. -/
theorem slots_copyWith {owner : Owner} {visit : owner.Child → Arena → CloneResult ExprId}
    (grows : ∀ child (before : Arena), before.Extends (visit child before).2) {filled : List Slot}
    {before after : Arena}
    (done : CloneResult.each (copySlot owner visit) owner.node.kind.slots before =
      (.ok filled, after)) : (owner.node.copyWith filled).kind.slots = filled := by
  apply NodeKind.slots_withSlots
  apply (CloneResult.each_done (copySlot_extends grows) done).imp
  rintro slot copy ⟨_middle, _later, _toMiddle, slotDone, _toAfter⟩
  exact copySlot_alike slotDone

/-! ### Whatever the outcome -/

/-- `Kept` holds of the arena throughout. Of what has been made by then, `Made` holds of every clone
and `Filled` of every slot. -/
structure KeptThroughout (Kept : Arena → Prop) (Made : Arena → ExprId → Prop)
    (Filled : Arena → Slot → Prop) : Prop where
  madeLater : ∀ {before after : Arena}, before.Extends after → ∀ {id : ExprId},
    Made before id → Made after id
  filledLater : ∀ {before after : Arena}, before.Extends after → ∀ {slot : Slot},
    Filled before slot → Filled after slot
  empty : ∀ {arena : Arena}, Kept arena → Made arena .invalid
  shared : ∀ {arena : Arena} {id : ExprId} {node : Node}, arena.node? id = some node →
    node.kind.isShareable = true → Kept arena → Made arena id
  child : ∀ {arena : Arena} {id : ExprId}, Made arena id → Filled arena (.child id)
  list : ∀ {arena : Arena} {ids : List ExprId}, ids.length ≤ ListRange.maxLength →
    Kept arena → (∀ id ∈ ids, Made arena id) →
    Kept (arena.storeExprs ids).2 ∧ Filled (arena.storeExprs ids).2 (.list (arena.storeExprs ids).1)
  node : ∀ {arena : Arena} {node : Node}, Kept arena →
    (∀ slot ∈ node.kind.slots, Filled arena slot) →
    Kept (arena.alloc node).2 ∧ Made (arena.alloc node).2 (arena.alloc node).1

namespace KeptThroughout

open CloneResult (Keeps keeps_ok keeps_error each_keeps)

variable {Kept : Arena → Prop} {Made : Arena → ExprId → Prop} {Filled : Arena → Slot → Prop}
  (throughout : KeptThroughout Kept Made Filled)

include throughout

section Slots

variable {owner : Owner} {visit : owner.Child → Arena → CloneResult ExprId}
  (grows : ∀ child (before : Arena), before.Extends (visit child before).2)
  (step : ∀ child (before : Arena), before.node? child.1.id = some child.1.node → Kept before →
    Keeps Kept Made (visit child before))

include step

theorem copyChild (id : ExprId) {before : Arena} (kept : Kept before) :
    Keeps Kept Made (Arena.copyChild owner visit id before) := by
  refine copyChild_cases id ?empty ?dangling ?cyclic ?child
  case empty => exact fun _nothing => keeps_ok kept (throughout.empty kept)
  case dangling => exact fun _valid _missing => keeps_error kept
  case cyclic => exact fun _node _present _notBefore => keeps_error kept
  case child =>
    intro node found precedes
    exact step ⟨⟨id, node⟩, precedes⟩ before found kept

include grows

theorem copySlot (slot : Slot) {before : Arena} (kept : Kept before) :
    Keeps Kept Filled (Arena.copySlot owner visit slot before) := by
  cases slot with
  | child id =>
      apply (throughout.copyChild step id kept).andThen
      intro clone after _done keptAfter made
      exact keeps_ok keptAfter (throughout.child made)
  | list range =>
      cases read : range.read? before.exprLists with
      | none =>
          rw [copySlot_list_of_none read]
          exact keeps_error kept
      | some entries =>
          rw [copySlot_list read]
          apply (each_keeps throughout.madeLater (copyChild_extends grows)
            (fun id _present before kept => throughout.copyChild step id kept) kept).andThen
          intro clones after done keptAfter made
          have short : clones.length ≤ ListRange.maxLength :=
            each_length done ▸ ListRange.length_le_of_read? read
          obtain ⟨keptStored, filled⟩ := throughout.list short keptAfter made
          exact keeps_ok keptStored filled

end Slots

theorem copyTree (owner : Owner) (before : Arena)
    (found : before.node? owner.id = some owner.node) (kept : Kept before) :
    Keeps Kept Made (before.copyTree owner) := by
  have below (child : owner.Child) (before : Arena)
      (found : before.node? child.1.id = some child.1.node) (kept : Kept before) :
      Keeps Kept Made (before.copyTree child.1) :=
    copyTree child.1 before found kept
  have grows (child : owner.Child) (before : Arena) := copyTree_extends child.1 before
  rw [Arena.copyTree]
  split
  · rename_i shareable
    exact keeps_ok kept (throughout.shared found shareable kept)
  · apply (each_keeps throughout.filledLater (copySlot_extends grows)
      (fun slot _member before kept => throughout.copySlot grows below slot kept) kept).andThen
    intro filled after done keptAfter stand
    -- The new node has no slots but those that have been filled for it.
    rw [← slots_copyWith grows done] at stand
    obtain ⟨keptAlloc, made⟩ := throughout.node keptAfter stand
    exact keeps_ok keptAlloc made
termination_by owner.id.index
decreasing_by exact child.2

theorem clone {before : Arena} (kept : Kept before) (id : ExprId) :
    Keeps Kept Made (before.clone id) := by
  rw [clone_eq_copyTree]
  split
  · rename_i valid
    split
    · exact keeps_error kept
    · rename_i node present
      exact throughout.copyTree ⟨id, node⟩ before (node?_eq_some_iff.mpr ⟨valid, present⟩) kept
  · exact keeps_ok kept (throughout.empty kept)

theorem cloneAll {before : Arena} (kept : Kept before) (ids : Option (List ExprId)) :
    Keeps Kept (fun after copies => ∀ present ∈ copies, ∀ id ∈ present, Made after id)
      (before.cloneAll ids) := by
  cases ids with
  | none => exact keeps_ok kept (fun present impossible => by cases impossible)
  | some ids =>
      apply (each_keeps throughout.madeLater (fun id (before : Arena) => before.clone_extends id)
        (fun id _present before kept => throughout.clone kept id) kept).andThen
      intro clones after _done keptAfter made
      apply keeps_ok keptAfter
      intro present same
      cases same
      exact made

end KeptThroughout

end Arena

/-! ### Well-formed trees -/

/-- What is said of pieces that have been cloned in their order is put together from what is said of
them one by one. -/
structure Sequential {α : Type} (Holds : Arena → Arena → List α → List α → Prop) : Prop where
  nil : ∀ arena, Holds arena arena [] []
  cons : ∀ {before middle after : Arena} {piece copy : α} {pieces copies : List α},
    Holds before middle [piece] [copy] → middle.Extends after →
    Holds middle after pieces copies → Holds before after (piece :: pieces) (copy :: copies)

theorem CloneResult.each_holds {α : Type} {Holds : Arena → Arena → List α → List α → Prop}
    (sequential : Sequential Holds) {original : Arena} {work : α → Arena → CloneResult α}
    {pieces : List α} (grows : ∀ piece (before : Arena), before.Extends (work piece before).2)
    (step : ∀ piece ∈ pieces, ∀ {before after : Arena} {copy : α}, original.Extends before →
      work piece before = (.ok copy, after) → Holds before after [piece] [copy])
    {before after : Arena} {copies : List α} (extended : original.Extends before)
    (done : each work pieces before = (.ok copies, after)) : Holds before after pieces copies := by
  revert extended
  refine each_induction grows ?nil ?cons done
  case nil => exact fun arena _extended => sequential.nil arena
  case cons =>
    intro piece member copy rest others before middle after pieceDone toMiddle toAfter later
      extended
    exact sequential.cons (step piece member extended pieceDone) toAfter
      (later (extended.trans toMiddle))

namespace Arena

/-- What is said of trees and of slots, step by step. The walk writes into the arena that it reads,
so it is said of every arena that extends the original. -/
structure WalkInvariant (original : Arena)
    (Trees : Arena → Arena → List ExprId → List ExprId → Prop)
    (Slots : Arena → Arena → List Slot → List Slot → Prop) : Prop where
  trees : Sequential Trees
  slots : Sequential Slots
  empty : ∀ arena, Trees arena arena [.invalid] [.invalid]
  shared : ∀ {arena : Arena} {id : ExprId} {node : Node}, original.node? id = some node →
    node.kind.isShareable = true → original.WellFormedAt id → original.Extends arena →
    Trees arena arena [id] [id]
  child : ∀ {before after : Arena} {id copy : ExprId}, Trees before after [id] [copy] →
    Slots before after [.child id] [.child copy]
  /-- The list of a slot is stored when all its entries have been cloned. -/
  list : ∀ {before middle : Arena} {range : ExprRange} {entries clones : List ExprId},
    range.read? original.exprLists = some entries → clones.length = entries.length →
    Trees before middle entries clones →
    Slots before (middle.storeExprs clones).2 [.list range] [.list (middle.storeExprs clones).1]
  /-- A node is allocated when all its slots have been cloned. -/
  node : ∀ {before middle : Arena} {id : ExprId} {node : Node} {filled : List Slot},
    original.node? id = some node → original.ChildrenPrecede id → node.kind.isShareable = false →
    original.Extends middle → Slots before middle node.kind.slots filled →
    Trees before (middle.alloc (node.copyWith filled)).2 [id]
      [(middle.alloc (node.copyWith filled)).1]

namespace WalkInvariant

variable {original : Arena} {Trees : Arena → Arena → List ExprId → List ExprId → Prop}
  {Slots : Arena → Arena → List Slot → List Slot → Prop}
  (invariant : original.WalkInvariant Trees Slots)

include invariant

section Slots

variable {owner : Owner} {visit : owner.Child → Arena → CloneResult ExprId}
  (found : original.node? owner.id = some owner.node)
  (wellFormed : original.WellFormedAt owner.id)
  (grows : ∀ child (before : Arena), before.Extends (visit child before).2)
  (step : ∀ child : owner.Child, original.node? child.1.id = some child.1.node →
    original.WellFormedAt child.1.id → ∀ {before after : Arena} {copy : ExprId},
      original.Extends before → visit child before = (.ok copy, after) →
      Trees before after [child.1.id] [copy])

include found wellFormed step

theorem copyChild {id copy : ExprId} (refers : original.Refers owner.id id)
    {before after : Arena} (extended : original.Extends before)
    (done : Arena.copyChild owner visit id before = (.ok copy, after)) :
    Trees before after [id] [copy] := by
  rcases wellFormed.childrenPrecede id refers with empty | precedes
  · subst empty
    rw [copyChild_invalid] at done
    cases done
    exact invariant.empty before
  · obtain ⟨node, present⟩ := node?_of_index_lt found precedes
    rw [copyChild_of_precedes (extended.node? present) precedes] at done
    exact step ⟨⟨id, node⟩, precedes⟩ present (wellFormed.child refers) extended done

include grows

theorem copySlot {slot copy : Slot} (member : slot ∈ owner.node.kind.slots)
    {before after : Arena} (extended : original.Extends before)
    (done : Arena.copySlot owner visit slot before = (.ok copy, after)) :
    Slots before after [slot] [copy] := by
  cases slot with
  | child id =>
      obtain ⟨clone, middle, childDone, same⟩ := CloneResult.andThen_eq_ok done
      cases same
      apply invariant.child
      exact invariant.copyChild found wellFormed step
        (refers_of_mem found member List.mem_cons_self) extended childDone
  | list range =>
      obtain ⟨entries, read⟩ := wellFormed.listsInside.read? found member
      have held := Slot.entries_of_read? read
      rw [copySlot_list (extended.read? read)] at done
      obtain ⟨clones, middle, eachDone, same⟩ := CloneResult.andThen_eq_ok done
      cases same
      apply invariant.list read (each_length eachDone)
      apply CloneResult.each_holds invariant.trees (copyChild_extends grows) _ extended eachDone
      intro id present before after copy extended done
      exact invariant.copyChild found wellFormed step
        (refers_of_mem found member (held ▸ present)) extended done

end Slots

theorem copyTree (owner : Owner) (found : original.node? owner.id = some owner.node)
    (wellFormed : original.WellFormedAt owner.id) {before after : Arena} {copy : ExprId}
    (extended : original.Extends before)
    (done : before.copyTree owner = (.ok copy, after)) :
    Trees before after [owner.id] [copy] := by
  -- By then the arena has grown, so the induction is about every extension of the original.
  have below (child : owner.Child) (present : original.node? child.1.id = some child.1.node)
      (wellFormed : original.WellFormedAt child.1.id) {before after : Arena} {copy : ExprId}
      (extended : original.Extends before)
      (done : before.copyTree child.1 = (.ok copy, after)) :
      Trees before after [child.1.id] [copy] :=
    copyTree child.1 present wellFormed extended done
  have grows (child : owner.Child) (before : Arena) := copyTree_extends child.1 before
  rw [Arena.copyTree] at done
  by_cases shareable : owner.node.kind.isShareable = true
  · rw [if_pos shareable] at done
    cases done
    exact invariant.shared found shareable wellFormed extended
  · rw [if_neg shareable] at done
    obtain ⟨filled, middle, slotsDone, allocated⟩ := CloneResult.andThen_eq_ok done
    cases allocated
    have toMiddle := CloneResult.each_extends (copySlot_extends grows) owner.node.kind.slots before
    rw [slotsDone] at toMiddle
    apply invariant.node found wellFormed.childrenPrecede (Bool.eq_false_iff.mpr shareable)
      (extended.trans toMiddle)
    apply CloneResult.each_holds invariant.slots (copySlot_extends grows) _ extended slotsDone
    intro slot member before after copy extended done
    exact invariant.copySlot found wellFormed grows below member extended done
termination_by owner.id.index
decreasing_by exact child.2

theorem clone {id copy : ExprId} (wellFormed : original.WellFormedAt id)
    (admitted : original.Admits id) {before after : Arena} (extended : original.Extends before)
    (done : before.clone id = (.ok copy, after)) : Trees before after [id] [copy] := by
  rcases admitted.cases with empty | ⟨node, found⟩
  · subst empty
    rw [clone_invalid] at done
    cases done
    exact invariant.empty before
  · rw [clone_of_node? (extended.node? found)] at done
    exact invariant.copyTree ⟨id, node⟩ found wellFormed extended done

end WalkInvariant

end Arena

end CompilerIR
