import CompilerIR.Proofs.Clone.Addition

/-!
Lists that a clone has read. A list is looked up in the storage as it stands when the walk gets to
it, and the walk has added to the storage by then. Main statement: a list that a clone has read lay
in the storage from the start, or else it reaches into what the clone has added itself, and there it
has found nothing but empty entries and shared nodes.
-/

namespace CompilerIR

open Arena

theorem ListRange.getElem?_of_covers {α : Type} {range : ListRange α} {storage : Array α}
    {entries : List α} (read : range.read? storage = some entries) {position : Nat}
    (covered : range.Covers position) :
    ∃ entry ∈ entries, storage[position]? = some entry := by
  obtain ⟨started, stops⟩ := covered
  unfold ListRange.read? at read
  split at read
  · rename_i nothing
    rw [stop, isEmpty_iff_length.mp nothing] at stops
    omega
  · split at read
    · rename_i inside
      cases read
      have held : storage[position]? = some storage[position] :=
        Array.getElem?_eq_getElem (by omega)
      refine ⟨storage[position], ?_, held⟩
      rw [Array.mem_toList_iff, Array.mem_extract_iff_getElem]
      exact ⟨position - range.start.toNat, by omega, by simp only [Nat.add_sub_cancel' started]⟩
    · cases read

/-! ### What a walk has passed -/

namespace CloneResult

variable {α β : Type}

/-- On the way from `original` to `final`, the work on `piece` was taken up and succeeded. -/
def Passed (original final : Arena) (work : α → Arena → CloneResult β) (piece : α) : Prop :=
  ∃ before value after, original.Extends before ∧ work piece before = (.ok value, after) ∧
    after.Extends final

theorem passed_of_each {work : α → Arena → CloneResult β} {original final before after : Arena}
    {pieces : List α} {values : List β}
    (grows : ∀ piece (before : Arena), before.Extends (work piece before).2)
    (toBefore : original.Extends before) (done : each work pieces before = (.ok values, after))
    (toFinal : after.Extends final) {piece : α} (member : piece ∈ pieces) :
    Passed original final work piece := by
  obtain ⟨value, _present, start, stop, toStart, pieceDone, toAfter⟩ :=
    forall₂_exists_right (each_done grows done) member
  exact ⟨start, value, stop, toBefore.trans toStart, pieceDone, toAfter.trans toFinal⟩

end CloneResult

namespace Arena

open CloneResult (Passed passed_of_each)

section Passing

variable {original final : Arena} {owner : Owner}

/-- The walk goes on to the trees below. -/
abbrev visitBelow (owner : Owner) (child : owner.Child) (arena : Arena) : CloneResult ExprId :=
  arena.copyTree child.1

theorem passed_slot (passed : Passed original final copyTree owner)
    {slot : Slot} (member : slot ∈ owner.node.kind.slots) :
    Passed original final (copySlot owner (visitBelow owner)) slot := by
  obtain ⟨before, copy, after, toBefore, done, toFinal⟩ := passed
  rw [copyTree] at done
  split at done
  · rename_i shareable
    rw [NodeKind.slots_of_isShareable shareable] at member
    cases member
  · obtain ⟨filled, middle, slotsDone, allocated⟩ := CloneResult.andThen_eq_ok done
    cases allocated
    exact passed_of_each (copySlot_extends fun child => copyTree_extends child.1) toBefore slotsDone
      ((middle.alloc_extends _).trans toFinal) member

/-- What a list has been read from when it was passed, and what was stored in turn. -/
theorem passed_list {range : ExprRange}
    (passed : Passed original final (copySlot owner (visitBelow owner)) (.list range)) :
    ∃ before entries, original.Extends before ∧ range.read? before.exprLists = some entries ∧
      before.exprLists.size + range.length ≤ final.exprLists.size ∧ before.Extends final ∧
      ∀ id ∈ entries, Passed original final (copyChild owner (visitBelow owner)) id := by
  obtain ⟨before, copy, after, toBefore, done, toFinal⟩ := passed
  have grows (child : owner.Child) (before : Arena) := copyTree_extends child.1 before
  cases read : range.read? before.exprLists with
  | none =>
      rw [copySlot_list_of_none read] at done
      cases done
  | some entries =>
      rw [copySlot_list read] at done
      obtain ⟨clones, middle, eachDone, stored⟩ := CloneResult.andThen_eq_ok done
      cases stored
      have toMiddle := CloneResult.each_extends (copyChild_extends grows) entries before
      rw [eachDone] at toMiddle
      have fromMiddle := (middle.storeExprs_extends clones).trans toFinal
      refine ⟨before, entries, toBefore, read, ?_, toMiddle.trans fromMiddle, ?_⟩
      · have grown := toMiddle.exprLists_size_le
        have added := toFinal.exprLists_size_le
        rw [entries_storeExprs, each_length eachDone, ListRange.length_eq_of_read? read] at added
        exact Nat.le_trans (Nat.add_le_add_right grown _) added
      · exact fun id present =>
          passed_of_each (copyChild_extends grows) toBefore eachDone fromMiddle present

theorem passed_child {id : ExprId}
    (passed : Passed original final (copyChild owner (visitBelow owner)) id) :
    id = .invalid ∨ id.index < owner.id.index ∧ ∀ node, original.node? id = some node →
      Passed original final copyTree ⟨id, node⟩ := by
  obtain ⟨before, copy, after, toBefore, done, toFinal⟩ := passed
  revert done
  refine copyChild_cases id ?empty ?dangling ?cyclic ?child
  case empty => exact fun nothing _done => Or.inl nothing
  case dangling => exact fun _valid _missing impossible => by cases impossible
  case cyclic => exact fun _node _present _notBefore impossible => by cases impossible
  case child =>
    intro node present precedes done
    refine Or.inr ⟨precedes, ?_⟩
    intro same found
    have unchanged := toBefore.node? found
    rw [present] at unchanged
    cases unchanged
    exact ⟨before, copy, after, toBefore, done, toFinal⟩

theorem passed_of_refers {child : ExprId} (found : original.node? owner.id = some owner.node)
    (passed : Passed original final copyTree owner)
    (refers : original.Refers owner.id child) :
    Passed original final (copyChild owner (visitBelow owner)) child := by
  rw [Refers, children_of_node? found, List.mem_flatMap] at refers
  obtain ⟨slot, member, held⟩ := refers
  have passedSlot := passed_slot passed member
  cases slot with
  | child id =>
      rcases List.mem_singleton.mp held with rfl
      obtain ⟨before, copy, after, toBefore, done, toFinal⟩ := passedSlot
      obtain ⟨clone, middle, childDone, same⟩ := CloneResult.andThen_eq_ok done
      cases same
      exact ⟨before, clone, after, toBefore, childDone, toFinal⟩
  | list range =>
      obtain ⟨before, entries, toBefore, read, _room, _toFinal, entriesPassed⟩ :=
        passed_list passedSlot
      cases readFirst : range.read? original.exprLists with
      | none =>
          rw [Slot.entries, readFirst] at held
          cases held
      | some entriesFirst =>
          have unchanged := toBefore.read? readFirst
          rw [read] at unchanged
          cases unchanged
          rw [Slot.entries_of_read? readFirst] at held
          exact entriesPassed child held

end Passing

/-- A clone that succeeds has cloned whatever its root leads to. -/
theorem passed_of_reached {arena after : Arena} {id copy : ExprId}
    (cloned : arena.clone id = (.ok copy, after)) {owner : ExprId} {node : Node}
    (reached : Relation.ReflTransGen arena.Refers id owner)
    (found : arena.node? owner = some node) :
    Passed arena after copyTree ⟨owner, node⟩ := by
  induction reached generalizing node with
  | refl =>
      rw [clone_of_node? found] at cloned
      exact ⟨arena, copy, after, .refl arena, cloned, .refl after⟩
  | tail _path refers inductionHypothesis =>
      rename_i above child
      cases foundAbove : arena.node? above with
      | none =>
          rw [Refers, children, foundAbove] at refers
          cases refers
      | some nodeAbove =>
          have passedAbove := inductionHypothesis foundAbove
          rcases passed_child (passed_of_refers foundAbove passedAbove refers) with
            empty | ⟨_precedes, passed⟩
          · rw [empty, node?_invalid] at found
            cases found
          · exact passed node found

/-- A list of `owner` that reaches past the storage of `original` has been read all the same. What
it found there was added by the clone that read it, and so was a copy of the list. -/
structure Borrowed (original after : Arena) (owner : ExprId) (range : ExprRange) : Prop where
  notEmpty : range.isEmpty = false
  past : original.exprLists.size < range.stop
  room : range.stop + range.length ≤ after.exprLists.size
  entries : after.Fits → ∀ position, original.exprLists.size ≤ position → range.Covers position →
    ∃ entry, after.exprLists[position]? = some entry ∧
      (entry = .invalid ∨ original.shares entry = true ∧ entry.index < owner.index)

theorem accepted_list_is_inside_or_borrowed {arena after : Arena} {id copy owner : ExprId}
    {node : Node} {range : ExprRange} (cloned : arena.clone id = (.ok copy, after))
    (reached : Relation.ReflTransGen arena.Refers id owner)
    (found : arena.node? owner = some node) (member : .list range ∈ node.kind.slots) :
    (Slot.list range).Inside arena.exprLists ∨ arena.Borrowed after owner range := by
  obtain ⟨before, entries, toBefore, read, room, toAfter, entriesPassed⟩ :=
    passed_list (passed_slot (passed_of_reached cloned reached found) member)
  by_cases inside : (Slot.list range).Inside arena.exprLists
  · exact Or.inl inside
  · obtain ⟨notEmpty, outside⟩ := not_or.mp inside
    have stops := (ListRange.inside_of_read? read).resolve_left notEmpty
    refine Or.inr ⟨Bool.eq_false_iff.mpr notEmpty, Nat.lt_of_not_le outside, by omega, ?_⟩
    intro fits position added covered
    obtain ⟨entry, present, held⟩ := ListRange.getElem?_of_covers (toAfter.read? read) covered
    refine ⟨entry, held, ?_⟩
    rcases passed_child (entriesPassed entry present) with empty | ⟨precedes, _passed⟩
    · exact Or.inl empty
    · -- The entry is older than the clone, so it cannot be one of the nodes that this has added.
      obtain ⟨old, foundOld⟩ := node?_of_index_lt found precedes
      have settled : arena.AddsSettled after := by
        have adds : (arena.clone id).2.Fits → arena.AddsSettled (arena.clone id).2 :=
          clone_addsSettled
        rw [cloned] at adds
        exact adds fits
      rcases settled.entries position entry added held with empty | ⟨_bound, shared | new⟩
      · exact Or.inl empty
      · rw [shares_of_node? (settled.extended.node? foundOld), ← shares_of_node? foundOld] at shared
        exact Or.inr ⟨shared, precedes⟩
      · exact absurd (index_lt_size foundOld) (Nat.not_lt.mpr new)

/-- The arguments of the last node start where the lists end. Its receiver has a list, and the clone
of that list comes to lie there. -/
def overreaching : Arena where
  nodes := #[⟨.int 7, ⟨0, 1⟩, .int⟩, ⟨.multi ⟨0, 1⟩, ⟨0, 2⟩, .int⟩,
    ⟨.methodCall ⟨1⟩ ⟨0⟩ ⟨1, 1⟩ true, ⟨0, 5⟩, .int⟩]
  exprLists := #[⟨0⟩]
  typeLists := #[]

theorem overreaching_clone : overreaching.clone ⟨2⟩ = (.ok ⟨4⟩,
    ⟨overreaching.nodes ++ #[⟨.multi ⟨1, 1⟩, ⟨0, 2⟩, .int⟩,
      ⟨.methodCall ⟨3⟩ ⟨0⟩ ⟨2, 1⟩ true, ⟨0, 5⟩, .int⟩], #[⟨0⟩, ⟨0⟩, ⟨0⟩], #[]⟩) := by
  decide +kernel

theorem overreaching_arguments_are_borrowed :
    overreaching.clone ⟨2⟩ = (.ok ⟨4⟩, (overreaching.clone ⟨2⟩).2) ∧
    overreaching.node? ⟨2⟩ = some ⟨.methodCall ⟨1⟩ ⟨0⟩ ⟨1, 1⟩ true, ⟨0, 5⟩, .int⟩ ∧
    overreaching.Borrowed (overreaching.clone ⟨2⟩).2 ⟨2⟩ ⟨1, 1⟩ := by
  have cloned : overreaching.clone ⟨2⟩ = (.ok ⟨4⟩, (overreaching.clone ⟨2⟩).2) := by
    rw [overreaching_clone]
  have found : overreaching.node? ⟨2⟩ =
      some ⟨.methodCall ⟨1⟩ ⟨0⟩ ⟨1, 1⟩ true, ⟨0, 5⟩, .int⟩ := by decide
  have outside : ¬(Slot.list ⟨1, 1⟩).Inside overreaching.exprLists := by decide
  exact ⟨cloned, found,
    (accepted_list_is_inside_or_borrowed cloned .refl found (by decide)).resolve_left outside⟩

/-- So it is not enough that a clone succeeds. -/
theorem lists_outside_are_accepted :
    ¬∀ (arena after : Arena) (id copy : ExprId), arena.contains id = true →
      arena.clone id = (.ok copy, after) →
      ∀ owner node, Relation.ReflTransGen arena.Refers id owner → arena.node? owner = some node →
        ∀ range, .list range ∈ node.kind.slots → (Slot.list range).Inside arena.exprLists := by
  intro allInside
  have inside := allInside overreaching _ ⟨2⟩ ⟨4⟩ (by decide) overreaching_clone ⟨2⟩ _ .refl
    (show overreaching.node? ⟨2⟩ = some ⟨.methodCall ⟨1⟩ ⟨0⟩ ⟨1, 1⟩ true, ⟨0, 5⟩, .int⟩ by decide)
    ⟨1, 1⟩ (by decide)
  exact absurd inside (by decide)

end Arena

end CompilerIR
