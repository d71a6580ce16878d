import CompilerIR.Clone.Agreement
import CompilerIR.Proofs.Arena.Reference

/-!
What cloning does at one slot, by what the slot holds.
-/

namespace CompilerIR

def CloneDefect.badChild? : CloneDefect → Option (ExprId × ExprId)
  | .danglingChild site child | .cyclicChild site child => some (site.owner, child)
  | .foreignRoot _ | .danglingList _ _ => none

theorem CloneDefect.eq_of_badChild? (defect : CloneDefect) {owner child : ExprId}
    (named : defect.badChild? = some (owner, child)) :
    ∃ site, site.owner = owner ∧
      (defect = .danglingChild site child ∨ defect = .cyclicChild site child) := by
  cases defect with
  | foreignRoot | danglingList => cases named
  | danglingChild site held => cases named; exact ⟨site, rfl, Or.inl rfl⟩
  | cyclicChild site held => cases named; exact ⟨site, rfl, Or.inr rfl⟩

namespace Arena

section Slots

variable {owner : Owner} {visit : owner.Child → Arena → CloneResult ExprId} {arena : Arena}

theorem copyChild_invalid :
    copyChild owner visit .invalid arena = (.ok .invalid, arena) := rfl

theorem copyChild_of_precedes {id : ExprId} {node : Node} (found : arena.node? id = some node)
    (precedes : id.index < owner.id.index) :
    copyChild owner visit id arena = visit ⟨⟨id, node⟩, precedes⟩ arena := by
  obtain ⟨valid, present⟩ := node?_eq_some_iff.mp found
  simp only [copyChild, child?, valid, if_true, present, precedes, dif_pos]

theorem copyChild_of_get?_none {id : ExprId} (valid : id.isValid = true)
    (missing : arena.get? id = none) :
    copyChild owner visit id arena = (.error (.danglingChild owner.site id), arena) := by
  simp only [copyChild, child?, valid, if_true, missing]

theorem copyChild_of_get?_some {id : ExprId} {node : Node} (valid : id.isValid = true)
    (present : arena.get? id = some node) (notBefore : ¬id.index < owner.id.index) :
    copyChild owner visit id arena = (.error (.cyclicChild owner.site id), arena) := by
  simp only [copyChild, child?, valid, if_true, present, notBefore, dif_neg, not_false_eq_true]

/-- Which of the two defects it is depends on how far the arena reaches by then. -/
theorem copyChild_of_not_precedes {id : ExprId} (valid : id.isValid = true)
    (notBefore : ¬id.index < owner.id.index) :
    ∃ defect, copyChild owner visit id arena = (.error defect, arena) ∧
      defect.badChild? = some (owner.id, id) := by
  cases present : arena.get? id with
  | none => exact ⟨_, copyChild_of_get?_none valid present, rfl⟩
  | some node => exact ⟨_, copyChild_of_get?_some valid present notBefore, rfl⟩

/-- What is shown of every outcome holds whatever a child slot holds. -/
@[elab_as_elim]
theorem copyChild_cases {Holds : CloneResult ExprId → Prop} (id : ExprId)
    (empty : id = .invalid → Holds (.ok .invalid, arena))
    (dangling : id.isValid = true → arena.contains id = false →
      Holds (.error (.danglingChild owner.site id), arena))
    (cyclic : ∀ node, arena.node? id = some node → owner.id.index ≤ id.index →
      Holds (.error (.cyclicChild owner.site id), arena))
    (child : ∀ node, arena.node? id = some node → ∀ precedes,
      Holds (visit ⟨⟨id, node⟩, precedes⟩ arena)) :
    Holds (copyChild owner visit id arena) := by
  by_cases valid : id.isValid = true
  · cases present : arena.get? id with
    | none =>
        rw [copyChild_of_get?_none valid present]
        exact dangling valid (contains_eq_false_of_get?_none present)
    | some node =>
        have found := node?_eq_some_iff.mpr ⟨valid, present⟩
        by_cases precedes : id.index < owner.id.index
        · rw [copyChild_of_precedes found precedes]
          exact child node found precedes
        · rw [copyChild_of_get?_some valid present precedes]
          exact cyclic node found (Nat.le_of_not_lt precedes)
  · have nothing := ExprId.eq_invalid_of_not_isValid valid
    rw [nothing]
    exact empty nothing

theorem copySlot_list_of_none {range : ExprRange} (unread : range.read? arena.exprLists = none) :
    copySlot owner visit (.list range) arena =
      (.error (.danglingList owner.site range), arena) := by
  rw [copySlot, children?]
  split
  · rename_i refused
    split at refused
    · cases refused
      rfl
    · cases refused
  · rename_i accepted
    split at accepted
    · cases accepted
    · rename_i held
      rw [unread] at held
      cases held

theorem copySlot_list {range : ExprRange} {entries : List ExprId}
    (read : range.read? arena.exprLists = some entries) :
    copySlot owner visit (.list range) arena =
      (CloneResult.each (copyChild owner visit) entries arena).andThen fun clones after =>
        (.ok (.list (after.storeExprs clones).1), (after.storeExprs clones).2) := by
  rw [copySlot, children?]
  split
  · rename_i refused
    split at refused
    · rename_i missing
      rw [read] at missing
      cases missing
    · cases refused
  · rename_i accepted
    split at accepted
    · cases accepted
    · rename_i held
      rw [read] at held
      cases held
      cases accepted
      rfl

end Slots

theorem clone_invalid (arena : Arena) : arena.clone .invalid = (.ok .invalid, arena) := rfl

theorem clone_of_node? {arena : Arena} {id : ExprId} {node : Node}
    (found : arena.node? id = some node) : arena.clone id = arena.copyTree ⟨id, node⟩ := by
  obtain ⟨valid, present⟩ := node?_eq_some_iff.mp found
  rw [clone_eq_copyTree, if_pos valid, present]

end Arena

end CompilerIR
