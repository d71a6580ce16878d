import CompilerIR.Clone.Recursion
import CompilerIR.Clone.Task

/-!
The list of tasks and the recursion over the tree do the same work. Main statement:
working off the tasks of a node and going on is cloning the node and going on.
-/

namespace CompilerIR.Arena

open CloneTask

private theorem slotChildren_map (ids : List ExprId) :
    Slot.children (ids.map Slot.child) = ids := by
  induction ids with
  | nil => rfl
  | cons id rest inductionHypothesis =>
      simp only [Slot.children, List.map_cons, List.filterMap_cons] at *
      rw [inductionHypothesis]

private theorem splitAt_reverse_append {α : Type} (front back : List α) (count : Nat)
    (counted : front.length = count) :
    (front.reverse ++ back).splitAt count = (front.reverse, back) := by
  subst counted
  rw [List.splitAt_eq]
  simp

theorem each_length {α β : Type} {work : α → Arena → CloneResult β} {entries : List α}
    {arena after : Arena} {values : List β}
    (done : CloneResult.each work entries arena = (.ok values, after)) :
    values.length = entries.length := by
  induction entries generalizing arena values after with
  | nil =>
      cases done
      rfl
  | cons entry rest inductionHypothesis =>
      simp only [CloneResult.each] at done
      generalize work entry arena = result at done
      obtain ⟨outcome, first⟩ := result
      cases outcome with
      | error => cases done
      | ok value =>
          rw [CloneResult.andThen_ok] at done
          generalize restDone : CloneResult.each work rest first = result at done
          obtain ⟨outcome, last⟩ := result
          cases outcome with
          | error => cases done
          | ok others =>
              cases done
              simp [inductionHypothesis restDone]

theorem child?_id {arena : Arena} {owner : Owner} {id : ExprId} {child : owner.Child}
    (found : arena.child? owner id = .ok (some child)) : child.1.id = id := by
  unfold child? at found
  split at found
  · split at found
    · contradiction
    · split at found
      · cases found
        rfl
      · contradiction
  · cases found

/-- The tasks of a node do what `copyTree` does, whatever is to be done after them. -/
def TasksClone (owner : Owner) : Prop :=
  owner.node.kind.isShareable = false →
    ∀ (arena : Arena) (results : List Slot) (rest : List CloneTask),
      arena.runTasks results (ofNode owner ++ rest) =
        (arena.copyTree owner).andThen fun id arena =>
          arena.runTasks (.child id :: results) rest

variable {owner : Owner}
  (clonesChildren : ∀ child : owner.Child, TasksClone child.1)

include clonesChildren

private theorem runTasks_child (id : ExprId) (arena : Arena) (results : List Slot)
    (rest : List CloneTask) :
    arena.runTasks results (slot owner (.child id) :: rest) =
      (arena.copyChild owner (fun child => copyTree child.1) id).andThen fun clone arena =>
        arena.runTasks (.child clone :: results) rest := by
  rw [runTasks, copyChild]
  generalize found : arena.child? owner id = outcome
  cases outcome with
  | error => rfl
  | ok next =>
      cases next with
      | none => rfl
      | some child =>
          dsimp only
          split
          · rename_i shareable
            rw [copyTree, if_pos shareable, CloneResult.andThen_ok, child?_id found]
          · rename_i copied
            exact clonesChildren child (by simpa using copied) arena results rest

private theorem runTasks_children (ids : List ExprId) (arena : Arena) (results : List Slot)
    (rest : List CloneTask) :
    arena.runTasks results (ids.map (fun id => slot owner (.child id)) ++ rest) =
      (CloneResult.each (copyChild owner fun child => copyTree child.1) ids arena).andThen
        fun clones arena => arena.runTasks ((clones.map Slot.child).reverse ++ results) rest := by
  induction ids generalizing arena results with
  | nil => rfl
  | cons id ids inductionHypothesis =>
      simp only [List.map_cons, List.cons_append, CloneResult.each]
      rw [runTasks_child clonesChildren]
      simp only [inductionHypothesis, CloneResult.andThen_assoc, CloneResult.andThen_ok,
        List.map_cons, List.reverse_cons, List.append_assoc, List.cons_append, List.nil_append]

private theorem runTasks_slot (filled : Slot) (arena : Arena) (results : List Slot)
    (rest : List CloneTask) :
    arena.runTasks results (slot owner filled :: rest) =
      (copySlot owner (fun child => copyTree child.1) filled arena).andThen fun clone arena =>
        arena.runTasks (clone :: results) rest := by
  cases filled with
  | child id =>
      rw [runTasks_child clonesChildren, copySlot, CloneResult.andThen_assoc]
      rfl
  | list range =>
      rw [runTasks, copySlot]
      cases arena.children? owner range with
      | error => rfl
      | ok held =>
          obtain ⟨children, bound⟩ := held
          simp only [ofChildren, List.append_assoc, List.cons_append, List.nil_append]
          rw [runTasks_children clonesChildren, CloneResult.andThen_assoc]
          generalize done :
            CloneResult.each (copyChild owner fun child => copyTree child.1) children arena =
              result
          obtain ⟨outcome, after⟩ := result
          cases outcome with
          | error => rfl
          | ok clones =>
              rw [CloneResult.andThen_ok, CloneResult.andThen_ok, runTasks,
                splitAt_reverse_append _ _ _ (by simp [each_length done])]
              simp only [List.reverse_reverse, slotChildren_map]
              rfl

private theorem runTasks_slots (slots : List Slot) (arena : Arena) (results : List Slot)
    (rest : List CloneTask) :
    arena.runTasks results (slots.map (slot owner) ++ rest) =
      (CloneResult.each (copySlot owner fun child => copyTree child.1) slots arena).andThen
        fun filled arena => arena.runTasks (filled.reverse ++ results) rest := by
  induction slots generalizing arena results with
  | nil => rfl
  | cons first slots inductionHypothesis =>
      simp only [List.map_cons, List.cons_append, CloneResult.each]
      rw [runTasks_slot clonesChildren]
      simp only [inductionHypothesis, CloneResult.andThen_assoc, CloneResult.andThen_ok,
        List.reverse_cons, List.append_assoc, List.cons_append, List.nil_append]

omit clonesChildren

theorem tasksClone (owner : Owner) : TasksClone owner := by
  intro copied arena results rest
  have clonesChildren (child : owner.Child) : TasksClone child.1 := tasksClone child.1
  rw [ofNode, List.append_assoc, runTasks_slots clonesChildren, copyTree]
  simp only [copied, Bool.false_eq_true, if_false, CloneResult.andThen_assoc]
  generalize done :
    CloneResult.each (copySlot owner fun child => copyTree child.1) owner.node.kind.slots arena =
      result
  obtain ⟨outcome, after⟩ := result
  cases outcome with
  | error => rfl
  | ok filled =>
      simp only [CloneResult.andThen_ok, List.cons_append, List.nil_append]
      rw [runTasks, splitAt_reverse_append _ _ _ (each_length done)]
      simp only [List.reverse_reverse]
termination_by owner.id.index
decreasing_by exact child.2

/-- What runs on tasks is the recursion over the tree. -/
theorem clone_eq_copyTree (arena : Arena) (id : ExprId) :
    arena.clone id =
      if id.isValid then
        match arena.get? id with
        | none => (.error (.foreignRoot id), arena)
        | some node => arena.copyTree ⟨id, node⟩
      else (.ok .invalid, arena) := by
  unfold clone
  split
  · cases arena.get? id with
    | none => rfl
    | some node =>
        dsimp only
        split
        · rename_i shareable
          rw [copyTree, if_pos shareable]
        · rename_i copied
          have walk := tasksClone ⟨id, node⟩ (by simpa using copied) arena [] []
          rw [List.append_nil] at walk
          rw [walk, CloneResult.andThen_assoc]
          generalize arena.copyTree ⟨id, node⟩ = result
          obtain ⟨outcome, after⟩ := result
          cases outcome with
          | error => rfl
          | ok clone =>
              rw [CloneResult.andThen_ok, runTasks]
              rfl
  · rfl

end CompilerIR.Arena
