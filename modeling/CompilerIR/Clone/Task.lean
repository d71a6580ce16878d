import CompilerIR.Clone.Result
import CompilerIR.Clone.Rule

/-!
Cloning of whole trees. The walk goes depth first, left to right in slot order, and keeps
what is still to be done in a list of tasks, so that the depth of a tree costs no stack.
-/

namespace CompilerIR

inductive CloneTask
  /-- Clone what is in a slot of `owner`. -/
  | slot (owner : Owner) (slot : Slot)
  /-- Store the last `count` results as one list. -/
  | gather (count : Nat)
  /-- Copy a node, whose cloned slots are the last `count` results. -/
  | build (node : Node) (count : Nat)

namespace CloneTask

def ofNode (owner : Owner) : List CloneTask :=
  owner.node.kind.slots.map (slot owner) ++ [build owner.node owner.node.kind.slots.length]

def ofChildren (owner : Owner) (children : List ExprId) : List CloneTask :=
  children.map (fun child => slot owner (.child child)) ++ [gather children.length]

/-! ### Termination

A child comes before its owner, so everything a slot leads to belongs to an earlier owner. -/

/-- What a child of the node at `index` costs at most. A node has up to three slots, each
with a list of up to 65535 children, which are cheaper by this base. -/
def childCost (index : Nat) : Nat := Nat.pow 200000 index

def cost : CloneTask → Nat
  | .slot owner (.child _) => childCost owner.id.index
  | .slot owner (.list _) => 65535 * childCost owner.id.index + 2
  | .gather _ => 1
  | .build _ _ => 1

def totalCost : List CloneTask → Nat
  | [] => 0
  | task :: tasks => cost task + totalCost tasks

theorem childCost_pos (index : Nat) : 0 < childCost index := Nat.pow_pos (by decide)

theorem childCost_succ_le {child owner : Nat} (precedes : child < owner) :
    200000 * childCost child ≤ childCost owner := by
  have raised : childCost (child + 1) ≤ childCost owner :=
    Nat.pow_le_pow_right (by decide) precedes
  rw [Nat.mul_comm]
  exact raised

theorem totalCost_append (first second : List CloneTask) :
    totalCost (first ++ second) = totalCost first + totalCost second := by
  induction first with
  | nil => simp only [List.nil_append, totalCost, Nat.zero_add]
  | cons task rest inductionHypothesis =>
      simp only [List.cons_append, totalCost, inductionHypothesis, Nat.add_assoc]

theorem totalCost_slots_le (owner : Owner) (slots : List Slot) :
    totalCost (slots.map (slot owner)) ≤
      slots.length * (65535 * childCost owner.id.index + 2) := by
  induction slots with
  | nil => simp only [List.map_nil, totalCost, Nat.zero_le]
  | cons first rest inductionHypothesis =>
      have firstCost : cost (slot owner first) ≤ 65535 * childCost owner.id.index + 2 := by
        cases first <;> simp only [cost] <;> omega
      simp only [List.map_cons, totalCost, List.length_cons, Nat.add_mul, Nat.one_mul] at *
      omega

theorem totalCost_ofNode_lt {child owner : Owner} (precedes : child.id.index < owner.id.index) :
    totalCost (ofNode child) < childCost owner.id.index := by
  have slotsCost := totalCost_slots_le child child.node.kind.slots
  have slotCount :
      child.node.kind.slots.length * (65535 * childCost child.id.index + 2) ≤
        3 * (65535 * childCost child.id.index + 2) :=
    Nat.mul_le_mul_right _ child.node.kind.slots_length_le
  have raised := childCost_succ_le precedes
  have positive := childCost_pos child.id.index
  rw [ofNode, totalCost_append]
  simp only [totalCost, cost]
  omega

theorem totalCost_ofChildren (owner : Owner) (children : List ExprId) :
    totalCost (ofChildren owner children) = children.length * childCost owner.id.index + 1 := by
  rw [ofChildren, totalCost_append]
  induction children with
  | nil => simp only [List.map_nil, List.length_nil, totalCost, cost, Nat.zero_mul]
  | cons first rest inductionHypothesis =>
      simp only [List.map_cons, totalCost, List.length_cons, cost, Nat.add_mul, Nat.one_mul] at *
      omega

end CloneTask

namespace Arena

/-- Work off the tasks. The results stand last first; a defect ends the walk, and what it
has added to the arena by then stays there. -/
def runTasks (arena : Arena) (results : List Slot) :
    List CloneTask → CloneResult (List Slot)
  | [] => (.ok results, arena)
  | .slot owner (.child id) :: rest =>
      match arena.child? owner id with
      | .error defect => (.error defect, arena)
      | .ok none => arena.runTasks (.child .invalid :: results) rest
      | .ok (some ⟨child, _⟩) =>
          if child.node.kind.isShareable then arena.runTasks (.child id :: results) rest
          else arena.runTasks results (CloneTask.ofNode child ++ rest)
  | .slot owner (.list range) :: rest =>
      match arena.children? owner range with
      | .error defect => (.error defect, arena)
      | .ok ⟨children, _⟩ => arena.runTasks results (CloneTask.ofChildren owner children ++ rest)
  | .gather count :: rest =>
      let (entries, older) := results.splitAt count
      let (range, arena) := arena.storeExprs (Slot.children entries.reverse)
      arena.runTasks (.list range :: older) rest
  | .build node count :: rest =>
      let (filled, older) := results.splitAt count
      let (id, arena) := arena.alloc (node.copyWith filled.reverse)
      arena.runTasks (.child id :: older) rest
termination_by tasks => CloneTask.totalCost tasks
decreasing_by
  · have positive := CloneTask.childCost_pos owner.id.index
    simp only [CloneTask.totalCost, CloneTask.cost]
    omega
  · have positive := CloneTask.childCost_pos owner.id.index
    simp only [CloneTask.totalCost, CloneTask.cost]
    omega
  · rename_i precedes _
    have lower := CloneTask.totalCost_ofNode_lt precedes
    simp only [CloneTask.totalCost_append, CloneTask.totalCost, CloneTask.cost]
    omega
  · rename_i bound
    have cheaper := Nat.mul_le_mul_right (CloneTask.childCost owner.id.index) bound
    simp only [ListRange.maxLength] at cheaper
    simp only [CloneTask.totalCost_append, CloneTask.totalCost_ofChildren, CloneTask.totalCost,
      CloneTask.cost]
    omega
  · simp only [CloneTask.totalCost, CloneTask.cost]
    omega
  · simp only [CloneTask.totalCost, CloneTask.cost]
    omega

/-- Clone the tree at `id`, which need not be a node of the arena. No expression clones to
none, and a shareable root is its own clone. The walk leaves the copied root as its only
result. -/
def clone (arena : Arena) (id : ExprId) : CloneResult ExprId :=
  if id.isValid then
    match arena.get? id with
    | none => (.error (.foreignRoot id), arena)
    | some node =>
        if node.kind.isShareable then (.ok id, arena)
        else
          (arena.runTasks [] (CloneTask.ofNode ⟨id, node⟩)).andThen fun results arena =>
            (.ok ((Slot.children results).headD .invalid), arena)
  else (.ok .invalid, arena)

def cloneAll (arena : Arena) : Option (List ExprId) → CloneResult (Option (List ExprId))
  | none => (.ok none, arena)
  | some ids =>
      (CloneResult.each (fun id arena => arena.clone id) ids arena).andThen
        fun clones arena => (.ok (some clones), arena)

end Arena

end CompilerIR
