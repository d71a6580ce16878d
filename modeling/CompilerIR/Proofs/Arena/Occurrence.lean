import CompilerIR.Proofs.Arena.Tree

/-!
The nodes that a tree is unfolded from, listed in the order in which a copy of it is
allocated: children from left to right, and then their owner.
-/

namespace CompilerIR.Arena

/-- One entry for each path from `id` to a node. Empty slots are left out. -/
def occurrences (arena : Arena) (id : ExprId) : List ExprId :=
  match arena.node? id with
  | none => []
  | some _ =>
      (arena.children id).flatMap (fun child =>
        if _precedes : child.index < id.index then arena.occurrences child else []) ++ [id]
termination_by id.index
decreasing_by exact _precedes

def shares (arena : Arena) (id : ExprId) : Bool :=
  (arena.node? id).any fun node => node.kind.isShareable

def copied (arena : Arena) (ids : List ExprId) : List ExprId :=
  ids.filter fun id => !arena.shares id

/-- What stands in a copy for the given occurrences, when its nodes are numbered from
`next` on. -/
def standIns (arena : Arena) : Nat → List ExprId → List ExprId
  | _, [] => []
  | next, id :: ids =>
      if arena.shares id then id :: arena.standIns next ids
      else .ofIndex next :: arena.standIns (next + 1) ids

theorem occurrences_invalid (arena : Arena) : arena.occurrences .invalid = [] := by
  rw [occurrences, node?_invalid]

theorem occurrences_of_node? {arena : Arena} {id : ExprId} {node : Node}
    (found : arena.node? id = some node) (precede : arena.ChildrenPrecede id) :
    arena.occurrences id = (arena.children id).flatMap arena.occurrences ++ [id] := by
  rw [occurrences, found]
  dsimp only
  congr 1
  apply List.flatMap_congr
  intro child refers
  rcases precede child refers with empty | precedes
  · subst empty
    rw [occurrences_invalid]
    split <;> rfl
  · rw [dif_pos precedes]

theorem shares_of_node? {arena : Arena} {id : ExprId} {node : Node}
    (found : arena.node? id = some node) : arena.shares id = node.kind.isShareable := by
  rw [shares, found, Option.any_some]

theorem Extends.shares {before after : Arena} (extended : before.Extends after) {id : ExprId}
    (shared : before.shares id = true) :
    after.shares id = true := by
  cases found : before.node? id with
  | none =>
      rw [Arena.shares, found] at shared
      cases shared
  | some node =>
      rw [shares_of_node? found] at shared
      rw [shares_of_node? (extended.node? found), shared]

theorem occurrences_of_isShareable {arena : Arena} {id : ExprId} {node : Node}
    (found : arena.node? id = some node) (shareable : node.kind.isShareable = true) :
    arena.occurrences id = [id] := by
  have alone : arena.children id = [] := by
    rw [children_of_node? found, NodeKind.slots_of_isShareable shareable]
    rfl
  rw [occurrences, found, alone]
  rfl

theorem copied_append (arena : Arena) (first second : List ExprId) :
    arena.copied (first ++ second) = arena.copied first ++ arena.copied second :=
  List.filter_append first second

theorem standIns_append (arena : Arena) (next : Nat) (first second : List ExprId) :
    arena.standIns next (first ++ second) =
      arena.standIns next first ++ arena.standIns (next + (arena.copied first).length) second := by
  induction first generalizing next with
  | nil => rfl
  | cons id ids inductionHypothesis =>
      by_cases shared : arena.shares id = true
      · simp only [List.cons_append, standIns, shared, if_true, inductionHypothesis, copied,
          Bool.not_true, Bool.false_eq_true, not_false_eq_true, List.filter_cons_of_neg]
      · simp only [List.cons_append, standIns, shared, Bool.false_eq_true, if_false,
          inductionHypothesis, copied, Bool.not_false, List.filter_cons_of_pos, List.length_cons]
        rw [Nat.add_assoc, Nat.add_comm 1]

/-- At every position stands the old node if it is shared, and otherwise the node numbered
by the copied occurrences before it. -/
theorem getElem?_standIns (arena : Arena) (next : Nat) (ids : List ExprId) (position : Nat) :
    (arena.standIns next ids)[position]? = ids[position]?.map fun id =>
      if arena.shares id then id
      else .ofIndex (next + (arena.copied (ids.take position)).length) := by
  induction ids generalizing next position with
  | nil => rfl
  | cons id ids inductionHypothesis =>
      cases position with
      | zero =>
          by_cases shared : arena.shares id = true
          · simp [standIns, shared]
          · simp [standIns, shared, copied]
      | succ position =>
          by_cases shared : arena.shares id = true
          · simp [standIns, shared, inductionHypothesis, copied]
          · simp [standIns, shared, inductionHypothesis, copied, Nat.add_assoc, Nat.add_comm 1]

theorem copied_cons_of_shares {arena : Arena} {id : ExprId} (shared : arena.shares id = true)
    (ids : List ExprId) : arena.copied (id :: ids) = arena.copied ids :=
  List.filter_cons_of_neg (by rw [shared]; exact Bool.false_ne_true)

theorem copied_cons_of_not_shares {arena : Arena} {id : ExprId} (owned : ¬arena.shares id = true)
    (ids : List ExprId) : arena.copied (id :: ids) = id :: arena.copied ids :=
  List.filter_cons_of_pos (by rw [Bool.eq_false_iff.mpr owned]; rfl)

/-- Every node that a copy is numbered with stands in it, -/
theorem ofIndex_mem_standIns {arena : Arena} {next offset : Nat} {ids : List ExprId}
    (inside : offset < (arena.copied ids).length) :
    .ofIndex (next + offset) ∈ arena.standIns next ids := by
  induction ids generalizing next offset with
  | nil => cases inside
  | cons id ids inductionHypothesis =>
      by_cases shared : arena.shares id = true
      · rw [copied_cons_of_shares shared] at inside
        rw [standIns, if_pos shared]
        exact List.mem_cons_of_mem id (inductionHypothesis inside)
      · rw [copied_cons_of_not_shares shared] at inside
        rw [standIns, if_neg shared]
        cases offset with
        | zero => exact List.mem_cons_self
        | succ offset =>
            have later : ExprId.ofIndex (next + 1 + offset) ∈ arena.standIns (next + 1) ids :=
              inductionHypothesis (Nat.lt_of_succ_lt_succ inside)
            rw [Nat.add_assoc, Nat.add_comm 1] at later
            exact List.mem_cons_of_mem _ later

/-- and besides these only shared nodes do. -/
theorem mem_standIns {arena : Arena} {next : Nat} {ids : List ExprId} {id : ExprId}
    (member : id ∈ arena.standIns next ids) :
    id ∈ ids ∧ arena.shares id = true ∨
      ∃ offset < (arena.copied ids).length, id = .ofIndex (next + offset) := by
  induction ids generalizing next with
  | nil => cases member
  | cons first ids inductionHypothesis =>
      by_cases shared : arena.shares first = true
      · rw [standIns, if_pos shared] at member
        rw [copied_cons_of_shares shared]
        rcases List.mem_cons.mp member with rfl | later
        · exact Or.inl ⟨List.mem_cons_self, shared⟩
        · exact (inductionHypothesis later).imp_left fun ⟨present, shares⟩ =>
            ⟨List.mem_cons_of_mem first present, shares⟩
      · rw [standIns, if_neg shared] at member
        rw [copied_cons_of_not_shares shared]
        rcases List.mem_cons.mp member with rfl | later
        · exact Or.inr ⟨0, Nat.succ_pos _, rfl⟩
        · rcases inductionHypothesis later with ⟨present, shares⟩ | ⟨offset, inside, rfl⟩
          · exact Or.inl ⟨List.mem_cons_of_mem first present, shares⟩
          · refine Or.inr ⟨offset + 1, Nat.succ_lt_succ inside, ?_⟩
            rw [Nat.add_assoc, Nat.add_comm 1]

theorem exists_occurrences_eq {arena : Arena} {id : ExprId} {node : Node}
    (found : arena.node? id = some node) : ∃ below, arena.occurrences id = below ++ [id] := by
  rw [occurrences, found]
  exact ⟨_, rfl⟩

theorem eq_of_getLast?_occurrences {arena : Arena} {id last : ExprId}
    (ends : (arena.occurrences id).getLast? = some last) : last = id := by
  cases found : arena.node? id with
  | none =>
      rw [occurrences, found] at ends
      cases ends
  | some node =>
      obtain ⟨below, listed⟩ := exists_occurrences_eq found
      rw [listed, List.getLast?_concat] at ends
      exact (Option.some.inj ends).symm

/-- The stand-in of a root that is not shared is the last of the new nodes. -/
theorem getLast?_standIns_occurrences {arena : Arena} {id : ExprId} {node : Node}
    (found : arena.node? id = some node) (next : Nat) :
    (arena.standIns next (arena.occurrences id)).getLast? = some (if arena.shares id then id
      else .ofIndex (next + (arena.copied (arena.occurrences id)).length - 1)) := by
  obtain ⟨below, listed⟩ := exists_occurrences_eq found
  rw [listed, standIns_append, copied_append]
  by_cases shared : arena.shares id = true
  · simp [standIns, shared]
  · simp [standIns, shared, copied]

private theorem mem_occurrences_iff_of_none {arena : Arena} {id other : ExprId}
    (missing : arena.node? id = none) :
    other ∈ arena.occurrences id ↔
      Relation.ReflTransGen arena.Refers id other ∧ ∃ node, arena.node? other = some node := by
  rw [occurrences, missing]
  refine iff_of_false List.not_mem_nil ?_
  rintro ⟨path, node, found⟩
  rcases path.cases_head with rfl | ⟨child, refers, _path⟩
  · rw [missing] at found
    cases found
  · rw [Refers, children, missing] at refers
    cases refers

/-- The nodes of a well-formed tree are those that its root leads to. -/
theorem WellFormedAt.mem_occurrences_iff {arena : Arena} {id other : ExprId}
    (wellFormed : arena.WellFormedAt id) :
    other ∈ arena.occurrences id ↔
      Relation.ReflTransGen arena.Refers id other ∧ ∃ node, arena.node? other = some node := by
  cases present : arena.node? id with
  | none => exact mem_occurrences_iff_of_none present
  | some root =>
      refine wellFormed.induction ?empty ?node (Or.inr (exists_node?_iff.mp ⟨root, present⟩))
      case empty => exact mem_occurrences_iff_of_none (node?_invalid arena)
      case node =>
        intro id node found wellFormed below
        rw [occurrences_of_node? found wellFormed.childrenPrecede, List.mem_append,
          List.mem_flatMap, List.mem_singleton]
        constructor
        · rintro (⟨child, refers, present⟩ | rfl)
          · obtain ⟨path, there⟩ := (below child refers).mp present
            exact ⟨.head refers path, there⟩
          · exact ⟨.refl, node, found⟩
        · rintro ⟨path, there⟩
          rcases path.cases_head with same | ⟨child, refers, rest⟩
          · exact Or.inr same.symm
          · exact Or.inl ⟨child, refers, (below child refers).mpr ⟨rest, there⟩⟩

section Extension

variable {before after : Arena} (extended : before.Extends after)

include extended

theorem Extends.childrenPrecede_later {id : ExprId} {node : Node}
    (found : before.node? id = some node) (wellFormed : before.WellFormedAt id) :
    after.ChildrenPrecede id := by
  intro child refers
  rw [Refers, extended.children found wellFormed.listsInside] at refers
  exact wellFormed.childrenPrecede child refers

theorem Extends.occurrences {id : ExprId} {tree : Tree}
    (unfolded : before.unfold id = some tree) :
    after.occurrences id = before.occurrences id := by
  refine (wellFormedAt_of_unfold unfolded).induction ?empty ?node (admits_of_unfold unfolded)
  case empty => rw [occurrences_invalid, occurrences_invalid]
  case node =>
    intro id node found wellFormed below
    rw [occurrences_of_node? found wellFormed.childrenPrecede,
      occurrences_of_node? (extended.node? found) (extended.childrenPrecede_later found wellFormed),
      extended.children found wellFormed.listsInside]
    congr 1
    exact List.flatMap_congr below

end Extension

end CompilerIR.Arena
