import CompilerIR.Proofs.Arena.Columns
import CompilerIR.Proofs.Arena.Store
import CompilerIR.Proofs.Clone.Invariant
import CompilerIR.Proofs.Clone.Step

/-!
Identities of new nodes. Main statement: an identity that is given out stands for its node whatever
is done with the arena afterwards, unless it is the greatest one. That one is given out like any
other, but it stands for no expression, so that the node behind it passes for an empty slot. A copy
can be given it as well.
-/

namespace CompilerIR

theorem ExprId.ofIndex_eq_invalid_iff {index : Nat} (bound : index < UInt32.size) :
    ofIndex index = invalid ↔ index = UInt32.size - 1 := by
  have last : invalid.index = UInt32.size - 1 := rfl
  rw [← index_injective.eq_iff, index_ofIndex bound, last]

namespace Arena

structure Addresses (arena : Arena) (id : ExprId) (node : Node) : Prop where
  notEmpty : id ≠ .invalid
  contained : arena.contains id = true
  stored : arena.get? id = some node
  cloned : arena.clone id = arena.copyTree ⟨id, node⟩
  followed : ∀ (owner : Owner) (visit : owner.Child → Arena → CloneResult ExprId)
    (precedes : id.index < owner.id.index),
      copyChild owner visit id arena = visit ⟨⟨id, node⟩, precedes⟩ arena
  reported : ∀ (owner : Owner) (visit : owner.Child → Arena → CloneResult ExprId),
    owner.id.index ≤ id.index →
      copyChild owner visit id arena = (.error (.cyclicChild owner.site id), arena)

/-- The node `node` stands where `id` points, but whoever asks for `id` is answered that there is no
expression. -/
structure Hides (arena : Arena) (id : ExprId) (node : Node) : Prop where
  stored : arena.get? id = some node
  empty : id = .invalid
  missing : arena.contains id = false
  cloned : arena.clone id = (.ok .invalid, arena)
  skipped : ∀ (owner : Owner) (visit : owner.Child → Arena → CloneResult ExprId),
    copyChild owner visit id arena = (.ok .invalid, arena)

section Asking

variable {arena : Arena} {id : ExprId} {node : Node}

theorem addresses_of_node? (found : arena.node? id = some node) : arena.Addresses id node := by
  obtain ⟨valid, present⟩ := node?_eq_some_iff.mp found
  refine ⟨?notEmpty, exists_node?_iff.mp ⟨node, found⟩, present, clone_of_node? found, ?followed,
    ?reported⟩
  case notEmpty =>
    intro empty
    rw [empty, node?_invalid] at found
    cases found
  case followed => exact fun owner visit precedes => copyChild_of_precedes found precedes
  case reported =>
    intro owner visit notBefore
    exact copyChild_of_get?_some valid present (Nat.not_lt.mpr notBefore)

theorem hides_of_get?_invalid (present : arena.get? .invalid = some node) :
    arena.Hides .invalid node where
  stored := present
  empty := rfl
  missing := rfl
  cloned := arena.clone_invalid
  skipped _owner _visit := copyChild_invalid

/-- The copy of a node is the last thing to be added, so it takes the greatest number there is by
then. -/
theorem clone_eq_invalid_iff {copy : ExprId} {after : Arena} (found : arena.node? id = some node)
    (done : arena.clone id = (.ok copy, after)) (room : after.size ≤ UInt32.size) :
    copy = .invalid ↔ node.kind.isShareable = false ∧ after.size = UInt32.size := by
  rw [clone_of_node? found, copyTree] at done
  by_cases shareable : node.kind.isShareable = true
  · rw [if_pos shareable] at done
    cases done
    refine iff_of_false (addresses_of_node? found).notEmpty ?_
    rintro ⟨unshared, _full⟩
    rw [shareable] at unshared
    cases unshared
  · rw [if_neg shareable] at done
    obtain ⟨filled, middle, _slotsDone, allocated⟩ := CloneResult.andThen_eq_ok done
    have added : after.size = middle.size + 1 := by
      cases allocated
      exact size_alloc middle _
    have number : copy = .ofIndex middle.size := by
      cases allocated
      rfl
    have fresh : middle.size < UInt32.size := by omega
    rw [number, added, ExprId.ofIndex_eq_invalid_iff fresh,
      and_iff_right (Bool.eq_false_iff.mpr shareable)]
    omega

end Asking

/-! ### Giving out -/

theorem alloc_of_last {arena : Arena} (last : arena.size = UInt32.size - 1) (node : Node) :
    (arena.alloc node).1 = .invalid := by
  have fresh : arena.size < UInt32.size := last ▸ by decide
  exact (ExprId.ofIndex_eq_invalid_iff fresh).mpr last

theorem alloc_columns_of_full {arena : Arena} (full : UInt32.size ≤ arena.size) (node : Node) :
    arena.columns.alloc node = .error (.tooMany "expressions" arena.size) := by
  rw [Columns.alloc, size_kinds_columns, if_neg (Nat.not_lt.mpr full)]

theorem allocated_identity_names_node_unless_last (arena : Arena) (node : Node) :
    (arena.size < UInt32.size - 1 → ∃ id after,
      arena.columns.alloc node = .ok (id, after.columns) ∧ arena.alloc node = (id, after) ∧
      id.index = arena.size ∧ ∀ calls, (after.performEach calls).2.Addresses id node) ∧
    (arena.size = UInt32.size - 1 → ∃ id after,
      arena.columns.alloc node = .ok (id, after.columns) ∧ arena.alloc node = (id, after) ∧
      id.index = arena.size ∧ ∀ calls, (after.performEach calls).2.Hides id node) ∧
    (UInt32.size ≤ arena.size →
      arena.columns.alloc node = .error (.tooMany "expressions" arena.size)) ∧
    ∀ id held copy after, arena.node? id = some held → arena.clone id = (.ok copy, after) →
      after.size ≤ UInt32.size →
        (copy = .invalid ↔ held.kind.isShareable = false ∧ after.size = UInt32.size) := by
  refine ⟨?below, ?last, fun full => alloc_columns_of_full full node, ?clones⟩
  case below =>
    intro room
    have fresh : arena.size < UInt32.size := Nat.lt_of_lt_of_le room (Nat.sub_le _ 1)
    refine ⟨_, _, alloc_columns fresh node, rfl, ExprId.index_ofIndex fresh, fun calls => ?_⟩
    exact addresses_of_node? ((performEach_grows _ calls).node? (node?_alloc room node))
  case last =>
    intro last
    have fresh : arena.size < UInt32.size := last ▸ by decide
    refine ⟨_, _, alloc_columns fresh node, rfl, ExprId.index_ofIndex fresh, fun calls => ?_⟩
    have present := (performEach_grows _ calls).get? (get?_alloc fresh node)
    rw [alloc_of_last last] at present ⊢
    exact hides_of_get?_invalid present
  case clones =>
    intro id held copy after found done room
    exact clone_eq_invalid_iff found done room

/-! ### The last two numbers -/

def filled (count : Nat) (node : Node) : Arena := ⟨.replicate count node, #[], #[]⟩

theorem size_filled (count : Nat) (node : Node) : (filled count node).size = count :=
  Array.size_replicate

theorem node?_filled {count : Nat} {id : ExprId} (valid : id.isValid = true)
    (inside : id.index < count) (node : Node) : (filled count node).node? id = some node := by
  refine node?_eq_some_iff.mpr ⟨valid, ?_⟩
  rw [get?, filled, Array.getElem?_replicate, if_pos inside]

def unshared : Node := ⟨.localRef ⟨0⟩, ⟨0, 1⟩, .int⟩

theorem clone_unshared {arena : Arena} {id : ExprId} (found : arena.node? id = some unshared) :
    arena.clone id = (.ok (arena.alloc unshared).1, (arena.alloc unshared).2) := by
  rw [clone_of_node? found, copyTree]
  rfl

/-- With one number left, it goes to the next node, be that a copy or not. -/
theorem last_numbers_are_given_out :
    (filled (UInt32.size - 2) unshared).size < UInt32.size - 1 ∧
    (((filled (UInt32.size - 2) unshared).alloc unshared).2.performEach
      [.tryPushExprs [⟨0⟩], .clone ⟨0xfffffffe⟩]).2.Addresses ⟨0xfffffffe⟩ unshared ∧
    (filled (UInt32.size - 1) unshared).size = UInt32.size - 1 ∧
    (((filled (UInt32.size - 1) unshared).alloc unshared).2.performEach []).2.Hides .invalid
      unshared ∧
    UInt32.size ≤ (filled UInt32.size unshared).size ∧
    (filled UInt32.size unshared).columns.alloc unshared =
      .error (.tooMany "expressions" (filled UInt32.size unshared).size) ∧
    (filled (UInt32.size - 1) unshared).node? ⟨0⟩ = some unshared ∧
    ∃ after, (filled (UInt32.size - 1) unshared).clone ⟨0⟩ = (.ok .invalid, after) ∧
      after.size = UInt32.size := by
  -- The arenas are too large to be run through: their sizes are all that counts.
  have room : (filled (UInt32.size - 2) unshared).size < UInt32.size - 1 := by
    rw [size_filled]
    decide
  have last : (filled (UInt32.size - 1) unshared).size = UInt32.size - 1 := size_filled _ _
  have full : UInt32.size ≤ (filled UInt32.size unshared).size :=
    Nat.le_of_eq (size_filled _ _).symm
  obtain ⟨below, _last, _full, _clones⟩ :=
    allocated_identity_names_node_unless_last (filled (UInt32.size - 2) unshared) unshared
  obtain ⟨_below, atLast, _full, clones⟩ :=
    allocated_identity_names_node_unless_last (filled (UInt32.size - 1) unshared) unshared
  obtain ⟨_below, _last, refused, _clones⟩ :=
    allocated_identity_names_node_unless_last (filled UInt32.size unshared) unshared
  obtain ⟨id, after, _allowed, allocated, number, addressed⟩ := below room
  have known : id = ⟨0xfffffffe⟩ := by
    apply ExprId.index_injective
    rw [number, size_filled]
    decide
  obtain ⟨lastId, afterLast, _allowed, allocatedLast, _number, hidden⟩ := atLast last
  have empty : lastId = .invalid := (hidden []).empty
  have first : (filled (UInt32.size - 1) unshared).node? ⟨0⟩ = some unshared :=
    node?_filled (by decide) (by decide) unshared
  have cloned := clone_unshared first
  have sizeAfter : ((filled (UInt32.size - 1) unshared).alloc unshared).2.size = UInt32.size := by
    rw [size_alloc, last]
    decide
  have copied : ((filled (UInt32.size - 1) unshared).alloc unshared).1 = .invalid :=
    (clones _ _ _ _ first cloned (Nat.le_of_eq sizeAfter)).mpr ⟨rfl, sizeAfter⟩
  rw [copied] at cloned
  rw [allocated, allocatedLast]
  exact ⟨room, known ▸ addressed _, last, empty ▸ hidden [], full, refused full, first, _, cloned,
    sizeAfter⟩

/-- So the identity given out need not stand for a node. -/
theorem last_identity_names_nothing :
    ¬∀ (arena : Arena) (node : Node), arena.size < UInt32.size →
      (arena.alloc node).2.Addresses (arena.alloc node).1 node := by
  intro addressed
  have last := size_filled (UInt32.size - 1) unshared
  have fresh : (filled (UInt32.size - 1) unshared).size < UInt32.size := by
    rw [last]
    decide
  exact (addressed _ unshared fresh).notEmpty (alloc_of_last last unshared)

end Arena

end CompilerIR
