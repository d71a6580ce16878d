import CompilerIR.Clone.Guarded
import CompilerIR.Proofs.Arena.Columns
import CompilerIR.Proofs.Clone.Frame
import CompilerIR.Proofs.Clone.Step

/-!
Guarded cloning. Main statement: as long as there are numbers left for what is added, no arena
leads to a fault, however malformed it is.
-/

namespace CompilerIR

open Arena (columns)

/-- If what is left behind has room, there is no fault, and both come to the same. -/
def Guarded.Follows {α : Type} (guarded : Guarded α) (result : CloneResult α) : Prop :=
  result.2.Fits → guarded = .ok (result.1, result.2.columns)

namespace Guarded

variable {α β : Type}

theorem follows_ok (value : α) (arena : Arena) :
    Follows (.ok (.ok value, arena.columns)) (.ok value, arena) := fun _fits => rfl

theorem follows_error (defect : CloneDefect) (arena : Arena) :
    Follows (α := α) (.ok (.error defect, arena.columns)) (.error defect, arena) :=
  fun _fits => rfl

theorem andThen_assoc {γ : Type} (guarded : Guarded α) (next : α → Columns → Guarded β)
    (last : β → Columns → Guarded γ) :
    (guarded.andThen next).andThen last =
      guarded.andThen fun value columns => (next value columns).andThen last := by
  match guarded with
  | .error _ | .ok (.error _, _) | .ok (.ok _, _) => rfl

theorem Follows.andThen {guarded : Guarded α} {result : CloneResult α}
    {next : α → Columns → Guarded β} {next' : α → Arena → CloneResult β}
    (first : guarded.Follows result) (grows : ∀ value (after : Arena), after.Extends (next' value after).2)
    (rest : ∀ value after, result = (.ok value, after) →
      (next value after.columns).Follows (next' value after)) :
    (guarded.andThen next).Follows (result.andThen next') := by
  intro fits
  obtain ⟨outcome, after⟩ := result
  cases outcome with
  | error defect =>
      rw [first fits]
      rfl
  | ok value =>
      rw [first ((grows value after).fits fits)]
      exact rest value after rfl fits

theorem each_follows {guarded : α → Columns → Guarded β} {work : α → Arena → CloneResult β}
    (grows : ∀ entry (before : Arena), before.Extends (work entry before).2) {original : Arena}
    (step : ∀ entry (before : Arena), original.Extends before →
      (guarded entry before.columns).Follows (work entry before))
    (entries : List α) {before : Arena} (extended : original.Extends before) :
    (each guarded entries before.columns).Follows (CloneResult.each work entries before) := by
  induction entries generalizing before with
  | nil => exact follows_ok [] before
  | cons entry rest inductionHypothesis =>
      have grown := grows entry before
      refine (step entry before extended).andThen (fun value after => ?_) ?_
      · exact CloneResult.andThen_extends (CloneResult.each_extends grows rest after)
          fun values last => .refl last
      · intro value after done
        rw [done] at grown
        refine (inductionHypothesis (extended.trans grown)).andThen
          (fun values last => .refl last) ?_
        exact fun values last _done => follows_ok (value :: values) last

end Guarded

namespace Arena

open Guarded (follows_ok follows_error)

section Slots

variable {guarded : ExprId → Columns → Guarded ExprId} {owner : Owner}
  {visit : owner.Child → Arena → CloneResult ExprId} {original : Arena}

theorem site_columns (found : original.node? owner.id = some owner.node) :
    original.columns.site owner.id = .ok owner.site := by
  have present := (node?_eq_some_iff.mp found).2
  simp only [Columns.site, columns, read_columns present]
  rfl

variable (found : original.node? owner.id = some owner.node)
  (grows : ∀ child (before : Arena), before.Extends (visit child before).2)
  (step : ∀ (child : owner.Child) (before : Arena), before.node? child.1.id = some child.1.node →
    (guarded child.1.id before.columns).Follows (visit child before))

include found step

theorem cloneChild_follows (id : ExprId) (before : Arena) (extended : original.Extends before) :
    (before.columns.cloneChild guarded owner.id id).Follows (copyChild owner visit id before) := by
  have site := site_columns (extended.node? found)
  refine copyChild_cases id ?empty ?dangling ?cyclic ?child
  case empty =>
    rintro rfl
    exact follows_ok ExprId.invalid before
  case dangling =>
    intro valid missing
    simp only [Columns.cloneChild, valid, site, contains_columns, missing]
    exact follows_error _ before
  case cyclic =>
    intro node present notBefore
    have contained := exists_node?_iff.mp ⟨node, present⟩
    have valid := (node?_eq_some_iff.mp present).1
    simp only [Columns.cloneChild, valid, site, contains_columns, contained, notBefore]
    exact follows_error _ before
  case child =>
    intro node present precedes
    have contained := exists_node?_iff.mp ⟨node, present⟩
    have valid := (node?_eq_some_iff.mp present).1
    simp only [Columns.cloneChild, valid, site, contains_columns, contained,
      Nat.not_le.mpr precedes]
    exact step ⟨⟨id, node⟩, precedes⟩ before present

include grows

theorem cloneSlot_follows (slot : Slot) (before : Arena) (extended : original.Extends before) :
    (before.columns.cloneSlot guarded owner.id slot).Follows (copySlot owner visit slot before) := by
  cases slot with
  | child id =>
      refine (cloneChild_follows found step id before extended).andThen
        (fun clone after => .refl after) ?_
      exact fun clone after _done => follows_ok (Slot.child clone) after
  | list range =>
      have storage : before.columns.exprLists = before.exprLists := rfl
      rw [Columns.cloneSlot, Columns.cloneList, storage]
      cases read : range.read? before.exprLists with
      | none =>
          rw [copySlot_list_of_none read]
          simp only [site_columns (extended.node? found)]
          exact follows_error _ before
      | some children =>
          have short := ListRange.length_eq_of_read? read ▸ range.length_le
          rw [copySlot_list read]
          dsimp only
          rw [Guarded.andThen_assoc]
          refine (Guarded.each_follows (copyChild_extends grows)
            (cloneChild_follows found step) children extended).andThen
            (fun clones after => storeExprs_extends after clones) ?_
          intro clones after done fits
          have count := each_length done
          have room := ((storeExprs_extends after clones).fits fits).entries
          rw [pushExprs_columns (count ▸ short) room]
          rfl

end Slots

theorem cloneNode_follows (owner : Owner) {depth : Nat} {arena : Arena}
    (deep : owner.id.index < depth) (found : arena.node? owner.id = some owner.node) :
    (Columns.cloneNode depth owner.id arena.columns).Follows (arena.copyTree owner) := by
  induction depth generalizing owner arena with
  | zero => cases deep
  | succ depth inductionHypothesis =>
      have grows (child : owner.Child) (before : Arena) := copyTree_extends child.1 before
      rw [Columns.cloneNode, node_columns (node?_eq_some_iff.mp found).2, copyTree]
      dsimp only
      split
      · exact follows_ok owner.id arena
      · refine (Guarded.each_follows (copySlot_extends grows)
          (cloneSlot_follows found grows fun child before present => ?_) owner.node.kind.slots
          (.refl arena)).andThen (fun filled after => alloc_extends after _) ?_
        · have shallower := Nat.lt_of_lt_of_le child.2 (Nat.le_of_lt_succ deep)
          exact inductionHypothesis child.1 shallower present
        · intro filled after _done fits
          have room := (alloc_extends after (owner.node.copyWith filled)).fits fits
          rw [alloc_columns (Nat.lt_of_lt_of_le room.nodes (Nat.sub_le _ 1))]

theorem cloneExpr_follows (arena : Arena) (id : ExprId) :
    (arena.columns.cloneExpr id).Follows (arena.clone id) := by
  rw [Columns.cloneExpr, contains_columns]
  by_cases valid : id.isValid = true
  · rw [if_pos valid]
    cases present : arena.get? id with
    | none =>
        rw [if_neg (by rw [contains_eq_false_of_get?_none present]; exact Bool.false_ne_true),
          clone_eq_copyTree, if_pos valid, present]
        exact follows_error _ arena
    | some node =>
        have found := node?_eq_some_iff.mpr ⟨valid, present⟩
        rw [if_pos (exists_node?_iff.mp ⟨node, found⟩), clone_of_node? found]
        exact cloneNode_follows ⟨id, node⟩ (Nat.lt_succ_self _) found
  · rw [if_neg valid, clone_eq_copyTree, if_neg valid]
    exact follows_ok ExprId.invalid arena

theorem cloneExprs_follows (arena : Arena) (ids : Option (List ExprId)) :
    (arena.columns.cloneExprs ids).Follows (arena.cloneAll ids) := by
  cases ids with
  | none => exact follows_ok none arena
  | some ids =>
      refine (Guarded.each_follows (fun id before => before.clone_extends id)
        (fun id before _extended => cloneExpr_follows before id) ids (.refl arena)).andThen
        (fun clones after => .refl after) ?_
      exact fun clones after _done => follows_ok (some clones) after

end Arena

/-- A depth of one more than the number of the root is enough. -/
theorem cloning_never_faults {columns : Columns} (aligned : columns.Aligned) :
    (∀ id, (columns.arena.clone id).2.Fits →
      ∃ outcome after, columns.arena.clone id = (outcome, after) ∧
        columns.cloneExpr id = .ok (outcome, after.columns) ∧
        (columns.contains id = true → ∀ depth, id.index + 1 ≤ depth →
          Columns.cloneNode depth id columns = .ok (outcome, after.columns))) ∧
    ∀ ids, (columns.arena.cloneAll ids).2.Fits →
      ∃ outcome after, columns.arena.cloneAll ids = (outcome, after) ∧
        columns.cloneExprs ids = .ok (outcome, after.columns) := by
  have same := aligned.columns_arena
  refine ⟨fun id fits => ⟨(columns.arena.clone id).1, (columns.arena.clone id).2, rfl, ?_, ?_⟩,
    fun ids fits => ⟨(columns.arena.cloneAll ids).1, (columns.arena.cloneAll ids).2, rfl, ?_⟩⟩
  · have followed := columns.arena.cloneExpr_follows id fits
    rwa [same] at followed
  · intro contained depth deep
    rw [← same, Arena.contains_columns] at contained
    obtain ⟨node, found⟩ := Arena.exists_node?_iff.mpr contained
    rw [Arena.clone_of_node? found] at fits ⊢
    have followed := Arena.cloneNode_follows ⟨id, node⟩ deep found fits
    rwa [same] at followed
  · have followed := columns.arena.cloneExprs_follows ids fits
    rwa [same] at followed

def knotted : Columns where
  kinds := #[.localRef ⟨0⟩, .binary .lt ⟨0⟩ ⟨5⟩, .multi ⟨0, 2⟩, .multi ⟨1, 7⟩]
  spans := #[⟨0, 1⟩, ⟨0, 5⟩, ⟨0, 9⟩, ⟨0, 9⟩]
  types := #[.int, .boolean, .root, .root]
  exprLists := #[⟨1⟩, ⟨2⟩]
  typeLists := #[]

theorem knotted_clone : knotted.Aligned ∧ (knotted.arena.clone ⟨2⟩).2.Fits ∧
    (knotted.arena.cloneAll (some [.invalid, ⟨0⟩, ⟨3⟩])).2.Fits ∧
    (∃ after, knotted.cloneExpr ⟨2⟩ =
      .ok (.error (.danglingChild ⟨⟨1⟩, "Binary", ⟨0, 5⟩⟩ ⟨5⟩), after)) ∧
    ∃ after, knotted.cloneExprs (some [.invalid, ⟨0⟩, ⟨3⟩]) =
      .ok (.error (.danglingList ⟨⟨3⟩, "Multi", ⟨0, 9⟩⟩ ⟨1, 7⟩), after) := by
  have aligned : knotted.Aligned := ⟨rfl, rfl⟩
  have fits : (knotted.arena.clone ⟨2⟩).2.Fits := by decide +kernel
  have allFit : (knotted.arena.cloneAll (some [.invalid, ⟨0⟩, ⟨3⟩])).2.Fits := by
    decide +kernel
  obtain ⟨one, several⟩ := cloning_never_faults aligned
  obtain ⟨outcome, after, done, guarded, _deep⟩ := one ⟨2⟩ fits
  obtain ⟨outcomes, last, allDone, allGuarded⟩ := several _ allFit
  have failed : (knotted.arena.clone ⟨2⟩).1 =
      .error (.danglingChild ⟨⟨1⟩, "Binary", ⟨0, 5⟩⟩ ⟨5⟩) := by decide +kernel
  have allFailed : (knotted.arena.cloneAll (some [.invalid, ⟨0⟩, ⟨3⟩])).1 =
      .error (.danglingList ⟨⟨3⟩, "Multi", ⟨0, 9⟩⟩ ⟨1, 7⟩) := by decide +kernel
  rw [done] at failed
  rw [allDone] at allFailed
  exact ⟨aligned, fits, allFit, ⟨after.columns, failed ▸ guarded⟩,
    last.columns, allFailed ▸ allGuarded⟩

end CompilerIR
