import CompilerIR.Clone.Agreement
import CompilerIR.Proofs.Arena.Tree
import CompilerIR.Proofs.Clone.ColumnFrame

/-!
What cloning leaves alone. Main statement: whether a request succeeds or ends in a defect,
everything that was in the arena stays where it was, in each of its columns.
-/

namespace CompilerIR

namespace CloneResult

variable {α β : Type} {arena : Arena}

theorem andThen_extends {result : CloneResult α} {next : α → Arena → CloneResult β}
    (first : arena.Extends result.2)
    (rest : ∀ value (after : Arena), after.Extends (next value after).2) :
    arena.Extends (result.andThen next).2 := by
  obtain ⟨outcome, after⟩ := result
  cases outcome with
  | error defect => exact first
  | ok value => exact first.trans (rest value after)

theorem each_extends {work : α → Arena → CloneResult β}
    (step : ∀ entry (before : Arena), before.Extends (work entry before).2) (entries : List α)
    (arena : Arena) : arena.Extends (each work entries arena).2 := by
  induction entries generalizing arena with
  | nil => exact .refl arena
  | cons entry rest inductionHypothesis =>
      apply andThen_extends (step entry arena)
      intro value after
      apply andThen_extends (inductionHypothesis after)
      intro values last
      exact .refl last

end CloneResult

namespace Arena

section Slots

variable {owner : Owner} {visit : owner.Child → Arena → CloneResult ExprId}
  (step : ∀ child (before : Arena), before.Extends (visit child before).2)

include step

theorem copyChild_extends (id : ExprId) (arena : Arena) :
    arena.Extends (copyChild owner visit id arena).2 := by
  unfold copyChild
  split
  · exact .refl arena
  · exact .refl arena
  · exact step _ arena

theorem copySlot_extends (slot : Slot) (arena : Arena) :
    arena.Extends (copySlot owner visit slot arena).2 := by
  cases slot with
  | child id =>
      apply CloneResult.andThen_extends (copyChild_extends step id arena)
      intro clone after
      exact .refl after
  | list range =>
      rw [copySlot]
      split
      · exact .refl arena
      · rename_i children _short _read
        apply CloneResult.andThen_extends
          (CloneResult.each_extends (copyChild_extends step) children arena)
        intro clones after
        exact storeExprs_extends after clones

end Slots

theorem copyTree_extends (owner : Owner) (arena : Arena) :
    arena.Extends (arena.copyTree owner).2 := by
  have below (child : owner.Child) (before : Arena) :
      before.Extends (before.copyTree child.1).2 := copyTree_extends child.1 before
  rw [copyTree]
  split
  · exact .refl arena
  · apply CloneResult.andThen_extends
      (CloneResult.each_extends (copySlot_extends below) owner.node.kind.slots arena)
    intro filled after
    exact alloc_extends after _
termination_by owner.id.index
decreasing_by exact child.2

theorem clone_extends (arena : Arena) (id : ExprId) : arena.Extends (arena.clone id).2 := by
  rw [clone_eq_copyTree]
  split
  · split
    · exact .refl arena
    · exact copyTree_extends _ arena
  · exact .refl arena

theorem cloneAll_extends (arena : Arena) (ids : Option (List ExprId)) :
    arena.Extends (arena.cloneAll ids).2 := by
  cases ids with
  | none => exact .refl arena
  | some ids =>
      apply CloneResult.andThen_extends
        (CloneResult.each_extends (fun id before => before.clone_extends id) ids arena)
      intro clones after
      exact .refl after

/-! ### What is retained -/

def kinds (arena : Arena) : List NodeKind := arena.nodes.toList.map Node.kind

def spans (arena : Arena) : List Span := arena.nodes.toList.map Node.span

def types (arena : Arena) : List TypeId := arena.nodes.toList.map Node.type

structure Retains (before after : Arena) : Prop where
  kinds : after.kinds.take before.size = before.kinds
  spans : after.spans.take before.size = before.spans
  types : after.types.take before.size = before.types
  exprLists : before.exprLists.toList <+: after.exprLists.toList
  typeLists : after.typeLists = before.typeLists
  trees : ∀ id, before.Admits id → before.WellFormedAt id →
    ∃ tree, before.unfold id = some tree ∧ after.unfold id = some tree

theorem Extends.take_map {before after : Arena} (extended : before.Extends after) {α : Type}
    (column : Node → α) :
    (after.nodes.toList.map column).take before.size = before.nodes.toList.map column := by
  obtain ⟨more, added⟩ := extended.nodes
  have counted : before.size = (before.nodes.toList.map column).length := by
    rw [List.length_map, Array.length_toList, size]
  rw [← added, List.map_append, counted, List.take_left]

theorem Extends.exists_unfold {before after : Arena} (extended : before.Extends after)
    {id : ExprId} (admitted : before.Admits id) (wellFormed : before.WellFormedAt id) :
    ∃ tree, before.unfold id = some tree ∧ after.unfold id = some tree := by
  obtain ⟨tree, unfolded⟩ := wellFormed.exists_unfold admitted
  exact ⟨tree, unfolded, extended.unfold unfolded⟩

theorem Extends.retains {before after : Arena} (extended : before.Extends after) :
    before.Retains after where
  kinds := extended.take_map Node.kind
  spans := extended.take_map Node.span
  types := extended.take_map Node.type
  exprLists := extended.exprLists
  typeLists := extended.typeLists
  trees _id := extended.exists_unfold

end Arena

/-- What is in `before` stays in its place, and no column is left behind by the others. -/
structure Columns.Retains (before after : Columns) : Prop where
  kinds : after.kinds.toList.take before.kinds.size = before.kinds.toList
  spans : after.spans.toList.take before.kinds.size = before.spans.toList
  types : after.types.toList.take before.kinds.size = before.types.toList
  aligned : after.Aligned
  exprLists : before.exprLists.toList <+: after.exprLists.toList
  typeLists : after.typeLists = before.typeLists
  trees : ∀ id, before.arena.Admits id → before.arena.WellFormedAt id →
    ∃ tree, before.arena.unfold id = some tree ∧ after.arena.unfold id = some tree

theorem Columns.Extends.retains {before after : Columns} (extended : before.Extends after)
    (aligned : before.Aligned) : before.Retains after where
  kinds := List.prefix_iff_eq_take.mp extended.kinds |>.symm
  spans := aligned.spans ▸ (List.prefix_iff_eq_take.mp extended.spans).symm
  types := aligned.types ▸ (List.prefix_iff_eq_take.mp extended.types).symm
  aligned := extended.aligned aligned
  exprLists := extended.exprLists
  typeLists := extended.typeLists
  trees _id := (extended.arena aligned).exists_unfold

namespace Arena

theorem cloning_retains_arena (arena : Arena) :
    ((∀ id, arena.Retains (arena.clone id).2) ∧
      ∀ ids, arena.Retains (arena.cloneAll ids).2) ∧
    ∀ columns : Columns, columns.Aligned →
      (∀ id outcome after, columns.cloneExpr id = .ok (outcome, after) →
        columns.Retains after) ∧
      ∀ ids outcome after, columns.cloneExprs ids = .ok (outcome, after) →
        columns.Retains after := by
  refine ⟨⟨fun id => (arena.clone_extends id).retains,
    fun ids => (arena.cloneAll_extends ids).retains⟩, fun columns aligned => ⟨?_, ?_⟩⟩
  · intro id outcome after done
    exact (columns.cloneExpr_extends id outcome after done).retains aligned
  · intro ids outcome after done
    exact (columns.cloneExprs_extends ids outcome after done).retains aligned

end Arena

def halfDone : Columns where
  kinds := #[.int 7, .prefixed .neg ⟨0⟩, .binary .lt ⟨1⟩ ⟨5⟩]
  spans := #[⟨1, 2⟩, ⟨0, 2⟩, ⟨0, 7⟩]
  types := #[.int, .int, .boolean]
  exprLists := #[⟨1⟩]
  typeLists := #[]

theorem halfDone_retained :
    halfDone.Aligned ∧
      ∃ after, halfDone.cloneExpr ⟨2⟩ =
          .ok (.error (.danglingChild ⟨⟨2⟩, "Binary", ⟨0, 7⟩⟩ ⟨5⟩), after) ∧
        after.kinds.size = 4 ∧ halfDone.Retains after := by
  have aligned : halfDone.Aligned := ⟨rfl, rfl⟩
  let after : Columns :=
    { halfDone with
      kinds := halfDone.kinds.push (.prefixed .neg ⟨0⟩)
      spans := halfDone.spans.push ⟨0, 2⟩
      types := halfDone.types.push .int }
  have done : halfDone.cloneExpr ⟨2⟩ =
      .ok (.error (.danglingChild ⟨⟨2⟩, "Binary", ⟨0, 7⟩⟩ ⟨5⟩), after) := by
    decide +kernel
  obtain ⟨_modelled, retained⟩ := Arena.cloning_retains_arena halfDone.arena
  exact ⟨aligned, after, done, rfl, (retained halfDone aligned).1 _ _ _ done⟩

end CompilerIR
