import CompilerIR.Clone.Guarded
import CompilerIR.Proofs.Arena.Columns

/-!
What guarded cloning leaves alone. Main statement: unless there is a fault, the columns that are left
behind begin with those that were there, and all nodes still have all of their parts.
-/

namespace CompilerIR

namespace Columns

/-- `after` is `before` with entries added behind the old ones, as many to each part of a node. -/
structure Extends (before after : Columns) : Prop where
  kinds : before.kinds.toList <+: after.kinds.toList
  spans : before.spans.toList <+: after.spans.toList
  types : before.types.toList <+: after.types.toList
  exprLists : before.exprLists.toList <+: after.exprLists.toList
  typeLists : after.typeLists = before.typeLists
  aligned : before.Aligned → after.Aligned

theorem Extends.refl (columns : Columns) : columns.Extends columns :=
  ⟨List.prefix_rfl, List.prefix_rfl, List.prefix_rfl, List.prefix_rfl, rfl, id⟩

theorem Extends.trans {first middle last : Columns} (start : first.Extends middle)
    (rest : middle.Extends last) : first.Extends last where
  kinds := start.kinds.trans rest.kinds
  spans := start.spans.trans rest.spans
  types := start.types.trans rest.types
  exprLists := start.exprLists.trans rest.exprLists
  typeLists := rest.typeLists.trans start.typeLists
  aligned := rest.aligned ∘ start.aligned

section Additions

variable {before after : Columns}

theorem alloc_extends {node : Node} {id : ExprId}
    (added : before.alloc node = .ok (id, after)) : before.Extends after := by
  rw [alloc] at added
  split at added
  · obtain ⟨⟩ := added
    have more {α : Type} (column : Array α) (entry : α) :
        column.toList <+: (column.push entry).toList := by
      rw [Array.toList_push]
      exact List.prefix_append _ _
    refine ⟨more _ _, more _ _, more _ _, List.prefix_rfl, rfl, fun aligned => ⟨?_, ?_⟩⟩
    · rw [Array.size_push, Array.size_push, aligned.spans]
    · rw [Array.size_push, Array.size_push, aligned.types]
  · cases added

theorem pushExprs_extends {ids : List ExprId} {range : ExprRange}
    (added : before.pushExprs ids = .ok (range, after)) : before.Extends after := by
  rw [pushExprs] at added
  split at added
  · obtain ⟨⟩ := added
    exact .refl before
  · split at added
    · cases added
    · split at added
      · obtain ⟨⟩ := added
        refine ⟨List.prefix_rfl, List.prefix_rfl, List.prefix_rfl, ?_, rfl,
          fun aligned => ⟨aligned.spans, aligned.types⟩⟩
        rw [Array.toList_appendList]
        exact List.prefix_append _ _
      · cases added

end Additions

end Columns

/-! ### Results -/

def Guarded.Extends {α : Type} (before : Columns) (result : Guarded α) : Prop :=
  ∀ outcome after, result = .ok (outcome, after) → before.Extends after

namespace Guarded

variable {α β : Type} {columns : Columns}

theorem extends_ok (outcome : Except CloneDefect α) (columns : Columns) :
    Extends columns (.ok (outcome, columns)) := by
  rintro _ _ ⟨⟩
  exact .refl columns

theorem extends_error (fault : Fault) : Extends (α := α) columns (.error fault) := nofun

theorem Extends.andThen {result : Guarded α} {next : α → Columns → Guarded β}
    (first : result.Extends columns) (rest : ∀ value after, (next value after).Extends after) :
    (result.andThen next).Extends columns := by
  match result with
  | .error fault => exact extends_error fault
  | .ok (.error defect, after) =>
      rintro _ _ ⟨⟩
      exact first _ after rfl
  | .ok (.ok value, after) =>
      intro outcome last done
      exact (first _ after rfl).trans (rest value after outcome last done)

theorem each_extends {work : α → Columns → Guarded β}
    (step : ∀ entry before, (work entry before).Extends before) (entries : List α)
    (columns : Columns) : (each work entries columns).Extends columns := by
  induction entries generalizing columns with
  | nil => exact extends_ok _ columns
  | cons entry rest inductionHypothesis =>
      apply (step entry columns).andThen
      intro value after
      apply (inductionHypothesis after).andThen
      intro values last
      exact extends_ok _ last

end Guarded

/-! ### Guarded cloning -/

namespace Columns

open Guarded (extends_ok extends_error)

section Slots

variable {visit : ExprId → Columns → Guarded ExprId} {owner : ExprId}
  (step : ∀ id before, (visit id before).Extends before)

include step

theorem cloneChild_extends (child : ExprId) (columns : Columns) :
    (cloneChild visit owner child columns).Extends columns := by
  unfold cloneChild
  split
  · split
    · exact extends_error _
    · split
      · exact extends_ok _ columns
      · split
        · exact extends_ok _ columns
        · exact step child columns
  · exact extends_ok _ columns

theorem cloneList_extends (range : ExprRange) (columns : Columns) :
    (cloneList visit owner range columns).Extends columns := by
  unfold cloneList
  split
  · split
    · exact extends_error _
    · exact extends_ok _ columns
  · rename_i children _read
    refine (Guarded.each_extends (cloneChild_extends step) children columns).andThen ?_
    intro clones after
    split
    · exact extends_error _
    · rename_i stored
      rintro _ _ ⟨⟩
      exact pushExprs_extends stored

theorem cloneSlot_extends (slot : Slot) (columns : Columns) :
    (cloneSlot visit owner slot columns).Extends columns := by
  cases slot with
  | child child => exact (cloneChild_extends step child columns).andThen fun _ => extends_ok _
  | list range => exact (cloneList_extends step range columns).andThen fun _ => extends_ok _

end Slots

theorem cloneNode_extends (depth : Nat) (id : ExprId) (columns : Columns) :
    (cloneNode depth id columns).Extends columns := by
  induction depth generalizing id columns with
  | zero => exact extends_error .tooDeep
  | succ depth inductionHypothesis =>
      unfold cloneNode
      split
      · exact extends_error _
      · rename_i node _read
        split
        · exact extends_ok _ columns
        · refine (Guarded.each_extends (cloneSlot_extends inductionHypothesis) node.kind.slots
            columns).andThen ?_
          intro filled after
          split
          · exact extends_error _
          · rename_i stored
            rintro _ _ ⟨⟩
            exact alloc_extends stored

theorem cloneExpr_extends (columns : Columns) (id : ExprId) :
    (columns.cloneExpr id).Extends columns := by
  unfold cloneExpr
  split
  · split
    · exact cloneNode_extends _ id columns
    · exact extends_ok _ columns
  · exact extends_ok _ columns

theorem cloneExprs_extends (columns : Columns) (ids : Option (List ExprId)) :
    (columns.cloneExprs ids).Extends columns := by
  cases ids with
  | none => exact extends_ok _ columns
  | some ids =>
      exact (Guarded.each_extends (fun id before => before.cloneExpr_extends id) ids
        columns).andThen fun _ => extends_ok _

/-! ### The nodes of columns -/

/-- Columns of one length that are added to are an arena that is added to. -/
theorem Extends.arena {before after : Columns} (extended : before.Extends after)
    (aligned : before.Aligned) : before.arena.Extends after.arena where
  nodes := by
    obtain ⟨moreKinds, kinds⟩ := extended.kinds
    obtain ⟨moreSpans, spans⟩ := extended.spans
    obtain ⟨moreTypes, types⟩ := extended.types
    have sameSpans : before.spans.toList.length = before.types.toList.length := by
      simp only [Array.length_toList, aligned.spans, aligned.types]
    have sameKinds : before.kinds.toList.length =
        (before.spans.toList.zip before.types.toList).length := by
      simp only [List.length_zip, Array.length_toList, aligned.spans, aligned.types, Nat.min_self]
    simp only [Columns.arena, Array.toList_zipWith, Array.toList_zip]
    rw [← kinds, ← spans, ← types, List.zip_append sameSpans, List.zipWith_append sameKinds]
    exact List.prefix_append _ _
  exprLists := extended.exprLists
  typeLists := extended.typeLists

end Columns

end CompilerIR
