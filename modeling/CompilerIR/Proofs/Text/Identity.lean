import CompilerIR.Handle
import CompilerIR.ListRange
import CompilerIR.Span
import CompilerIR.Proofs.Text.Unambiguous

/-!
Texts of identities, handles, ranges and spans. Main statement: each of them can be read back from
its text, also where a name stands for a number or an end for a length.
-/

namespace CompilerIR

open Text (Unambiguous unambiguous_decimal)

/-! ### Identities -/

theorem unambiguous_numbered {Id : Type} {index : Id → Nat} (injective : Function.Injective index)
    (label : String) : Unambiguous fun id => label ++ Text.decimal (index id) ++ ")" :=
  ((unambiguous_decimal.comp index injective).labelled label).closed ")" (by decide)

theorem Handle.unambiguous_text (table : Table) :
    Unambiguous (Handle.text : Handle table → String) :=
  unambiguous_numbered index_injective (table.handleLabel ++ "(")

namespace ExprId

theorem text_of_isValid {id : ExprId} (valid : id.isValid = true) :
    id.text = "ExprId(" ++ Text.decimal id.index ++ ")" := if_pos valid

theorem text_of_not_isValid {id : ExprId} (empty : ¬id.isValid = true) :
    id.text = "ExprId::INVALID" := if_neg empty

theorem unambiguous_text : Unambiguous text := by
  intro left right rest others breaks othersBreak same
  by_cases leftValid : left.isValid = true
  · by_cases rightValid : right.isValid = true
    · rw [text_of_isValid leftValid, text_of_isValid rightValid] at same
      exact unambiguous_numbered index_injective "ExprId(" breaks othersBreak same
    · rw [text_of_isValid leftValid, text_of_not_isValid rightValid, String.append_assoc,
        String.append_assoc] at same
      exact absurd same (Text.append_ne_append (by decide) _ _)
  · by_cases rightValid : right.isValid = true
    · rw [text_of_not_isValid leftValid, text_of_isValid rightValid, String.append_assoc,
        String.append_assoc] at same
      exact absurd same (Text.append_ne_append (by decide) _ _)
    · rw [text_of_not_isValid leftValid, text_of_not_isValid rightValid] at same
      refine ⟨?_, (String.append_right_inj _).mp same⟩
      rw [eq_invalid_of_not_isValid leftValid, eq_invalid_of_not_isValid rightValid]

end ExprId

namespace TypeId

theorem text_of_fixed {type : TypeId} {name : String} (fixed : fixedNames[type.index]? = some name) :
    type.text = "TypeId::" ++ name := by
  rw [text, fixed]

theorem text_of_not_fixed {type : TypeId} (numbered : fixedNames[type.index]? = none) :
    type.text = "TypeId(" ++ Text.decimal type.index ++ ")" := by
  rw [text, numbered]

theorem isWord_fixedName {name : String} (fixed : name ∈ fixedNames) : Text.IsWord name := by
  revert name
  decide

theorem nodup_fixedNames : fixedNames.Nodup := by decide

theorem unambiguous_text : Unambiguous text := by
  intro left right rest others breaks othersBreak same
  cases leftFixed : fixedNames[left.index]? with
  | none =>
      rw [text_of_not_fixed leftFixed] at same
      cases rightFixed : fixedNames[right.index]? with
      | none =>
          rw [text_of_not_fixed rightFixed] at same
          exact unambiguous_numbered index_injective "TypeId(" breaks othersBreak same
      | some name =>
          rw [text_of_fixed rightFixed] at same
          simp only [String.append_assoc] at same
          exact absurd same (Text.append_ne_append (by decide) _ _)
  | some name =>
      rw [text_of_fixed leftFixed] at same
      cases rightFixed : fixedNames[right.index]? with
      | none =>
          rw [text_of_not_fixed rightFixed] at same
          simp only [String.append_assoc] at same
          exact absurd same (Text.append_ne_append (by decide) _ _)
      | some other =>
          rw [text_of_fixed rightFixed, String.append_assoc, String.append_assoc,
            String.append_right_inj] at same
          obtain ⟨rfl, tail⟩ := Text.eq_of_words
            (isWord_fixedName (List.mem_of_getElem? leftFixed))
            (isWord_fixedName (List.mem_of_getElem? rightFixed)) breaks othersBreak same
          have inside := (List.getElem?_eq_some_iff.mp leftFixed).1
          have place := (List.getElem?_inj inside nodup_fixedNames).mp
            (leftFixed.trans rightFixed.symm)
          exact ⟨index_injective place, tail⟩

end TypeId

/-! ### Ranges and spans -/

theorem ListRange.ends_injective {α : Type} :
    Function.Injective fun range : ListRange α => (range.start.toNat, range.stop) := by
  intro left right same
  obtain ⟨start, len⟩ := left
  obtain ⟨start₂, len₂⟩ := right
  obtain ⟨starts, stops⟩ := Prod.mk.inj same
  dsimp only [stop, length] at starts stops
  have lengths : len.toNat = len₂.toNat := by omega
  rw [UInt32.toNat_inj.mp starts, UInt16.toNat_inj.mp lengths]

theorem Span.ends_injective :
    Function.Injective fun span : Span => (span.start.toNat, span.stop.toNat) := by
  intro left right same
  obtain ⟨start, stop⟩ := left
  obtain ⟨start₂, stop₂⟩ := right
  obtain ⟨starts, stops⟩ := Prod.mk.inj same
  dsimp only at starts stops
  rw [UInt32.toNat_inj.mp starts, UInt32.toNat_inj.mp stops]

/-- The end of a range gives its length. -/
theorem ListRange.unambiguous_text {α : Type} (label : String) :
    Unambiguous (ListRange.text label : ListRange α → String) := by
  have numbers := (unambiguous_decimal.labelled (label ++ "(")).pair ".." (by decide)
    unambiguous_decimal
  have read := (numbers.closed ")" (by decide)).comp
    (fun range : ListRange α => (range.start.toNat, range.stop)) ends_injective
  exact read

theorem Span.unambiguous_text : Unambiguous text := by
  have numbers := unambiguous_decimal.pair ".." (by decide) unambiguous_decimal
  have read := numbers.comp (fun span : Span => (span.start.toNat, span.stop.toNat)) ends_injective
  exact read

end CompilerIR
