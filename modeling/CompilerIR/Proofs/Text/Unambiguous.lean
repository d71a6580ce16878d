import CompilerIR.Proofs.Decimal.Numeral
import CompilerIR.Text.Record
import Mathlib.Data.List.Forall2

/-!
Texts that can be told from what follows them. Main statement: words and numbers end where no
letter or digit follows, and what is put together from such texts with marks in between can be
taken apart again.
-/

namespace CompilerIR.Text

def Breaks (text : String) : Prop := ∀ c ∈ text.toList.head?, ¬c.isAlphanum = true

theorem breaks_empty : Breaks "" := nofun

theorem breaks_append {mark : String} (apart : mark.toList.head?.any (!·.isAlphanum) = true)
    (rest : String) : Breaks (mark ++ rest) := by
  obtain ⟨first, head, notWord⟩ := (Option.any_eq_true _ _).mp apart
  intro c starts
  rw [String.toList_append, List.head?_append, head] at starts
  cases starts
  exact (Bool.not_eq_true' _).mp notWord ▸ Bool.false_ne_true

def IsWord (text : String) : Prop := ∀ c ∈ text.toList, c.isAlphanum = true

instance (text : String) : Decidable (IsWord text) :=
  decidable_of_iff (text.toList.all (·.isAlphanum) = true) List.all_eq_true

theorem eq_of_words {left right rest others : String} (leftWord : IsWord left)
    (rightWord : IsWord right) (breaks : Breaks rest) (othersBreak : Breaks others)
    (same : left ++ rest = right ++ others) : left = right ∧ rest = others := by
  have lists := congrArg String.toList same
  rw [String.toList_append, String.toList_append] at lists
  obtain ⟨leftTaken, restLeft⟩ := Numeral.span_run leftWord breaks
  obtain ⟨rightTaken, othersLeft⟩ := Numeral.span_run rightWord othersBreak
  constructor
  · rw [← String.toList_inj, ← leftTaken, lists, rightTaken]
  · rw [← String.toList_inj, ← restLeft, lists, othersLeft]

/-- Where neither begins with the other, no continuation makes up for it. -/
theorem append_ne_append {left right : String}
    (differ : ¬left.toList <+: right.toList ∧ ¬right.toList <+: left.toList)
    (rest others : String) : left ++ rest ≠ right ++ others := by
  intro same
  have lists := congrArg String.toList same
  rw [String.toList_append, String.toList_append] at lists
  have leftBegins : left.toList <+: right.toList ++ others.toList :=
    lists ▸ List.prefix_append _ _
  rcases List.prefix_or_prefix_of_prefix leftBegins (List.prefix_append _ _) with begins | begins
  · exact differ.1 begins
  · exact differ.2 begins

/-- Whatever follows them, as long as it does not go on with a letter or digit, the texts of
different values differ. -/
def Unambiguous {α : Type} (text : α → String) : Prop :=
  ∀ ⦃left right : α⦄ ⦃rest others : String⦄, Breaks rest → Breaks others →
    text left ++ rest = text right ++ others → left = right ∧ rest = others

namespace Unambiguous

variable {α β γ : Type} {text : α → String} {other : β → String}

theorem injective (unambiguous : Unambiguous text) : Function.Injective text := by
  intro left right same
  exact (unambiguous breaks_empty breaks_empty (congrArg (· ++ "") same)).1

theorem ofWords (injective : Function.Injective text) (words : ∀ value, IsWord (text value)) :
    Unambiguous text := by
  intro left right rest others breaks othersBreak same
  obtain ⟨word, tail⟩ := eq_of_words (words left) (words right) breaks othersBreak same
  exact ⟨injective word, tail⟩

/-- The text of what a value is made of. -/
theorem comp (unambiguous : Unambiguous text) (parts : γ → α)
    (injective : Function.Injective parts) : Unambiguous fun value => text (parts value) := by
  intro left right rest others breaks othersBreak same
  exact (unambiguous breaks othersBreak same).imp_left fun parts => injective parts

theorem labelled (unambiguous : Unambiguous text) (label : String) :
    Unambiguous fun value => label ++ text value := by
  intro left right rest others breaks othersBreak same
  rw [String.append_assoc, String.append_assoc, String.append_right_inj] at same
  exact unambiguous breaks othersBreak same

section Mark

variable (mark : String) (apart : mark.toList.head?.any (!·.isAlphanum) = true)

include apart

/-- Behind a mark may come anything. -/
theorem before_mark (unambiguous : Unambiguous text) {left right : α} {rest others : String}
    (same : text left ++ (mark ++ rest) = text right ++ (mark ++ others)) :
    left = right ∧ rest = others := by
  obtain ⟨value, tail⟩ := unambiguous (breaks_append apart rest) (breaks_append apart others) same
  exact ⟨value, (String.append_right_inj mark).mp tail⟩

theorem closed (unambiguous : Unambiguous text) : Unambiguous fun value => text value ++ mark := by
  intro left right rest others _breaks _othersBreak same
  rw [String.append_assoc, String.append_assoc] at same
  exact unambiguous.before_mark mark apart same

theorem pair (unambiguous : Unambiguous text) (also : Unambiguous other) :
    Unambiguous fun values : α × β => text values.1 ++ mark ++ other values.2 := by
  rintro ⟨left, left₂⟩ ⟨right, right₂⟩ rest others breaks othersBreak same
  simp only [String.append_assoc] at same
  obtain ⟨rfl, tail⟩ := unambiguous.before_mark mark apart same
  obtain ⟨rfl, last⟩ := also breaks othersBreak tail
  exact ⟨rfl, last⟩

end Mark

end Unambiguous

/-- Entries separated by a mark, where each can be told from what follows once its place is
known. -/
theorem eq_of_intercalate {α : Type} {text : α → String} {Related : α → α → Prop} {mark : String}
    (apart : mark.toList.head?.any (!·.isAlphanum) = true)
    (readable : ∀ ⦃left right : α⦄ ⦃rest others : String⦄, Related left right → Breaks rest →
      Breaks others → text left ++ rest = text right ++ others → left = right ∧ rest = others)
    {left right : List α} (related : List.Forall₂ Related left right) {rest others : String}
    (breaks : Breaks rest) (othersBreak : Breaks others)
    (same : mark.intercalate (left.map text) ++ rest = mark.intercalate (right.map text) ++ others) :
    left = right ∧ rest = others := by
  induction related with
  | nil => exact ⟨rfl, (String.append_right_inj _).mp same⟩
  | cons first tail inductionHypothesis =>
      cases tail with
      | nil =>
          simp only [List.map_cons, List.map_nil, String.intercalate_singleton] at same
          obtain ⟨rfl, last⟩ := readable first breaks othersBreak same
          exact ⟨rfl, last⟩
      | cons second tail =>
          simp only [List.map_cons, String.intercalate_cons_cons, String.append_assoc] at same
          obtain ⟨rfl, following⟩ :=
            readable first (breaks_append apart _) (breaks_append apart _) same
          obtain ⟨entries, last⟩ := inductionHypothesis ((String.append_right_inj mark).mp following)
          exact ⟨congrArg _ entries, last⟩

/-! ### Numbers and truth values -/

theorem isWord_decimal (n : Nat) : IsWord (decimal n) := by
  intro c member
  rw [Numeral.toList_decimal] at member
  have digit : c.isDigit = true := (isRun_toDigits n).2 c member
  rw [Char.isAlphanum, digit, Bool.or_true]

theorem decimal_injective : Function.Injective decimal := by
  intro left right same
  have digits := congrArg String.toList same
  rw [Numeral.toList_decimal, Numeral.toList_decimal] at digits
  rw [← runValue_toDigits left, digits, runValue_toDigits]

theorem unambiguous_decimal : Unambiguous decimal := .ofWords decimal_injective isWord_decimal

theorem decimal_append_ne_minus (n : Nat) (rest others : String) :
    decimal n ++ rest ≠ "-" ++ others := by
  intro same
  have lists := congrArg (fun text => text.toList.head?) same
  obtain ⟨c, first, digit⟩ := Numeral.head_of_toDigits_append n rest.toList
  simp only [String.toList_append, Numeral.toList_decimal, first] at lists
  cases lists
  exact absurd digit (by decide)

theorem unambiguous_signedDecimal : Unambiguous signedDecimal := by
  intro left right rest others breaks othersBreak same
  cases left with
  | ofNat m =>
      cases right with
      | ofNat n => exact (unambiguous_decimal breaks othersBreak same).imp_left (congrArg Int.ofNat)
      | negSucc n =>
          rw [signedDecimal, signedDecimal, String.append_assoc] at same
          exact absurd same (decimal_append_ne_minus m rest _)
  | negSucc m =>
      cases right with
      | ofNat n =>
          rw [signedDecimal, signedDecimal, String.append_assoc] at same
          exact absurd same.symm (decimal_append_ne_minus n others _)
      | negSucc n =>
          obtain ⟨value, tail⟩ := (unambiguous_decimal.labelled "-") breaks othersBreak same
          exact ⟨congrArg Int.negSucc (Nat.succ.inj value), tail⟩

theorem boolean_injective : Function.Injective boolean := by
  unfold Function.Injective
  decide

theorem isWord_boolean (value : Bool) : IsWord (boolean value) := by
  cases value <;> decide

theorem unambiguous_boolean : Unambiguous boolean := .ofWords boolean_injective isWord_boolean

end CompilerIR.Text
