import CompilerIR.Decimal.Numeral
import Mathlib.Data.List.TakeWhile

/-!
Numerals as they may be spelled. Main statements: the reader takes every spelling of a numeral
for that numeral, and what is written for a numeral is one of its spellings.
-/

namespace CompilerIR

def IsRun (digits : List Char) : Prop := digits ≠ [] ∧ ∀ c ∈ digits, c.isDigit

def runValue (digits : List Char) : Nat := Nat.ofDigitChars 10 digits 0

theorem isRun_toDigits (n : Nat) : IsRun (Nat.toDigits 10 n) :=
  ⟨Nat.toDigits_ne_nil, fun _c member =>
    Nat.isDigit_of_mem_toDigits (by decide) (by decide) member⟩

theorem runValue_toDigits (n : Nat) : runValue (Nat.toDigits 10 n) = n :=
  Nat.ofDigitChars_ten_toDigits

namespace Text

theorem digit?_of_isDigit {c : Char} (digit : c.isDigit) :
    digit? 10 c = some (c.toNat - '0'.toNat) := by
  have bounds := Char.isDigit_iff_toNat.mp digit
  have between : '0' ≤ c ∧ c ≤ '9' := ⟨bounds.1, bounds.2⟩
  have small : c.toNat - '0'.toNat < 10 := by
    have last : c.toNat ≤ 57 := bounds.2
    have first : '0'.toNat = 48 := rfl
    omega
  rw [digit?, hexDigit?, if_pos between, Option.filter_some, if_pos (decide_eq_true small)]

theorem foldlM_digit? {digits : List Char} (all : ∀ c ∈ digits, c.isDigit) (value : Nat) :
    digits.foldlM (fun value c => (digit? 10 c).map (value * 10 + ·)) value =
      some (Nat.ofDigitChars 10 digits value) := by
  induction digits generalizing value with
  | nil => rfl
  | cons c rest inductionHypothesis =>
      rw [List.foldlM_cons, digit?_of_isDigit (all c List.mem_cons_self), Nat.ofDigitChars_cons,
        Nat.mul_comm 10 value]
      exact inductionHypothesis (fun d member => all d (List.mem_cons_of_mem c member)) _

theorem natural?_of_isRun {digits : List Char} (run : IsRun digits) :
    natural? 10 digits = some (runValue digits) := by
  cases digits with
  | nil => exact absurd rfl run.1
  | cons c rest => exact foldlM_digit? run.2 0

end Text

namespace Numeral

inductive ExponentSpelled : Option Int → List Char → Prop
  | absent : ExponentSpelled none []
  | bare {mark : Char} {digits : List Char} :
      mark = 'e' ∨ mark = 'E' → IsRun digits →
        ExponentSpelled (some (runValue digits)) (mark :: digits)
  | plus {mark : Char} {digits : List Char} :
      mark = 'e' ∨ mark = 'E' → IsRun digits →
        ExponentSpelled (some (runValue digits)) (mark :: '+' :: digits)
  | minus {mark : Char} {digits : List Char} :
      mark = 'e' ∨ mark = 'E' → IsRun digits →
        ExponentSpelled (some (-runValue digits)) (mark :: '-' :: digits)

inductive FractionSpelled : List Char → List Char → Prop
  | absent : FractionSpelled [] []
  | point {digits : List Char} : IsRun digits → FractionSpelled digits ('.' :: digits)

def sign (negative : Bool) : List Char := if negative then ['-'] else []

/-- The whole part has no zero in front, and all digits of the fraction count. -/
def Spelled (numeral : Numeral) (written : List Char) : Prop :=
  ∃ fraction exponent, FractionSpelled numeral.fraction fraction ∧
    ExponentSpelled numeral.exponent exponent ∧
    written = sign numeral.negative ++ (Nat.toDigits 10 numeral.whole ++ (fraction ++ exponent))

/-! ### Reading -/

/-- Only zero is written with a zero in front. -/
theorem eq_zero_of_toDigits {n : Nat} {rest : List Char}
    (starts : Nat.toDigits 10 n = '0' :: rest) : n = 0 := by
  induction n using Nat.strong_induction_on generalizing rest with
  | _ n inductionHypothesis =>
      by_cases small : n < 10
      · rw [Nat.toDigits_of_lt_base small, List.cons.injEq] at starts
        exact Nat.digitChar_eq_zero.mp starts.1
      · have smaller : n / 10 < n := by omega
        rw [Nat.toDigits_of_base_le (by decide) (by omega)] at starts
        cases front : Nat.toDigits 10 (n / 10) with
        | nil => exact absurd front Nat.toDigits_ne_nil
        | cons c others =>
            rw [front, List.cons_append, List.cons.injEq] at starts
            have none := inductionHypothesis (n / 10) smaller (starts.1 ▸ front)
            omega

theorem whole?_toDigits (n : Nat) : whole? (Nat.toDigits 10 n) = some n := by
  unfold whole?
  split
  · rename_i alone
    rw [eq_zero_of_toDigits alone]
  · rename_i digits others starts
    have zero := eq_zero_of_toDigits starts
    subst zero
    rw [Nat.toDigits_zero, List.cons.injEq] at starts
    exact absurd starts.2.symm others
  · rw [Text.natural?_of_isRun (isRun_toDigits n), runValue_toDigits]

theorem exponent?_of_spelled {exponent : Option Int} {written : List Char}
    (spelled : ExponentSpelled exponent written) : exponent? written = some exponent := by
  cases spelled with
  | absent => rfl
  | bare isMark run =>
      rename_i mark digits
      have unsigned : Text.integer? digits = some (runValue digits : Int) := by
        unfold Text.integer?
        split
        · exact absurd (run.2 '-' List.mem_cons_self) (by decide)
        · exact absurd (run.2 '+' List.mem_cons_self) (by decide)
        · rw [Text.natural?_of_isRun run]
          rfl
      rw [exponent?, if_pos isMark, unsigned]
      rfl
  | plus isMark run =>
      rw [exponent?, if_pos isMark, Text.integer?, Text.natural?_of_isRun run]
      rfl
  | minus isMark run =>
      rw [exponent?, if_pos isMark, Text.integer?, Text.natural?_of_isRun run]
      rfl

/-- The characters of one class in front of anything that does not go on with one. -/
theorem span_run {inClass : Char → Bool} {run rest : List Char} (all : ∀ c ∈ run, inClass c = true)
    (ends : ∀ c ∈ rest.head?, ¬inClass c = true) :
    (run ++ rest).takeWhile inClass = run ∧ (run ++ rest).dropWhile inClass = rest := by
  rw [List.takeWhile_append_of_pos all, List.dropWhile_append_of_pos all]
  cases rest with
  | nil => exact ⟨List.append_nil run, rfl⟩
  | cons c others =>
      have stops : ¬inClass c = true := ends c rfl
      rw [List.takeWhile_cons_of_neg stops, List.dropWhile_cons_of_neg stops, List.append_nil]
      exact ⟨rfl, rfl⟩

theorem head_of_exponentSpelled {exponent : Option Int} {written : List Char}
    (spelled : ExponentSpelled exponent written) :
    ∀ c ∈ written.head?, c = 'e' ∨ c = 'E' := by
  intro c first
  cases spelled with
  | absent => cases first
  | bare isMark run | plus isMark run | minus isMark run =>
      cases first
      exact isMark

theorem not_isDigit_of_mark {c : Char} (isMark : c = 'e' ∨ c = 'E') : ¬c.isDigit := by
  rcases isMark with rfl | rfl <;> decide

def unsigned? (negative : Bool) (unsigned : List Char) : Option Numeral := do
  let whole ← whole? (unsigned.takeWhile Char.isDigit)
  match unsigned.dropWhile Char.isDigit with
  | '.' :: rest =>
      let fraction := rest.takeWhile Char.isDigit
      if fraction = [] then none
      else return ⟨negative, whole, fraction, ← exponent? (rest.dropWhile Char.isDigit)⟩
  | rest => return ⟨negative, whole, [], ← exponent? rest⟩

theorem ofChars?_of_unsigned {written : List Char} (unsigned : written.head? ≠ some '-') :
    ofChars? written = unsigned? false written := by
  cases written with
  | nil => rfl
  | cons c rest =>
      have other : c ≠ '-' := fun same => unsigned (congrArg some same)
      unfold ofChars?
      split
      · rename_i starts
        split at starts
        · rename_i minus
          exact absurd (List.cons.inj minus).1 other
        · cases starts
          rfl

theorem unsigned?_of_spelled {numeral : Numeral} {fraction exponent : List Char}
    (fractionSpelled : FractionSpelled numeral.fraction fraction)
    (exponentSpelled : ExponentSpelled numeral.exponent exponent) :
    unsigned? numeral.negative (Nat.toDigits 10 numeral.whole ++ (fraction ++ exponent)) =
      some numeral := by
  obtain ⟨negative, whole, digits, written⟩ := numeral
  have exponentRead := exponent?_of_spelled exponentSpelled
  have exponentStarts : ∀ c ∈ exponent.head?, ¬c.isDigit := fun c first =>
    not_isDigit_of_mark (head_of_exponentSpelled exponentSpelled c first)
  cases fractionSpelled with
  | absent =>
      have wholeSpan := span_run (isRun_toDigits whole).2 exponentStarts
      -- The reader asks for a point first, and an exponent does not start with one.
      have noPoint : ∀ rest, exponent ≠ '.' :: rest := by
        rintro rest rfl
        exact absurd (head_of_exponentSpelled exponentSpelled '.' rfl) (by decide)
      simp only [unsigned?, List.nil_append, wholeSpan.1, wholeSpan.2, whole?_toDigits,
        exponentRead]
      rfl
  | point run =>
      have pointStarts : ∀ c ∈ ('.' :: (digits ++ exponent)).head?, ¬c.isDigit := by
        rintro c ⟨⟩
        decide
      have wholeSpan := span_run (isRun_toDigits whole).2 pointStarts
      have fractionSpan := span_run run.2 exponentStarts
      simp only [unsigned?, List.cons_append, wholeSpan.1, wholeSpan.2, whole?_toDigits,
        fractionSpan.1, fractionSpan.2, exponentRead]
      exact if_neg run.1

theorem head_of_toDigits_append (n : Nat) (rest : List Char) :
    ∃ c, (Nat.toDigits 10 n ++ rest).head? = some c ∧ c.isDigit := by
  obtain ⟨notEmpty, all⟩ := isRun_toDigits n
  cases digits : Nat.toDigits 10 n with
  | nil => exact absurd digits notEmpty
  | cons c others => exact ⟨c, rfl, all c (digits ▸ List.mem_cons_self)⟩

theorem ofChars?_of_spelled {numeral : Numeral} {written : List Char}
    (spelled : numeral.Spelled written) : ofChars? written = some numeral := by
  obtain ⟨fraction, exponent, fractionSpelled, exponentSpelled, rfl⟩ := spelled
  have read := unsigned?_of_spelled fractionSpelled exponentSpelled
  cases negative : numeral.negative with
  | true =>
      rw [negative] at read
      exact read
  | false =>
      rw [negative] at read
      obtain ⟨c, first, digit⟩ :=
        head_of_toDigits_append numeral.whole (fraction ++ exponent)
      have unsigned : (Nat.toDigits 10 numeral.whole ++ (fraction ++ exponent)).head? ≠
          some '-' := by
        rw [first]
        rintro ⟨⟩
        exact absurd digit (by decide)
      exact (ofChars?_of_unsigned unsigned).trans read

/-! ### Writing -/

/-- A numeral that the grammar knows: nothing but digits stands behind the point. -/
def Regular (numeral : Numeral) : Prop := ∀ c ∈ numeral.fraction, c.isDigit

theorem toList_decimal (n : Nat) : (Text.decimal n).toList = Nat.toDigits 10 n :=
  Nat.toList_repr

theorem exponentSpelled_text (exponent : Int) :
    ExponentSpelled (some exponent)
      ("e" ++ (if exponent < 0 then "" else "+") ++ Text.signedDecimal exponent).toList := by
  cases exponent with
  | ofNat n =>
      have spelled := ExponentSpelled.plus (.inl rfl) (isRun_toDigits n)
      rw [runValue_toDigits] at spelled
      have notNegative : ¬Int.ofNat n < 0 := Int.not_lt.mpr (Int.natCast_nonneg n)
      rw [if_neg notNegative, String.toList_append, Text.signedDecimal, toList_decimal]
      exact spelled
  | negSucc n =>
      have spelled := ExponentSpelled.minus (.inl rfl) (isRun_toDigits (n + 1))
      rw [runValue_toDigits] at spelled
      rw [if_pos (Int.negSucc_lt_zero n), String.toList_append, Text.signedDecimal,
        @String.toList_append "-", toList_decimal]
      exact spelled

theorem Regular.spelled {numeral : Numeral} (regular : numeral.Regular) :
    numeral.Spelled (numeral.text "+").toList := by
  obtain ⟨negative, whole, digits, exponent⟩ := numeral
  have signText : (if negative then "-" else "").toList = sign negative := by
    cases negative <;> rfl
  have fractionSpelled : FractionSpelled digits
      (if digits = [] then "" else "." ++ String.ofList digits).toList := by
    by_cases none : digits = []
    · rw [if_pos none, none]
      exact .absent
    · rw [if_neg none, String.toList_append, @String.toList_ofList digits]
      exact .point ⟨none, regular⟩
  cases exponent with
  | none =>
      refine ⟨_, _, fractionSpelled, .absent, ?_⟩
      simp only [text, String.toList_append, List.append_assoc, signText, toList_decimal]
      rfl
  | some exponent =>
      refine ⟨_, _, fractionSpelled, exponentSpelled_text exponent, ?_⟩
      simp only [text, String.toList_append, List.append_assoc, signText, toList_decimal]

theorem regular_ofInt (value : Int) : (ofInt value).Regular := by
  rintro c ⟨⟩

theorem int?_ofInt (value : Int) : (ofInt value).int? = some value := by
  unfold int? ofInt
  rw [if_neg (by simp)]
  by_cases negative : value < 0
  · have nonzero : value.natAbs ≠ 0 := by omega
    have absolute : -(value.natAbs : Int) = value := by omega
    simp only [negative, decide_true, if_true, nonzero, if_false, absolute]
  · have absolute : (value.natAbs : Int) = value := by omega
    simp only [negative, decide_false, Bool.false_eq_true, if_false, absolute]

end Numeral

end CompilerIR
