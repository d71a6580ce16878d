import CompilerIR.Text.Integer

/-!
Numbers as they are written, digit by digit. What number a numeral stands for is left to
its reader.
-/

namespace CompilerIR

/-- The numeral `whole.fraction` with an optional exponent; without a fraction there is no
point. -/
structure Numeral where
  negative : Bool
  whole : Nat
  fraction : List Char
  exponent : Option Int
deriving DecidableEq

namespace Numeral

def ofInt (value : Int) : Numeral := ⟨value < 0, value.natAbs, [], none⟩

/-- The integer written without a point or an exponent. A negative zero is not one: it
only exists among the floating-point numbers. -/
def int? (numeral : Numeral) : Option Int :=
  if numeral.fraction ≠ [] ∨ numeral.exponent ≠ none then none
  else if numeral.negative then
    if numeral.whole = 0 then none else some (-numeral.whole)
  else some numeral.whole

def text (plus : String) (numeral : Numeral) : String :=
  (if numeral.negative then "-" else "") ++ Text.decimal numeral.whole ++
  (if numeral.fraction = [] then "" else "." ++ String.ofList numeral.fraction) ++
  match numeral.exponent with
  | none => ""
  | some exponent =>
      "e" ++ (if exponent < 0 then "" else plus) ++ Text.signedDecimal exponent

/-- Digits without a zero in front, unless zero is all there is. -/
def whole? : List Char → Option Nat
  | ['0'] => some 0
  | '0' :: _ => none
  | digits => Text.natural? 10 digits

/-- What follows the digits: nothing, or the mark of an exponent and a signed integer. -/
def exponent? : List Char → Option (Option Int)
  | [] => some none
  | mark :: written =>
      if mark = 'e' ∨ mark = 'E' then (Text.integer? written).map some else none

def ofChars? (written : List Char) : Option Numeral := do
  let (negative, unsigned) :=
    match written with
    | '-' :: rest => (true, rest)
    | rest => (false, rest)
  let whole ← whole? (unsigned.takeWhile Char.isDigit)
  match unsigned.dropWhile Char.isDigit with
  | '.' :: rest =>
      let fraction := rest.takeWhile Char.isDigit
      if fraction = [] then none
      else return ⟨negative, whole, fraction, ← exponent? (rest.dropWhile Char.isDigit)⟩
  | rest => return ⟨negative, whole, [], ← exponent? rest⟩

end Numeral

end CompilerIR
