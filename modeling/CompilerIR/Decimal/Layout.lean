import CompilerIR.Decimal.Numeral
import CompilerIR.Decimal.Shortest

/-!
Decimals as numerals, positional or with an exponent.
-/

namespace CompilerIR.Decimal

structure Layout where
  tie : Tie
  /-- Least exponent of the leading digit that is still written positionally. -/
  positionalFrom : Int
  /-- Greatest exponent of the leading digit that is still written positionally. -/
  positionalTo : Int

def digitChars (decimal : Decimal) : List Char := (Text.decimal decimal.digits).toList

def leadingExponent (decimal : Decimal) : Int := decimal.exponent + decimal.digitChars.length - 1

def positional (negative : Bool) (decimal : Decimal) : Numeral :=
  if 0 ≤ decimal.exponent then
    ⟨negative, decimal.digits * Nat.pow 10 decimal.exponent.toNat, ['0'], none⟩
  else
    let places := (-decimal.exponent).toNat
    let digits := decimal.digitChars
    let padded := List.replicate (places - digits.length) '0' ++ digits
    ⟨negative, decimal.digits / Nat.pow 10 places, padded.drop (padded.length - places), none⟩

def scientific (negative : Bool) (decimal : Decimal) : Numeral :=
  let fraction := decimal.digitChars.drop 1
  ⟨negative, decimal.digits / Nat.pow 10 fraction.length, fraction, some decimal.leadingExponent⟩

/-- The numeral of a finite value; zero is written positionally and keeps its sign. -/
def Layout.numeral (layout : Layout) (format : BinaryFormat) (negative : Bool) (significand : Nat)
    (exponent : Int) : Numeral :=
  if significand = 0 then ⟨negative, 0, ['0'], none⟩
  else
    let decimal := shortest format layout.tie significand exponent
    let leading := decimal.leadingExponent
    if layout.positionalFrom ≤ leading ∧ leading ≤ layout.positionalTo then
      decimal.positional negative
    else decimal.scientific negative

end CompilerIR.Decimal
