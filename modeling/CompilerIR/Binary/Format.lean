/-!
Binary floating-point formats. A value is read from its bits as an exact multiple of a
power of two, and an exact quotient is rounded back to bits.
-/

namespace CompilerIR

/-- A binary floating-point format, given by the widths of its two fields. -/
structure BinaryFormat where
  fractionBits : Nat
  exponentBits : Nat

namespace BinaryFormat

def single : BinaryFormat := ⟨23, 8⟩

def double : BinaryFormat := ⟨52, 11⟩

/-- A finite value is `significand * 2 ^ exponent`, with its sign apart. -/
inductive Value
  | nan
  | infinite (negative : Bool)
  | finite (negative : Bool) (significand : Nat) (exponent : Int)

def leastExponent (format : BinaryFormat) : Int :=
  2 - Nat.pow 2 (format.exponentBits - 1) - format.fractionBits

def signBit (format : BinaryFormat) : Nat :=
  Nat.pow 2 (format.exponentBits + format.fractionBits)

def infinity (format : BinaryFormat) : Nat :=
  (Nat.pow 2 format.exponentBits - 1) * Nat.pow 2 format.fractionBits

def withSign (format : BinaryFormat) (negative : Bool) (magnitude : Nat) : Nat :=
  if negative then format.signBit + magnitude else magnitude

def decode (format : BinaryFormat) (bits : Nat) : Value :=
  let negative := decide (format.signBit ≤ bits)
  let fraction := bits % Nat.pow 2 format.fractionBits
  let field := bits / Nat.pow 2 format.fractionBits % Nat.pow 2 format.exponentBits
  if field = Nat.pow 2 format.exponentBits - 1 then
    if fraction = 0 then .infinite negative else .nan
  else if field = 0 then
    .finite negative fraction format.leastExponent
  else
    .finite negative (Nat.pow 2 format.fractionBits + fraction) (format.leastExponent + (field - 1))

/-- The two sides of `numerator / (denominator * 2 ^ exponent)` as naturals. -/
def scaled (numerator denominator : Nat) (exponent : Int) : Nat × Nat :=
  if 0 ≤ exponent then (numerator, denominator * Nat.pow 2 exponent.toNat)
  else (numerator * Nat.pow 2 (-exponent).toNat, denominator)

/-- The nearest natural to a quotient; a half goes to the even neighbour. -/
def nearest (numerator denominator : Nat) : Nat :=
  let whole := numerator / denominator
  let twice := 2 * (numerator % denominator)
  if twice < denominator ∨ (twice = denominator ∧ whole % 2 = 0) then whole else whole + 1

/-- The bits of the value nearest to `numerator / denominator`, infinity above the largest
of them. A significand that rounds up to the next power of two carries into the exponent
field by itself. -/
def round (format : BinaryFormat) (negative : Bool) (numerator denominator : Nat) : Nat :=
  if numerator = 0 then format.withSign negative 0
  else
    let estimate : Int := (numerator.log2 : Int) - denominator.log2
    let (above, below) := scaled numerator denominator estimate
    let leading := if above < below then estimate - 1 else estimate
    let exponent := max format.leastExponent (leading - format.fractionBits)
    let (above, below) := scaled numerator denominator exponent
    let magnitude :=
      (exponent - format.leastExponent).toNat * Nat.pow 2 format.fractionBits + nearest above below
    format.withSign negative (min magnitude format.infinity)

/-- The same value, or the one nearest to it, in another format. A quiet sign-free NaN
stands for every NaN. -/
def convert (source target : BinaryFormat) (bits : Nat) : Nat :=
  match source.decode bits with
  | .nan => target.infinity + Nat.pow 2 (target.fractionBits - 1)
  | .infinite negative => target.withSign negative target.infinity
  | .finite negative significand exponent =>
      let (numerator, denominator) := scaled significand 1 (-exponent)
      target.round negative numerator denominator

/-- A finite magnitude as a quotient; the sign is not looked at, and infinity and NaN
count as zero. -/
def quotient (format : BinaryFormat) (bits : Nat) : Nat × Nat :=
  match format.decode bits with
  | .finite _ significand exponent => scaled significand 1 (-exponent)
  | _ => (0, 1)

def multiply (format : BinaryFormat) (left right : Nat) : Nat :=
  let (leftAbove, leftBelow) := format.quotient left
  let (rightAbove, rightBelow) := format.quotient right
  format.round false (leftAbove * rightAbove) (leftBelow * rightBelow)

def divide (format : BinaryFormat) (left right : Nat) : Nat :=
  let (leftAbove, leftBelow) := format.quotient left
  let (rightAbove, rightBelow) := format.quotient right
  format.round false (leftAbove * rightBelow) (leftBelow * rightAbove)

/-- Equality of values: a NaN differs from itself, and the two zeros are one. -/
def equal (format : BinaryFormat) (left right : Nat) : Bool :=
  match format.decode left, format.decode right with
  | .nan, _ => false
  | _, .nan => false
  | .finite _ 0 _, .finite _ 0 _ => true
  | _, _ => left == right

end BinaryFormat

end CompilerIR
