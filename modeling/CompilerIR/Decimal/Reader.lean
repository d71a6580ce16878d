import CompilerIR.Binary.Format
import CompilerIR.Decimal.Numeral

/-!
Floating-point numbers from numerals. The leading digits are taken as one 64-bit integer,
and a power of ten is multiplied or divided in afterwards, so the last place can differ
from that of the nearest number.
-/

namespace CompilerIR.Numeral

/-- Take digits while the number they write fits into 64 bits; the others are handed
back. -/
def absorb (value : Nat) : List Char → Nat × List Char
  | [] => (value, [])
  | c :: rest =>
      let extended := value * 10 + (c.toNat - '0'.toNat)
      if extended < UInt64.size then absorb extended rest else (value, c :: rest)

/-- A significand of 64 bits and the power of ten to scale it by. A digit of the whole
part that no longer fits counts as a zero, one of the fraction is left out. -/
def parts (numeral : Numeral) : Nat × Int :=
  let (whole, dropped) := absorb 0 (Text.decimal numeral.whole).toList
  let (significand, unused) := absorb whole numeral.fraction
  let places := numeral.fraction.length - unused.length
  (significand, (dropped.length : Int) - places + numeral.exponent.getD 0)

def powerOfTen (exponent : Nat) : Nat := BinaryFormat.double.round false (Nat.pow 10 exponent) 1

/-- Scale by a power of ten, in steps of at most 308 places. A result that would be
infinite is refused. -/
def scale (magnitude : Nat) (exponent : Int) : Option Nat :=
  if exponent < -308 then
    if magnitude = 0 then some 0
    else scale (BinaryFormat.double.divide magnitude (powerOfTen 308)) (exponent + 308)
  else if exponent < 0 then
    some (BinaryFormat.double.divide magnitude (powerOfTen (-exponent).toNat))
  else if exponent ≤ 308 then
    (some (BinaryFormat.double.multiply magnitude (powerOfTen exponent.toNat))).filter
      (· ≠ BinaryFormat.double.infinity)
  else if magnitude = 0 then some 0 else none
termination_by (-exponent).toNat

def double? (numeral : Numeral) : Option Nat :=
  let (significand, exponent) := numeral.parts
  (scale (BinaryFormat.double.round false significand 1) exponent).map
    (BinaryFormat.double.withSign numeral.negative)

def isWord (numeral : Numeral) : Bool :=
  numeral.int?.any fun value => -0x8000000000000000 ≤ value ∧ value ≤ 0xffffffffffffffff

/-- The bits of the single-precision number that the numeral is read as. A 64-bit integer
is rounded once, any other numeral is read as a double first. -/
def single? (numeral : Numeral) : Option Nat :=
  if numeral.isWord then
    some (BinaryFormat.single.round numeral.negative numeral.whole 1)
  else numeral.double?.map (BinaryFormat.double.convert .single)

end CompilerIR.Numeral
