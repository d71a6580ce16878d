import CompilerIR.Binary.Format

/-!
Shortest decimals. Of all decimals that round to a given binary value, the shortest are
those on the coarsest power-of-ten grid, and of these the nearest to the value is taken.
-/

namespace CompilerIR

structure Decimal where
  digits : Nat
  exponent : Int
deriving DecidableEq

namespace Decimal

inductive Tie
  | up
  | even
deriving DecidableEq

/-- The numbers that round to `significand * 2 ^ exponent`, in quarters of its last
place. -/
structure Interval where
  low : Nat
  value : Nat
  high : Nat
  /-- Whether the two ends themselves round to the value. -/
  closed : Bool
  /-- Exponent of one quarter of the last place. -/
  unit : Int

/-- Below a power of two the neighbour is only half as far away, unless the format has no
finer exponent left. -/
def Interval.around (format : BinaryFormat) (significand : Nat) (exponent : Int) : Interval where
  low :=
    if significand = Nat.pow 2 format.fractionBits ∧ format.leastExponent < exponent then
      4 * significand - 1
    else 4 * significand - 2
  value := 4 * significand
  high := 4 * significand + 2
  closed := significand % 2 = 0
  unit := exponent - 2

def compareWith (digits : Nat) (grid : Int) (quarters : Nat) (unit : Int) : Ordering :=
  compare (digits * Nat.pow 10 grid.toNat * Nat.pow 2 (-unit).toNat)
    (quarters * Nat.pow 2 unit.toNat * Nat.pow 10 (-grid).toNat)

def Interval.contains (interval : Interval) (digits : Nat) (grid : Int) : Bool :=
  (match compareWith digits grid interval.low interval.unit with
    | .lt => false
    | .eq => interval.closed
    | .gt => true) &&
  (match compareWith digits grid interval.high interval.unit with
    | .lt => true
    | .eq => interval.closed
    | .gt => false)

def Interval.below (interval : Interval) (grid : Int) : Nat :=
  interval.value * Nat.pow 2 interval.unit.toNat * Nat.pow 10 (-grid).toNat /
    (Nat.pow 10 grid.toNat * Nat.pow 2 (-interval.unit).toNat)

def Interval.prefersUpper (interval : Interval) (tie : Tie) (lower : Nat) (grid : Int) : Bool :=
  match compareWith (2 * lower + 1) grid (2 * interval.value) interval.unit with
  | .lt => true
  | .gt => false
  | .eq => tie = .up || lower % 2 = 1

/-- The decimal on this grid that rounds to the value and is nearest to it. -/
def Interval.onGrid? (interval : Interval) (tie : Tie) (grid : Int) : Option Decimal :=
  let lower := interval.below grid
  let preferred := if interval.prefersUpper tie lower grid then lower + 1 else lower
  let other := if preferred = lower then lower + 1 else lower
  if interval.contains preferred grid then some ⟨preferred, grid⟩
  else if interval.contains other grid then some ⟨other, grid⟩
  else none

/-- A grid that is too coarse for any multiple but zero to lie below `value * 2 ^ unit`: a
power of ten has more than three binary digits for each of its zeros. -/
def Interval.coarsest (interval : Interval) : Int :=
  ((interval.value.log2 + interval.unit) * 30103) / 100000 + 2

/-- Seventeen digits tell all doubles apart, so a grid with a hit is reached within twenty
steps. -/
def shortest (format : BinaryFormat) (tie : Tie) (significand : Nat) (exponent : Int) : Decimal :=
  let interval := Interval.around format significand exponent
  let grid (step : Nat) : Int := interval.coarsest - step
  ((List.range 20).findSome? fun step => interval.onGrid? tie (grid step)).getD
    ⟨interval.below (grid 20), grid 20⟩

end Decimal

end CompilerIR
