import SchemaQuery.Number.Binary64

/-! The decimal digits of a double-precision number: the fewest digits that read back as the number,
and among those the nearest.  The real numbers that round to `m * 2 ^ q` form an interval around it
whose ends belong to it when `m` is even; a decimal grid is searched for a point of that interval,
from one digit on. -/

namespace SchemaQuery.Binary64

/-- A positive decimal `0.d₁d₂… * 10 ^ (point)`: its digits, none of them leading or trailing zeros,
and the number of digits before the decimal point. -/
structure Decimal where
  digits : List Char
  point : Int

def digitCount (n : Nat) : Nat := (Nat.toDigits 10 n).length

/-- The number of digits that `n / d` has before the decimal point; zero or less when it starts
after it. -/
def pointOf (n d : Nat) : Int :=
  if d ≤ n then digitCount (n / d) else 1 - (digitCount ((d - 1) / n) : Int)

/-- An interval of real numbers around a value, as numerators over one denominator. -/
structure Interval where
  low : Nat
  value : Nat
  high : Nat
  denominator : Nat
  closed : Bool

/-- The real numbers that round to `mantissa * 2 ^ exponent`.  Below a power of two the neighbours
are half as far apart as above it. -/
def interval (mantissa : Nat) (exponent : Int) : Interval :=
  let below := if mantissa = leastMantissa ∧ -1074 < exponent then 1 else 2
  let up := Nat.pow 2 (exponent - 2).toNat
  { low := (4 * mantissa - below) * up
    value := 4 * mantissa * up
    high := (4 * mantissa + 2) * up
    denominator := Nat.pow 2 (2 - exponent).toNat
    closed := mantissa % 2 = 0 }

/-- Whether `n / d` lies in the interval. -/
def Interval.holds (i : Interval) (n d : Nat) : Bool :=
  let l := i.low * d
  let x := n * i.denominator
  let h := i.high * d
  if i.closed then l ≤ x && x ≤ h else l < x && x < h

/-- Which of two decimals a value in the middle between them becomes. -/
inductive Tie
  | up
  | toEven
deriving DecidableEq

/-- Whether the value `floor + part / whole` becomes `floor`. -/
def Tie.keepsFloor (tie : Tie) (floor part whole : Nat) : Bool :=
  2 * part < whole || (2 * part == whole && tie == .toEven && floor % 2 == 0)

/-- The point of the grid with `count` significant digits that is nearest to the value, among those
in the interval, in units of the last digit. -/
def Interval.hit? (i : Interval) (tie : Tie) (point : Int) (count : Nat) : Option Nat :=
  let up := Nat.pow 10 (point - count).toNat
  let down := Nat.pow 10 (count - point).toNat
  let floor := i.value * down / (i.denominator * up)
  let below := i.holds (floor * up) down
  let above := i.holds ((floor + 1) * up) down
  let rest := i.value * down % (i.denominator * up)
  if below && (!above || tie.keepsFloor floor rest (i.denominator * up)) then some floor
  else if above then some (floor + 1)
  else none

/-- The first hit among the grids from `count` digits on. -/
def Interval.search (i : Interval) (tie : Tie) (point : Int) (count : Nat) : Nat → Nat × Nat
  | 0 => ((i.hit? tie point count).getD 0, count)
  | more + 1 =>
    match i.hit? tie point count with
    | some n => (n, count)
    | none => i.search tie point (count + 1) more

def withoutTrailingZeros (digits : List Char) : List Char :=
  (digits.reverse.dropWhile (· == '0')).reverse

/-- The shortest decimal that reads back as the positive number `mantissa * 2 ^ exponent`. -/
def shortest (tie : Tie) (mantissa : Nat) (exponent : Int) : Decimal :=
  let i := interval mantissa exponent
  let point := pointOf i.value i.denominator
  let (n, count) := i.search tie point 1 16
  let digits := Nat.toDigits 10 n
  ⟨withoutTrailingZeros digits, point + ((digits.length : Int) - count)⟩

end SchemaQuery.Binary64
