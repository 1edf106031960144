/-!
# The shortest decimal of a floating-point number

A message that quotes a number of a document shows it by the fewest decimal digits that still read
back as that number.  Everything here is exact arithmetic on natural numbers.

* A finite nonzero double is `m · 2^q`, read off its bits (`Dyadic.ofBits`).
* The reals that round to it form an interval around it.  Its ends lie half-way to the two
  neighbouring doubles, and belong to it exactly when `m` is even.
* The decimals with exponent `e` form a grid of step `10^e`.  `Dyadic.gridPoint` looks at the two
  grid points around the number and takes the one in the interval, the nearer one if both are,
  and the one with an even last digit if they are equally near.
* `Dyadic.shortest` tries the grids from coarse to fine.  The coarsest grid with a point in the
  interval is the one with the fewest digits.

The format of a number in a message is `realText`: positional with a decimal point for numbers of
ordinary size, and with an exponent for very large and very small ones.
-/

set_option autoImplicit false

namespace TypeDiagram

/-- The positive number `significand · 2^exponent`. -/
structure Dyadic where
  significand : Nat
  exponent : Int
deriving DecidableEq

/-- The number `digits · 10^exponent`. -/
structure Decimal where
  digits : Nat
  exponent : Int
deriving DecidableEq

/-- The power `2^n`. -/
def twoTo (n : Nat) : Nat := Nat.pow 2 n

/-- The power `10^n`. -/
def tenTo (n : Nat) : Nat := Nat.pow 10 n

namespace Dyadic

/-! ## Reading the bits -/

/-- The absolute value of the double with these bits.  An exponent field of zero marks the
subnormal numbers, which lack the leading bit. -/
def ofBits (bits : Nat) : Dyadic :=
  let fraction := bits % twoTo 52
  let scale := bits / twoTo 52 % twoTo 11
  if scale = 0 then ⟨fraction, -1074⟩ else ⟨twoTo 52 + fraction, Int.ofNat scale - 1075⟩

/-! ## The interval of reals that round to the number

The ends are given in quarters of the last place: the number itself is `4 · significand` of them.
-/

/-- The lower end.  Just above a power of two the neighbour below is only half as far away. -/
def lowerEnd (x : Dyadic) : Nat :=
  if x.significand = twoTo 52 ∧ -1074 < x.exponent then 4 * x.significand - 1
  else 4 * x.significand - 2

/-- The upper end. -/
def upperEnd (x : Dyadic) : Nat := 4 * x.significand + 2

/-- The number of quarters, brought to a denominator common with the grid of step `10^e`. -/
def quarters (x : Dyadic) (e : Int) (k : Nat) : Nat :=
  k * twoTo (x.exponent - 2).toNat * tenTo (-e).toNat

/-- The step of the grid `10^e`, brought to a denominator common with the quarters of `x`. -/
def gridStep (x : Dyadic) (e : Int) : Nat :=
  tenTo e.toNat * twoTo (2 - x.exponent).toNat

/-- Does the decimal `digits · 10^e` read back as `x`? -/
def readsBack (x : Dyadic) (e : Int) (digits : Nat) : Bool :=
  let point := digits * x.gridStep e
  let lower := x.quarters e x.lowerEnd
  let upper := x.quarters e x.upperEnd
  digits != 0 &&
    if x.significand % 2 = 0 then decide (lower ≤ point ∧ point ≤ upper)
    else decide (lower < point ∧ point < upper)

/-! ## From coarse grids to fine ones -/

/-- Of the grid points `below` and `below + 1` around a value, the nearer one, and the even one if
they are equally near. -/
def nearer (value step below : Nat) : Nat :=
  let gapBelow := value - below * step
  let gapAbove := (below + 1) * step - value
  if gapBelow < gapAbove then below
  else if gapAbove < gapBelow then below + 1
  else if below % 2 = 0 then below
  else below + 1

/-- The point of the grid `10^e` that stands for `x`, if one does. -/
def gridPoint (x : Dyadic) (e : Int) : Option Nat :=
  let value := x.quarters e (4 * x.significand)
  let step := x.gridStep e
  let below := value / step
  let above := below + 1
  match x.readsBack e below, x.readsBack e above with
  | true, true => some (nearer value step below)
  | true, false => some below
  | false, true => some above
  | false, false => none

/-- The first grid with a point, of the `count` grids from `10^e` downwards. -/
def firstGrid (x : Dyadic) : Nat → Int → Decimal
  | 0, e => ⟨0, e⟩
  | count + 1, e =>
    match x.gridPoint e with
    | some digits => ⟨digits, e⟩
    | none => x.firstGrid count (e - 1)

/-- The decimal with the fewest digits that reads back as `x`.  No double reaches `10^309`, and
the finest grid that any of them needs is `10^(-324)`. -/
def shortest (x : Dyadic) : Decimal := x.firstGrid 634 309

end Dyadic

/-! ## Notation -/

namespace Decimal

/-- The power of ten at which the first digit stands. -/
def magnitude (d : Decimal) : Int := d.exponent + (Nat.toDigits 10 d.digits).length - 1

/-- A decimal written positionally, with at least one digit on either side of the point. -/
def positional (d : Decimal) : String :=
  let digits := Nat.toDigits 10 d.digits
  let places := (-d.exponent).toNat
  let whole := digits ++ List.replicate d.exponent.toNat '0'
  let padded := List.replicate (places + 1 - whole.length) '0' ++ whole
  let cut := padded.length - places
  let fraction := padded.drop cut
  String.ofList (padded.take cut ++ '.' :: if fraction.isEmpty then ['0'] else fraction)

/-- A decimal written with an exponent: one digit, the others after a point if there are any, and
the magnitude with its sign. -/
def exponential (d : Decimal) : String :=
  let digits := Nat.toDigits 10 d.digits
  let fraction := digits.drop 1
  String.ofList (digits.take 1 ++ if fraction.isEmpty then [] else '.' :: fraction) ++ "e" ++
    (if d.magnitude < 0 then "-" else "+") ++ toString d.magnitude.natAbs

/-- Decimals from `10^(-5)` up to but not including `10^16` are written positionally, all others
with an exponent. -/
def render (d : Decimal) : String :=
  if -5 ≤ d.magnitude ∧ d.magnitude < 16 then d.positional else d.exponential

end Decimal

/-- A finite double as messages show it: the shortest decimal that reads back, with a minus sign
when the sign bit is set, also on zero. -/
def realText (x : Float) : String :=
  let bits := x.toBits.toNat
  let size := Dyadic.ofBits bits
  let shown := if size.significand = 0 then ⟨0, 0⟩ else size.shortest
  (if bits / twoTo 63 = 0 then "" else "-") ++ shown.render

end TypeDiagram
