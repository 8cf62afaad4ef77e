/-
The shortest decimal that reads back as a given double.

A double stands for the reals that round to it: an interval around its value, ends included when
its mantissa is even. Of the decimals in that interval the ones with fewest digits are wanted, and
of those the nearest to the value. On a grid of decimals with a fixed number of digits only the two
neighbours of the value can lie in the interval, if any does, so the search tests those two on
ever finer grids, in exact arithmetic on natural numbers; seventeen digits always suffice. When both
neighbours are in and equally near, the larger one is taken.

The text is positional for every magnitude: no exponent, and no point after a whole number.
-/
set_option autoImplicit false

namespace Graft.Decimal

/-- A power of two. -/
def pow2 (k : Nat) : Nat := Nat.pow 2 k

/-- A power of ten. -/
def pow10 (k : Nat) : Nat := Nat.pow 10 k

/-! ## 1. The interval of a double -/

/-- What the sixty-four bits of a double say. -/
inductive Double
  | notANumber
  | infinite (negative : Bool)
  | zero (negative : Bool)
  /-- The value `mantissa * 2 ^ exponent`; `narrow` when the double below is half as far away as
  the one above. -/
  | finite (negative : Bool) (mantissa : Nat) (exponent : Int) (narrow : Bool)

/-- Takes the sign, the exponent and the fraction apart. -/
def Double.ofBits (bits : UInt64) : Double :=
  let n := bits.toNat
  let negative := pow2 63 ≤ n
  let exponent : Nat := n / pow2 52 % pow2 11
  let fraction := n % pow2 52
  if exponent = 2047 then
    if fraction = 0 then .infinite negative else .notANumber
  else if exponent = 0 then
    if fraction = 0 then .zero negative else .finite negative fraction (-1074) false
  else .finite negative (pow2 52 + fraction) ((exponent : Int) - 1075)
    (fraction = 0 && 1 < exponent)

/-- Bounds and centre of an interval, in units of `2 ^ exponent`. -/
structure Interval where
  low : Nat
  centre : Nat
  high : Nat
  closed : Bool
  exponent : Int

/-- The reals that round to `mantissa * 2 ^ exponent`, in quarters of the last place. -/
def Interval.around (mantissa : Nat) (exponent : Int) (narrow : Bool) : Interval where
  low := 4 * mantissa - (if narrow then 1 else 2)
  centre := 4 * mantissa
  high := 4 * mantissa + 2
  closed := mantissa % 2 = 0
  exponent := exponent - 2

/-! ## 2. The search -/

/-- A decimal `digits * 10 ^ exponent`. -/
structure GridPoint where
  digits : Nat
  exponent : Int

/-- The decimal on the grid of multiples of `10 ^ k` that lies in the interval and is nearest to
its centre. Both sides of every comparison are scaled to whole numbers. -/
def Interval.nearestOnGrid? (interval : Interval) (k : Int) : Option GridPoint :=
  let grid := pow10 k.toNat * pow2 (-interval.exponent).toNat
  let unit := pow2 interval.exponent.toNat * pow10 (-k).toNat
  let inside (d : Nat) : Bool :=
    if interval.closed then interval.low * unit ≤ d * grid && d * grid ≤ interval.high * unit
    else interval.low * unit < d * grid && d * grid < interval.high * unit
  let below := interval.centre * unit / grid
  let above := below + 1
  if inside below then
    let aboveIsNear := (2 * below + 1) * grid ≤ 2 * interval.centre * unit
    if inside above && aboveIsNear then some ⟨above, k⟩ else some ⟨below, k⟩
  else if inside above then some ⟨above, k⟩
  else none

/-- The least `p` with the centre below `10 ^ p`. The smallest positive double exceeds
`10 ^ (-324)`, so scaling by `10 ^ 340` leaves a whole part with a known number of digits. -/
def Interval.magnitude (interval : Interval) : Int :=
  let scaled := interval.centre * pow10 340 * pow2 interval.exponent.toNat /
    pow2 (-interval.exponent).toNat
  (Nat.toDigits 10 scaled).length - 340

/-- The shortest decimal of the interval: the first grid with a hit wins. -/
def Interval.shortest (interval : Interval) : GridPoint :=
  let p := interval.magnitude
  ((List.range 17).findSome? (fun (n : Nat) => interval.nearestOnGrid? (p - 1 - n))).getD ⟨0, 0⟩

/-! ## 3. The text -/

/-- Digits in positional notation, without trailing zeros after the point. -/
def GridPoint.positional (d : GridPoint) : String :=
  let shown := Nat.toDigits 10 d.digits
  let trimmed := (shown.reverse.dropWhile (· = '0')).reverse
  let exponent := d.exponent + (shown.length - trimmed.length : Nat)
  let point := trimmed.length + exponent
  if 0 ≤ exponent then String.ofList (trimmed ++ List.replicate exponent.toNat '0')
  else if 0 < point then
    String.ofList (trimmed.take point.toNat ++ '.' :: trimmed.drop point.toNat)
  else String.ofList ('0' :: '.' :: List.replicate (-point).toNat '0' ++ trimmed)

/-- A text with a minus sign in front when the number is negative. -/
def signed (negative : Bool) (text : String) : String := if negative then "-" ++ text else text

/-- The text of a double: its shortest decimal, or the name of what is no number. -/
def Double.text : Double → String
  | .notANumber => "NaN"
  | .infinite negative => signed negative "inf"
  | .zero negative => signed negative "0"
  | .finite negative mantissa exponent narrow =>
    signed negative (Interval.around mantissa exponent narrow).shortest.positional

/-- The shortest text of the double with the given bits. -/
def shortestText (bits : UInt64) : String := (Double.ofBits bits).text

end Graft.Decimal
