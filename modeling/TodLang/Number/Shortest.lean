import TodLang.Number.Binary64
/-!
The decimal text of a binary64 number: the fewest digits that read back as the same number, and of
those the nearest ones, written without an exponent. A number is found among the decimals by the
interval of reals that round to it; the two neighbours of the number on each decimal grid are
tried, from one digit on.
-/

namespace TodLang

/-- A decimal number: `digits * 10 ^ exponent`. -/
structure Decimal where
  digits : Nat
  exponent : Int
  deriving DecidableEq, Repr, Inhabited

/-- The number of decimal digits of a natural number. -/
def digitCount (n : Nat) : Nat :=
  (Nat.toDigits 10 n).length

/-- The reals that round to a positive number: `value / scale` itself and the two ends, which
belong to the interval if it is closed. -/
structure RoundingInterval where
  low : Nat
  value : Nat
  high : Nat
  scale : Nat
  closed : Bool
  deriving DecidableEq, Repr, Inhabited

namespace RoundingInterval

/-- The ends lie half way to the neighbours. The neighbour below a power of two is nearer, unless
it has the least exponent. All counts are in quarters of the last binary digit. -/
def ofBinary64 (x : Binary64) : RoundingInterval :=
  let m := x.significand
  let nearer := m = Binary64.fractionLimit ∧ x.exponentField > 1
  let quarter : Int := x.exponent - 2
  let up := if quarter < 0 then 1 else Nat.pow 2 quarter.natAbs
  { low := (if nearer then 4 * m - 1 else 4 * m - 2) * up
    value := 4 * m * up
    high := (4 * m + 2) * up
    scale := if quarter < 0 then Nat.pow 2 quarter.natAbs else 1
    closed := m % 2 = 0 }

/-- The place of the first digit of the value: it is below `10 ^ place` and not below the tenth
of that. -/
def place (r : RoundingInterval) : Int :=
  if r.scale ≤ r.value then digitCount (r.value / r.scale)
  else 1 - digitCount ((r.scale - 1) / r.value)

/-- Whether `point` steps of a grid, each `step` wide in a unit in which the interval is stretched
by `stretch`, lie in the interval. -/
def holds (r : RoundingInterval) (stretch step point : Nat) : Bool :=
  if r.closed then r.low * stretch ≤ point * step && point * step ≤ r.high * stretch
  else r.low * stretch < point * step && point * step < r.high * stretch

/-- The point of the grid `10 ^ exponent` that rounds to the value, of two such points the nearer
one, and the upper one if both are equally near. -/
def onGrid? (r : RoundingInterval) (exponent : Int) : Option Decimal :=
  let stretch := if exponent < 0 then Nat.pow 10 exponent.natAbs else 1
  let step := (if exponent < 0 then 1 else Nat.pow 10 exponent.natAbs) * r.scale
  let value := r.value * stretch
  let below := value / step
  let above := below + 1
  match r.holds stretch step below, r.holds stretch step above with
  | true, true =>
    if 2 * value < (below + above) * step then some ⟨below, exponent⟩ else some ⟨above, exponent⟩
  | true, false => some ⟨below, exponent⟩
  | false, true => some ⟨above, exponent⟩
  | false, false => none

/-- The shortest decimal in the interval. Seventeen digits always suffice. -/
def shortest (r : RoundingInterval) : Decimal :=
  ((List.range 17).findSome? fun (n : Nat) => r.onGrid? (r.place - (n + 1))).getD ⟨0, 0⟩

end RoundingInterval

namespace Decimal

/-- The digits with the point at its place, and no digits behind the point that are all zero. -/
def text (d : Decimal) : List Char :=
  let all := Nat.toDigits 10 d.digits
  let kept := (all.reverse.dropWhile (· = '0')).reverse
  let exponent := d.exponent + (all.length - kept.length : Nat)
  if 0 ≤ exponent then kept ++ List.replicate exponent.natAbs '0'
  else if exponent.natAbs < kept.length then
    kept.take (kept.length - exponent.natAbs) ++ '.' :: kept.drop (kept.length - exponent.natAbs)
  else '0' :: '.' :: List.replicate (exponent.natAbs - kept.length) '0' ++ kept

end Decimal

namespace Binary64

/-- The shortest decimal that reads back as a positive finite number. -/
def shortest (x : Binary64) : Decimal :=
  (RoundingInterval.ofBinary64 x).shortest

/-- The text of a number: never an exponent, no point in a whole number, and the sign of a
negative zero kept. -/
def text (x : Binary64) : String :=
  if x.isNaN then "NaN"
  else
    let size :=
      if x.isInfinite then ['i', 'n', 'f']
      else if x.isZero then ['0']
      else x.shortest.text
    String.ofList (if x.isNegative then '-' :: size else size)

end Binary64

end TodLang
