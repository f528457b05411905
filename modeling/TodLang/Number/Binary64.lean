/-!
Numbers of the format binary64, by their bit pattern, and the reading of a decimal. All of it is
exact arithmetic on natural numbers: a decimal is rounded once, to the nearest number of the
format, and an exact half goes to the even neighbour.
-/

namespace TodLang

/-- A quotient rounded to the nearest natural number; an exact half goes to the even one. -/
def roundQuotient (num den : Nat) : Nat :=
  let below := num / den
  let rest := num % den
  if 2 * rest < den then below
  else if den < 2 * rest then below + 1
  else below + below % 2

theorem roundQuotient_of_dvd {num den : Nat} (hden : 0 < den) (h : den ∣ num) :
    roundQuotient num den = num / den := by
  unfold roundQuotient
  rw [Nat.mod_eq_zero_of_dvd h]
  simp [hden]

/-- A number of the format, with its sign, its exponent field and its fraction field. -/
structure Binary64 where
  bits : UInt64
  deriving DecidableEq, Repr, Inhabited

namespace Binary64

/-- The weight of the exponent field's lowest bit. -/
def fractionLimit : Nat := Nat.pow 2 52

/-- The exponent field of infinities and of what is not a number. -/
def exponentLimit : Nat := 2047

/-- The power of two that the smallest positive number has. -/
def leastExponent : Int := -1074

/-- The bits without the sign. -/
def magnitude (x : Binary64) : Nat :=
  x.bits.toNat % Nat.pow 2 63

/-- Whether the sign is set. It can be set on zero too. -/
def isNegative (x : Binary64) : Bool :=
  Nat.pow 2 63 ≤ x.bits.toNat

def exponentField (x : Binary64) : Nat :=
  x.magnitude / fractionLimit

def fractionField (x : Binary64) : Nat :=
  x.magnitude % fractionLimit

def isNaN (x : Binary64) : Bool :=
  x.exponentField == exponentLimit && x.fractionField != 0

def isInfinite (x : Binary64) : Bool :=
  x.exponentField == exponentLimit && x.fractionField == 0

def isZero (x : Binary64) : Bool :=
  x.magnitude == 0

/-- The whole number `m` such that a finite number is `m * 2 ^ exponent`, up to sign. -/
def significand (x : Binary64) : Nat :=
  if x.exponentField = 0 then x.fractionField else fractionLimit + x.fractionField

/-- The power of two by which the significand counts. -/
def exponent (x : Binary64) : Int :=
  if x.exponentField = 0 then leastExponent else x.exponentField - 1 + leastExponent

/-- The bits of positive infinity, above those of every finite number. -/
def infinityBits : Nat := exponentLimit * fractionLimit

/-- The power of two that leaves 53 binary digits before the point of a positive quotient, or as
many as the format has room for. -/
def quotientExponent (num den : Nat) : Int :=
  let high : Int := (num.log2 : Int) - den.log2
  let exact :=
    if high < 0 then den ≤ num * Nat.pow 2 high.natAbs else den * Nat.pow 2 high.natAbs ≤ num
  max (if exact then high - 52 else high - 53) leastExponent

/-- The nearest number of the format to a quotient of natural numbers. The significand and the
exponent field are added, so that a significand rounded up to the next power of two carries into
the exponent. -/
def ofQuotient (num den : Nat) : Binary64 :=
  if num = 0 then ⟨0⟩
  else
    let exponent := quotientExponent num den
    let rounded :=
      if exponent < 0 then roundQuotient (num * Nat.pow 2 exponent.natAbs) den
      else roundQuotient num (den * Nat.pow 2 exponent.natAbs)
    let bits := rounded + (exponent - leastExponent).toNat * fractionLimit
    ⟨UInt64.ofNat (min bits infinityBits)⟩

/-- The nearest number of the format to a decimal with the given digits, of which the last
`places` stand behind the point. -/
def ofDecimal (digits places : Nat) : Binary64 :=
  ofQuotient digits (Nat.pow 10 places)

end Binary64

end TodLang
