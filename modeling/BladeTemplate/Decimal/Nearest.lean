import BladeTemplate.Text.Chars

/-!
# Decimals kept in binary

A number with a fraction or an exponent is kept with 53 bits, as the nearest number of the form
`significand * 2 ^ power`; a number halfway between two of them goes to the even significand.

* `Ratio` is an exact quotient of whole numbers, `Ratio.round` its nearest whole number;
* `Binary.nearest?` is the nearest kept number to a ratio, unless the ratio is too large;
* `Binary.ofDigits?` is the kept number that digits and a power of ten spell.
-/

namespace BladeTemplate.Decimal

/-- The quotient of two whole numbers. -/
structure Ratio where
  num : Nat
  den : Nat
  deriving DecidableEq, Repr

namespace Ratio

def ofNat (n : Nat) : Ratio := ⟨n, 1⟩

/-- The ratio times a power of a base. -/
def scale (r : Ratio) (base : Nat) : Int → Ratio
  | .ofNat power => ⟨r.num * base.pow power, r.den⟩
  | .negSucc power => ⟨r.num, r.den * base.pow (power + 1)⟩

/-- Whether a ratio is less than another. -/
def isLess (r s : Ratio) : Bool :=
  r.num * s.den < s.num * r.den

/-- The whole number below a ratio. -/
def floor (r : Ratio) : Nat :=
  r.num / r.den

/-- The whole number nearest to a ratio; a half goes to the even neighbour. -/
def round (r : Ratio) : Nat :=
  let twice := 2 * (r.num % r.den)
  if twice < r.den then r.floor
  else if twice = r.den then r.floor + r.floor % 2
  else r.floor + 1

/-- The greatest power of two that is not above a positive ratio. -/
def binaryPlace (r : Ratio) : Int :=
  let guess : Int := (r.num.log2 : Int) - r.den.log2
  if (r.scale 2 (-guess)).isLess (ofNat 1) then guess - 1 else guess

/-- The greatest power of ten that is not above a positive ratio. -/
def decimalPlace (r : Ratio) : Int :=
  if r.isLess (ofNat 1) then -((Text.decimal ((r.den - 1) / r.num)).length : Int)
  else ((Text.decimal r.floor).length : Int) - 1

end Ratio

/-- The number `significand * 2 ^ power`. -/
structure Binary where
  significand : Nat
  power : Int
  deriving DecidableEq, Repr

namespace Binary

def zero : Binary := ⟨0, 0⟩

/-- The least significand of a number that has all 53 bits. -/
def fullSignificand : Nat := 0x10000000000000

/-- The least power of two in a kept number. -/
def leastPower : Int := -1074

/-- The greatest power of two in a kept number. -/
def greatestPower : Int := 971

def toRatio (b : Binary) : Ratio :=
  (Ratio.ofNat b.significand).scale 2 b.power

/-- The kept number nearest to a positive ratio. -/
def nearest? (r : Ratio) : Option Binary :=
  let full := r.binaryPlace - 52
  let power := if full < leastPower then leastPower else full
  let significand := (r.scale 2 (-power)).round
  let result : Binary :=
    if significand = 2 * fullSignificand then ⟨fullSignificand, power + 1⟩
    else ⟨significand, power⟩
  if greatestPower < result.power then none else some result

/-- The kept number nearest to digits times a power of ten. Before the exact comparison, a number
of 310 places or more is known to be too large, and one with 324 zeros after the point to be
nearest to zero. -/
def ofDigits? (run : Chars) (exponent : Int) : Option Binary :=
  let digits := run.dropWhile (· = '0')
  let places : Int := digits.length + exponent
  if digits.isEmpty || places < -323 then some zero
  else if 309 < places then none
  else nearest? ((Ratio.ofNat (Text.digitsValue digits)).scale 10 exponent)

end Binary
end BladeTemplate.Decimal
