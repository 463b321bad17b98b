import BladeTemplate.Decimal.Nearest

/-!
# The fewest digits that read back

Every ratio near enough to a kept number is read as that number. `Binary.shortest` is the decimal
with the fewest digits among those ratios, and the one nearest to the number if there are several.

For one digit, two digits and so on, the two decimals around the number are tried: if any decimal
with that many digits reads back, one of these two does. Seventeen digits are always enough.
-/

namespace BladeTemplate.Decimal

/-- A whole number of digits times a power of ten. -/
structure Shortened where
  digits : Nat
  place : Int
  deriving DecidableEq, Repr

def Shortened.toRatio (d : Shortened) : Ratio :=
  (Ratio.ofNat d.digits).scale 10 d.place

namespace Binary

/-- Halfway to the next smaller kept number, which is nearer below a full significand. -/
def lowerEnd (b : Binary) : Ratio :=
  let narrow := b.significand = fullSignificand && leastPower < b.power
  (Ratio.ofNat (4 * b.significand - if narrow then 1 else 2)).scale 2 (b.power - 2)

/-- Halfway to the next greater kept number. -/
def upperEnd (b : Binary) : Ratio :=
  (Ratio.ofNat (4 * b.significand + 2)).scale 2 (b.power - 2)

/-- Whether a ratio is read as the number. Both ends are if the significand is even. -/
def owns (b : Binary) (r : Ratio) : Bool :=
  if b.significand % 2 = 0 then !r.isLess b.lowerEnd && !b.upperEnd.isLess r
  else b.lowerEnd.isLess r && r.isLess b.upperEnd

/-- The nearest decimal that ends at a place and reads back as the number. -/
def shortenedAt? (b : Binary) (place : Int) : Option Shortened :=
  let scaled := b.toRatio.scale 10 (-place)
  let nearer : Shortened := ⟨scaled.round, place⟩
  let below : Shortened := ⟨scaled.floor, place⟩
  let above : Shortened := ⟨scaled.floor + 1, place⟩
  [nearer, below, above].find? fun decimal => b.owns decimal.toRatio

/-- The nearest decimal with 17 digits. -/
def longest (b : Binary) : Shortened :=
  let place := b.toRatio.decimalPlace - 16
  ⟨(b.toRatio.scale 10 (-place)).round, place⟩

/-- The decimal with the fewest digits that reads back as a positive number. -/
def shortest (b : Binary) : Shortened :=
  let first := b.toRatio.decimalPlace
  ((List.range 17).findSome? fun (more : Nat) => b.shortenedAt? (first - more)).getD b.longest

end Binary
end BladeTemplate.Decimal
