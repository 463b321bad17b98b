import BladeTemplate.Decimal.Shortest

/-!
# Numbers that are not whole

A number with a fraction or an exponent is kept to 53 bits and written with the fewest digits
that read back as the same number. A `NumberStyle` says how the digits are laid out.
-/

namespace BladeTemplate.Json

/-- A number that was not written as a whole number. -/
inductive Number where
  | finite (negative : Bool) (size : Decimal.Binary)
  | infinite (negative : Bool)
  | undefined
  deriving DecidableEq, Repr

/-- The number that a sign, digits and a power of ten spell. -/
def Number.ofDigits (negative : Bool) (run : Chars) (exponent : Int) : Number :=
  match Decimal.Binary.ofDigits? run exponent with
  | some size => .finite negative size
  | none => .infinite negative

/-- How numbers are laid out: a first digit from `positionalFrom` to `positionalTo` is written
without exponent, and an exponent has `exponentWidth` digits or more. -/
structure NumberStyle where
  positionalFrom : Int := -4
  positionalTo : Int := 15
  exponentWidth : Nat := 2
  infinite : String
  undefined : String

namespace NumberStyle

/-- Numbers inside messages. -/
def shown : NumberStyle where
  infinite := "inf"
  undefined := "nan"

/-- Numbers inside the text of a value. -/
def written : NumberStyle where
  infinite := "Infinity"
  undefined := "NaN"

/-- Digits with a point among them; one digit follows the point at least. -/
def positional (digits : Chars) (first : Int) : Chars :=
  if first < 0 then '0' :: '.' :: List.replicate (first.natAbs - 1) '0' ++ digits
  else
    let whole := first.toNat + 1
    let rest := digits.drop whole
    digits.take whole ++ List.replicate (whole - digits.length) '0' ++
      '.' :: (if rest.isEmpty then ['0'] else rest)

/-- Digits with an exponent; the point follows the first of several digits. -/
def scientific (style : NumberStyle) (digits : Chars) (first : Int) : Chars :=
  let rest := digits.drop 1
  let exponent := Text.decimal first.natAbs
  digits.take 1 ++ (if rest.isEmpty then [] else '.' :: rest) ++
    'e' :: (if first < 0 then '-' else '+') ::
    List.replicate (style.exponentWidth - exponent.length) '0' ++ exponent

/-- The text of a number that is not negative. -/
def size (style : NumberStyle) (value : Decimal.Binary) : Chars :=
  if value.significand = 0 then ['0', '.', '0']
  else
    let decimal := value.shortest
    let run := Text.decimal decimal.digits
    let first := decimal.place + run.length - 1
    let digits := (run.reverse.dropWhile (· = '0')).reverse
    if style.positionalFrom ≤ first && first ≤ style.positionalTo then positional digits first
    else style.scientific digits first

def sign (negative : Bool) : Chars :=
  if negative then ['-'] else []

def text (style : NumberStyle) : Number → Chars
  | .finite negative value => sign negative ++ style.size value
  | .infinite negative => sign negative ++ style.infinite.toList
  | .undefined => style.undefined.toList

end NumberStyle
end BladeTemplate.Json
