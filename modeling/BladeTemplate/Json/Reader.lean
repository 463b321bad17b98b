import BladeTemplate.Json.Value

/-!
# Reading structured values

`Json.read` reads the text of one value with white space around it. A reader answers a value and
the text after it, or why no such value stands at the front of the text.

* `readUnits` reads what stands between double quotes, `joinUnits` joins the halves of pairs;
* `readValue`, `readItems` and `readFields` follow the nesting of values. Their first argument
  bounds the calls below them; every second call reads a character, so twice the length of the
  text is enough.
-/

namespace BladeTemplate.Json

/-- Why a text is no value. A whole number may have too many digits. -/
inductive ReadError where
  | malformed
  | longNumber (digits : Nat)
  deriving DecidableEq, Repr

/-- The most digits that a whole number may have. -/
def maxDigits : Nat := 4300

def ReadError.message : ReadError → String
  | .malformed => "malformed text"
  | .longNumber digits =>
    s!"Exceeds the limit ({maxDigits} digits) for integer string conversion: value has {digits} "
      ++ "digits; use sys.set_int_max_str_digits() to increase the limit"

/-- White space between values. -/
def isSpace (c : Char) : Bool :=
  c = ' ' || c = '\t' || c = '\n' || c = '\r'

/-- The text without leading white space. -/
def skipSpace (text : Chars) : Chars :=
  text.dropWhile isSpace

/-- The text after white space and a mark. -/
def mark? (mark : Char) (text : Chars) : Option Chars :=
  match skipSpace text with
  | c :: rest => if c = mark then some rest else none
  | [] => none

def isDigit (c : Char) : Bool :=
  '0' ≤ c && c ≤ '9'

def hexValue? (c : Char) : Option Nat :=
  if '0' ≤ c && c ≤ '9' then some (c.toNat - '0'.toNat)
  else if 'a' ≤ c && c ≤ 'f' then some (c.toNat - 'a'.toNat + 10)
  else if 'A' ≤ c && c ≤ 'F' then some (c.toNat - 'A'.toNat + 10)
  else none

/-- The number that four hexadecimal digits spell. -/
def unit? (a b c d : Char) : Option Nat := do
  let a ← hexValue? a
  let b ← hexValue? b
  let c ← hexValue? c
  let d ← hexValue? d
  return ((a * 16 + b) * 16 + c) * 16 + d

/-- The character that one of the short escapes stands for. -/
def shortEscape? : Char → Option Char
  | 'b' => some (Char.ofNat 0x08)
  | 'f' => some (Char.ofNat 0x0C)
  | 'n' => some '\n'
  | 'r' => some '\r'
  | 't' => some '\t'
  | '/' => some '/'
  | '\\' => some '\\'
  | c => if c = Text.doubleQuote then some c else none

/-- The character of two halves of a pair. -/
def pairChar? (high low : Nat) : Option Char :=
  if 0xD800 ≤ high && high < 0xDC00 && 0xDC00 ≤ low && low < 0xE000 then
    some (Char.ofNat (0x10000 + (high - 0xD800) * 0x400 + (low - 0xDC00)))
  else none

/-- The rest of a text value after its opening quote, unit by unit. -/
def readUnits : Chars → Option (List TextUnit × Chars)
  | [] => none
  | c :: rest =>
    if c = Text.doubleQuote then some ([], rest)
    else if c = '\\' then
      match rest with
      | 'u' :: a :: b :: c :: d :: rest =>
        match unit? a b c d with
        | none => none
        | some number => (readUnits rest).map fun (units, left) => (.unit number :: units, left)
      | escaped :: rest =>
        match shortEscape? escaped with
        | none => none
        | some char => (readUnits rest).map fun (units, left) => (.char char :: units, left)
      | [] => none
    else if c.toNat < 0x20 then none
    else (readUnits rest).map fun (units, left) => (.char c :: units, left)

/-- Whether a unit is one half of a pair. -/
def isHalf (unit : Nat) : Bool :=
  0xD800 ≤ unit && unit < 0xE000

/-- A unit that has no partner: a character unless it is half of a pair. -/
def singleUnit (number : Nat) : TextUnit :=
  if isHalf number then .unit number else .char (Char.ofNat number)

/-- The places of a text after its units are joined: two halves of a pair side by side are one
character, and only a half without its partner is left as a unit. -/
def joinUnits : List TextUnit → List TextUnit
  | [] => []
  | .char c :: rest => .char c :: joinUnits rest
  | .unit high :: .unit low :: rest =>
    match pairChar? high low with
    | some c => .char c :: joinUnits rest
    | none => singleUnit high :: joinUnits (.unit low :: rest)
  | .unit number :: rest => singleUnit number :: joinUnits rest

/-- The places of a text and what follows it, from behind its opening quote on. -/
def readText (text : Chars) : Except ReadError (List TextUnit × Chars) :=
  match readUnits text with
  | some (units, left) => .ok (joinUnits units, left)
  | none => .error .malformed

/-- The value of a text whose units are joined. -/
def textValue (units : List TextUnit) : Json :=
  match units.mapM TextUnit.char? with
  | some text => .str text
  | none => .unpaired units

/-- The run of digits at the front of a text. -/
def digits (text : Chars) : Chars :=
  text.takeWhile isDigit

/-- The digits of the whole part at the front of a text: a single zero, or a run that does not
start with zero. -/
def wholeDigits (text : Chars) : Chars :=
  match text with
  | '0' :: _ => ['0']
  | _ => digits text

/-- The fraction at the front of a text, empty if there is none. -/
def fraction (text : Chars) : Chars :=
  match text with
  | '.' :: rest => if (digits rest).isEmpty then [] else '.' :: digits rest
  | _ => []

/-- The exponent at the front of a text, empty if there is none. -/
def exponent (text : Chars) : Chars :=
  match text with
  | e :: rest =>
    if e = 'e' || e = 'E' then
      let sign := rest.take 1 |>.filter fun c => c = '+' || c = '-'
      let run := digits (rest.drop sign.length)
      if run.isEmpty then [] else e :: sign ++ run
    else []
  | [] => []

/-- The power of ten that an exponent spells. -/
def exponentValue (spelling : Chars) : Int :=
  match spelling.drop 1 with
  | '-' :: run => -(Text.digitsValue run : Int)
  | '+' :: run => Text.digitsValue run
  | run => Text.digitsValue run

/-- A number at the front of a text, with its length. It is whole unless it has a fraction or an
exponent. -/
def number (text : Chars) : Except ReadError (Json × Nat) :=
  let sign := text.take 1 |>.filter (· = '-')
  let rest := text.drop sign.length
  let whole := wholeDigits rest
  let places := fraction (rest.drop whole.length)
  let power := exponent (rest.drop (whole.length + places.length))
  let length := sign.length + whole.length + places.length + power.length
  let negative := !sign.isEmpty
  if whole.isEmpty then .error .malformed
  else if !places.isEmpty || !power.isEmpty then
    let shift : Int := (places.drop 1).length
    let value := Number.ofDigits negative (whole ++ places.drop 1) (exponentValue power - shift)
    .ok (.decimal value, length)
  else if maxDigits < whole.length then .error (.longNumber whole.length)
  else
    let size : Int := Text.digitsValue whole
    .ok (.int (if negative then -size else size), length)

/-- The values that are spelled as words. -/
def words : List (String × Json) :=
  [("null", .null), ("true", .bool true), ("false", .bool false),
    ("NaN", .decimal .undefined), ("Infinity", .decimal (.infinite false)),
    ("-Infinity", .decimal (.infinite true))]

/-- A word or a number at the front of a text, with its length. -/
def scalar (text : Chars) : Except ReadError (Json × Nat) :=
  match words.find? fun word => Text.startsWith word.1.toList text with
  | some (word, value) => .ok (value, word.toList.length)
  | none => number text

mutual

/-- One value at the front of a text. -/
def readValue : Nat → Chars → Except ReadError (Json × Chars)
  | 0, _ => .error .malformed
  | _, [] => .error .malformed
  | fuel + 1, c :: rest =>
    if c = Text.doubleQuote then do
      let (units, left) ← readText rest
      return (textValue units, left)
    else if c = '[' then
      match mark? ']' rest with
      | some left => .ok (.arr [], left)
      | none => do
        let (items, left) ← readItems fuel (skipSpace rest)
        return (.arr items, left)
    else if c = '{' then
      match mark? '}' rest with
      | some left => .ok (.obj [], left)
      | none => do
        let (fields, left) ← readFields fuel (skipSpace rest)
        return (.obj fields, left)
    else do
      let (value, length) ← scalar (c :: rest)
      return (value, (c :: rest).drop length)

/-- The items of a list up to its closing bracket. -/
def readItems : Nat → Chars → Except ReadError (List Json × Chars)
  | 0, _ => .error .malformed
  | fuel + 1, text => do
    let (value, left) ← readValue fuel text
    match mark? ']' left with
    | some rest => return ([value], rest)
    | none =>
      match mark? ',' left with
      | none => .error .malformed
      | some rest =>
        let (values, left) ← readItems fuel (skipSpace rest)
        return (value :: values, left)

/-- The fields of an object up to its closing brace. -/
def readFields : Nat → Chars → Except ReadError (List (Chars × Json) × Chars)
  | 0, _ => .error .malformed
  | _, [] => .error .malformed
  | fuel + 1, c :: rest =>
    if c ≠ Text.doubleQuote then .error .malformed
    else do
      let (units, left) ← readText rest
      let name := units.map TextUnit.toChar
      match mark? ':' left with
      | none => .error .malformed
      | some rest =>
        let (value, left) ← readValue fuel (skipSpace rest)
        match mark? '}' left with
        | some rest => return ([(name, value)], rest)
        | none =>
          match mark? ',' left with
          | none => .error .malformed
          | some rest =>
            let (fields, left) ← readFields fuel (skipSpace rest)
            return ((name, value) :: fields, left)

end

/-- The value a text spells, with white space around it. -/
def read (text : Chars) : Except ReadError Json := do
  let (value, left) ← readValue (2 * text.length) (skipSpace text)
  if (skipSpace left).isEmpty then return value else .error .malformed

end BladeTemplate.Json
