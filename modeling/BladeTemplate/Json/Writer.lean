import BladeTemplate.Json.Value

/-!
# Writing structured values

`Json.write` gives the text of a value. The text is ASCII: every other character is written as an
escape, in two halves beyond the basic plane. Without an indent everything stands on one line;
with one, every item and field has a line of its own.
-/

namespace BladeTemplate.Json

/-- The escape of one sixteen-bit unit. -/
def unitEscape (unit : Nat) : Chars :=
  '\\' :: 'u' :: Text.hexDigits 4 unit

/-- One character between double quotes. -/
def writeChar (c : Char) : Chars :=
  if c = Text.doubleQuote || c = '\\' then ['\\', c]
  else if c = '\n' then ['\\', 'n']
  else if c = '\r' then ['\\', 'r']
  else if c = '\t' then ['\\', 't']
  else if c = Char.ofNat 0x0C then ['\\', 'f']
  else if c = Char.ofNat 0x08 then ['\\', 'b']
  else if 0x20 ≤ c.toNat && c.toNat ≤ 0x7E then [c]
  else if c.toNat < 0x10000 then unitEscape c.toNat
  else
    let rest := c.toNat - 0x10000
    unitEscape (0xD800 + rest / 0x400) ++ unitEscape (0xDC00 + rest % 0x400)

def writeText (text : Chars) : Chars :=
  Text.doubleQuote :: text.flatMap writeChar ++ [Text.doubleQuote]

/-- One place of a text between double quotes. -/
def writeUnit : TextUnit → Chars
  | .char c => writeChar c
  | .unit number => unitEscape number

/-- The line break in front of an item at the given depth, when an indent is asked for. -/
def writeBreak (indent : Option Nat) (depth : Nat) : Chars :=
  match indent with
  | none => []
  | some width => '\n' :: List.replicate (width * depth) ' '

/-- What stands between two items at the given depth. -/
def writeComma (indent : Option Nat) (depth : Nat) : Chars :=
  match indent with
  | none => [',', ' ']
  | some _ => ',' :: writeBreak indent depth

/-- Items between brackets, broken over lines unless there are none. -/
def writeGroup (indent : Option Nat) (depth : Nat) (opening closing : Char) (inside : Chars) :
    Chars :=
  if inside.isEmpty then [opening, closing]
  else
    opening :: writeBreak indent (depth + 1) ++ inside ++ writeBreak indent depth ++ [closing]

mutual

/-- The text of a value at the given depth. -/
def writeAt (indent : Option Nat) (depth : Nat) : Json → Chars
  | .null => "null".toList
  | .bool true => "true".toList
  | .bool false => "false".toList
  | .int n => Text.signedDecimal n
  | .decimal value => NumberStyle.written.text value
  | .str text => writeText text
  | .unpaired units => Text.doubleQuote :: units.flatMap writeUnit ++ [Text.doubleQuote]
  | .arr items => writeGroup indent depth '[' ']' (writeItems indent (depth + 1) items)
  | .obj fields => writeGroup indent depth '{' '}' (writeFields indent (depth + 1) fields)

def writeItems (indent : Option Nat) (depth : Nat) : List Json → Chars
  | [] => []
  | item :: rest =>
    writeAt indent depth item ++
      (if rest.isEmpty then [] else writeComma indent depth ++ writeItems indent depth rest)

def writeFields (indent : Option Nat) (depth : Nat) : List (Chars × Json) → Chars
  | [] => []
  | (name, value) :: rest =>
    writeText name ++ [':', ' '] ++ writeAt indent depth value ++
      (if rest.isEmpty then [] else writeComma indent depth ++ writeFields indent depth rest)

end

/-- The text of a value, on one line or with the given indent per level. -/
def write (indent : Option Nat) (value : Json) : Chars :=
  writeAt indent 0 value

end BladeTemplate.Json
