import BladeTemplate.Json.Number
import BladeTemplate.Text.Quoted

/-!
# Structured values

The values that trees are saved as and options are given as: objects, lists, texts, numbers,
booleans and null. `Json.display` gives the text of a value inside a message.
-/

namespace BladeTemplate

/-- What one place of a text stands for: a character, or a sixteen-bit unit. -/
inductive Json.TextUnit where
  | char (c : Char)
  | unit (number : Nat)
  deriving DecidableEq, Repr

/-- A structured value. A text is unpaired if half of a pair of units stands in it without the
other. Fields of an object are kept in the order they were given; of a repeated name the last value
counts. -/
inductive Json where
  | null
  | bool (value : Bool)
  | int (value : Int)
  | decimal (value : Json.Number)
  | str (text : Chars)
  | unpaired (units : List Json.TextUnit)
  | arr (items : List Json)
  | obj (fields : List (Chars × Json))
  deriving Inhabited

namespace Json

def text (s : String) : Json := .str s.toList

/-- A value that may be missing. -/
def option {α : Type} (encode : α → Json) : Option α → Json
  | none => .null
  | some value => encode value

def object (fields : List (String × Json)) : Json :=
  .obj (fields.map fun (name, value) => (name.toList, value))

/-- The character of a place that is one. -/
def TextUnit.char? : TextUnit → Option Char
  | .char c => some c
  | .unit _ => none

/-- The character of a place, the replacement character for a unit. -/
def TextUnit.toChar : TextUnit → Char
  | .char c => c
  | .unit _ => Char.ofNat 0xFFFD

/-- One place of a text as it stands between two `quote` characters. -/
def TextUnit.quoted (quote : Char) : TextUnit → Chars
  | .char c => Text.quotedChar quote c
  | .unit number => '\\' :: 'u' :: Text.hexDigits 4 number

/-- The characters of a text value. -/
def chars? : Json → Option Chars
  | .str text => some text
  | .unpaired units => some (units.map TextUnit.toChar)
  | _ => none

/-- Whether a value holds other values. -/
def isNested : Json → Bool
  | .arr _ | .obj _ => true
  | _ => false

/-- Give a name a value: in its place if the name is there, else at the end. -/
def setField {α : Type} (name : Chars) (value : α) : List (Chars × α) → List (Chars × α)
  | [] => [(name, value)]
  | (other, old) :: rest =>
    if other = name then (name, value) :: rest else (other, old) :: setField name value rest

/-- Every name once, where it stood first and with its last value. -/
def distinctFields {α : Type} (fields : List (Chars × α)) : List (Chars × α) :=
  fields.foldl (fun kept (name, value) => setField name value kept) []

/-- Pieces with commas between them. -/
def commaSeparated (pieces : List Chars) : Chars :=
  (pieces.intersperse [',', ' ']).flatten

mutual

/-- The value as it is shown inside a message. -/
def display : Json → Chars
  | .null => "None".toList
  | .bool true => "True".toList
  | .bool false => "False".toList
  | .int n => Text.signedDecimal n
  | .decimal value => NumberStyle.shown.text value
  | .str text => Text.quoted text
  | .unpaired units =>
    let quote := Text.quoteFor (units.map TextUnit.toChar)
    quote :: units.flatMap (TextUnit.quoted quote) ++ [quote]
  | .arr items => '[' :: commaSeparated (displayItems items) ++ [']']
  | .obj fields =>
    let shown := (distinctFields (displayFields fields)).map fun (name, value) =>
      Text.quoted name ++ [':', ' '] ++ value
    '{' :: commaSeparated shown ++ ['}']

/-- The items of a list as they are shown. -/
def displayItems : List Json → List Chars
  | [] => []
  | item :: rest => item.display :: displayItems rest

/-- The fields of an object with their values as they are shown. -/
def displayFields : List (Chars × Json) → List (Chars × Chars)
  | [] => []
  | (name, value) :: rest => (name, value.display) :: displayFields rest

end

end Json
end BladeTemplate
