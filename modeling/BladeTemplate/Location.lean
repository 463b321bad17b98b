import BladeTemplate.Text.Chars

/-!
# Positions and locations

A `Position` is a point of a template; a `Location` is the span of a construct. Lines and columns
start at one, offsets at zero, and only a line feed ends a line. A location that was not read off
a template may hold any numbers.

* `Position.advance` moves over a piece of text;
* `Location.spanTo` joins the start of one span with the end of another;
* `Location.slice` recovers the text of a span.
-/

namespace BladeTemplate

/-- A point of a template. -/
structure Position where
  offset : Nat
  line : Nat
  column : Nat
  deriving DecidableEq, Repr, Inhabited

namespace Position

/-- The first position of every template. -/
def start : Position := ⟨0, 1, 1⟩

def step (p : Position) (c : Char) : Position :=
  if c = '\n' then ⟨p.offset + 1, p.line + 1, 1⟩ else ⟨p.offset + 1, p.line, p.column + 1⟩

/-- The position after a piece of text. -/
def advance (p : Position) (text : Chars) : Position :=
  text.foldl step p

end Position

/-- The span of a construct. The end offset is exclusive, and the end line and column may be
unknown. -/
structure Location where
  line : Int
  column : Int
  offset : Int := 0
  endOffset : Int := 0
  endLine : Option Int := none
  endColumn : Option Int := none
  file : Option String := none
  deriving DecidableEq, Repr, Inhabited

namespace Location

/-- The span between two positions. -/
def between (file : Option String) (first last : Position) : Location where
  line := first.line
  column := first.column
  offset := first.offset
  endOffset := last.offset
  endLine := some (last.line : Int)
  endColumn := some (last.column : Int)
  file := file

/-- The location of something that stands nowhere in a template. -/
def unknown : Location := ⟨0, 0, 0, 0, none, none, none⟩

/-- A number, or the other one when it is zero. -/
def orElseZero (n other : Int) : Int :=
  if n = 0 then other else n

/-- The span from the start of one location to the end of another. An end that is missing or zero
is taken from the other's start. -/
def spanTo (first last : Location) : Location where
  line := first.line
  column := first.column
  offset := first.offset
  endOffset := orElseZero last.endOffset last.offset
  endLine := some (orElseZero (last.endLine.getD 0) last.line)
  endColumn := some (orElseZero (last.endColumn.getD 0) last.column)
  file := first.file

/-- Signed number of characters between start and end. -/
def length (location : Location) : Int :=
  location.endOffset - location.offset

/-- The text a location covers, cut off at the end of the template. -/
def slice (location : Location) (source : Chars) : Chars :=
  Text.slice source location.offset location.endOffset

/-- The location as it is shown to users: the file, when there is one, then line and column. -/
def display (location : Location) : String :=
  let line := location.line
  let column := location.column
  let file := location.file.getD ""
  if file.isEmpty then s!"{line}:{column}" else s!"{file}:{line}:{column}"

end Location
end BladeTemplate
