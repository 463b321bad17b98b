import BladeTemplate.Text.Chars

/-!
# Lines under construction

`Lines` collects output line by line. It indents a line when the first fragment of it arrives, and
remembers what has only been asked for: the space before the next fragment, and the blank lines
before the next line.

* a space is dropped at a line break;
* blank lines are capped, and dropped at the start of the output and next to a change of level;
* `raw` keeps every line of a text but the first exactly as it is.
-/

namespace BladeTemplate

/-- Output under construction: the finished lines, newest first, and the line in progress, empty
when none has been started. At a scope start nothing was written since the level last changed. -/
structure Lines where
  unit : Chars
  maxBlank : Nat
  done : List Chars := []
  current : Chars := []
  level : Nat := 0
  pendingBlank : Nat := 0
  pendingSpace : Bool := false
  scopeStart : Bool := true
  deriving DecidableEq, Repr

namespace Lines

/-- Output that has nothing in it yet. -/
def new (unit : Chars) (maxBlank : Nat) : Lines :=
  { unit, maxBlank }

/-- Whether the next fragment starts a line. -/
def atLineStart (out : Lines) : Bool :=
  out.current.isEmpty

def count (out : Lines) : Nat :=
  out.done.length

def indent (out : Lines) : Lines :=
  { out with level := out.level + 1, pendingBlank := 0, scopeStart := true }

def dedent (out : Lines) : Lines :=
  { out with level := out.level - 1, pendingBlank := 0, scopeStart := true }

/-- The blank lines to put before the next line. -/
def dueBlanks (out : Lines) : List Chars :=
  if out.done.isEmpty then [] else List.replicate (min out.pendingBlank out.maxBlank) []

/-- Write a fragment on the current line. An empty fragment is nothing. -/
def append (out : Lines) (fragment : Chars) : Lines :=
  if fragment.isEmpty then out
  else if out.atLineStart then
    { out with
      done := out.dueBlanks ++ out.done
      current := Text.replicate out.level out.unit ++ fragment
      pendingBlank := 0
      pendingSpace := false
      scopeStart := false }
  else
    { out with
      current := out.current ++ (if out.pendingSpace then [' '] else []) ++ fragment
      pendingSpace := false
      scopeStart := false }

/-- Start the current line over with the given text, unindented. -/
def restart (out : Lines) (line : Chars) : Lines :=
  { out with current := line, pendingSpace := false, scopeStart := false }

/-- Finish the current line, also an empty one, and start the next with the given text. -/
def breakTo (out : Lines) (line : Chars) : Lines :=
  restart { out with done := out.current :: out.done } line

/-- Write a text of several lines. The first line is a fragment; the others are kept as they are.
A line break at the very start of a line adds no line. -/
def raw (out : Lines) (text : Chars) : Lines :=
  match Text.splitLines text with
  | [] => out
  | [first] => out.append first
  | first :: second :: rest =>
    let started :=
      if first.isEmpty && out.atLineStart then out.restart second
      else (out.append first).breakTo second
    rest.foldl breakTo started

/-- Ask for one space before the next fragment on this line. -/
def space (out : Lines) : Lines :=
  if out.atLineStart then out else { out with pendingSpace := true }

/-- Finish the current line if it has been started. -/
def newline (out : Lines) : Lines :=
  if out.atLineStart then { out with pendingSpace := false }
  else { out with done := out.current :: out.done, current := [], pendingSpace := false }

/-- Ask for blank lines before the next line. -/
def blank (out : Lines) (count : Nat) : Lines :=
  if 0 < count ∧ !out.scopeStart then { out with pendingBlank := max out.pendingBlank count }
  else out

/-- The text of the finished lines. -/
def text (out : Lines) : Chars :=
  Text.joinLines out.done.reverse

/-- The text of everything written. -/
def build (out : Lines) : Chars :=
  out.newline.text

end Lines

/-- One request to `Lines`. -/
inductive LineCall where
  | append (fragment : Chars)
  | raw (text : Chars)
  | space
  | newline
  | blank (count : Nat)
  | indent
  | dedent
  deriving DecidableEq, Repr

def LineCall.perform : LineCall → Lines → Lines
  | .append fragment, out => out.append fragment
  | .raw text, out => out.raw text
  | .space, out => out.space
  | .newline, out => out.newline
  | .blank count, out => out.blank count
  | .indent, out => out.indent
  | .dedent, out => out.dedent

end BladeTemplate
