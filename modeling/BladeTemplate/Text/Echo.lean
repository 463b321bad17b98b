import BladeTemplate.Text.Blank
import BladeTemplate.Text.Literal

/-!
# Echo text

An echo prints an expression, either escaped between double braces or raw between a brace and two
exclamation marks.

* `EchoStyle` gives the two pairs of delimiters;
* `formatEcho` writes an echo in its canonical form;
* `normalizeEchoes` gives every echo inside an attribute value its canonical form and leaves the
  rest alone.
-/

namespace BladeTemplate

/-- The two kinds of echo. -/
inductive EchoStyle where
  | escaped
  | raw
  deriving DecidableEq, Repr

namespace EchoStyle

def opener : EchoStyle → Chars
  | .escaped => ['{', '{']
  | .raw => ['{', '!', '!']

def closer : EchoStyle → Chars
  | .escaped => ['}', '}']
  | .raw => ['!', '!', '}']

/-- Length of either delimiter. -/
def width : EchoStyle → Nat
  | .escaped => 2
  | .raw => 3

theorem width_pos (style : EchoStyle) : 0 < style.width := by
  cases style <;> decide

theorem length_opener (style : EchoStyle) : style.opener.length = style.width := by
  cases style <;> rfl

theorem length_closer (style : EchoStyle) : style.closer.length = style.width := by
  cases style <;> rfl

/-- The kind of echo that starts at the front of a text, if one does. -/
def startOf (text : Chars) : Option EchoStyle :=
  if Text.startsWith EchoStyle.raw.opener text then some .raw
  else if Text.startsWith EchoStyle.escaped.opener text then some .escaped
  else none

end EchoStyle

namespace Text

/-- The text that opens a template comment. -/
def commentOpener : Chars := ['{', '{', '-', '-']

/-- The text that closes a template comment. -/
def commentCloser : Chars := ['-', '-', '}', '}']

/-- Canonical text of an echo. A body on one line has exactly one space on either side; a body
that spans lines is kept as it is. -/
def formatEcho (style : EchoStyle) (body : Chars) : Chars :=
  if isMultiline body then style.opener ++ body ++ style.closer
  else
    let inner := trim body
    if inner.isEmpty then style.opener ++ [' '] ++ style.closer
    else style.opener ++ [' '] ++ inner ++ [' '] ++ style.closer

/-- The kind of echo to normalize at the front of a text: not one escaped by `@`, and not a
template comment. -/
def echoToNormalize (previous : Option Char) (text : Chars) : Option EchoStyle :=
  if previous = some '@' || startsWith commentOpener text then none else EchoStyle.startOf text

/-- Normalize the echoes of a text that follows the character `previous`. The rest of a text whose
next echo is not closed is left alone. -/
def normalizeEchoesAfter (previous : Option Char) (text : Chars) : Chars :=
  match text with
  | [] => []
  | c :: rest =>
    match echoToNormalize previous (c :: rest) with
    | none => c :: normalizeEchoesAfter (some c) rest
    | some style =>
      let body := rest.drop (style.width - 1)
      match findDelimiter style.closer body with
      | none => c :: rest
      | some length =>
        formatEcho style (body.take length) ++
          normalizeEchoesAfter (some '}') (body.drop (length + style.width))
termination_by text.length
decreasing_by all_goals simp only [List.length_cons, List.length_drop]; omega

/-- Give every echo of an attribute value its canonical form. -/
def normalizeEchoes (value : Chars) : Chars :=
  normalizeEchoesAfter none value

end Text
end BladeTemplate
