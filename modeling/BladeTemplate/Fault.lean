import BladeTemplate.Text.Echo
import BladeTemplate.Location

/-!
# Fatal conditions

Two conditions leave a template as it is: a construct that is still open where the template ends
(`LexFault`), and a result that would not survive a second formatting run (`Instability`).
-/

namespace BladeTemplate

/-- The constructs that can be left open. A value or a raw text is missing when not even its first
character is there. -/
inductive LexFault where
  | argumentList
  | echo (style : EchoStyle)
  | comment
  | startTag
  | attributeValue
  | missingValue (name : Chars)
  | verbatim
  | rawCode
  | rawText (tag : Chars)
  | missingRawText (tag : Chars)
  | endTag
  | markupComment
  | characterData
  | declaration
  | construct
  deriving DecidableEq, Repr

def LexFault.text : LexFault → String
  | .argumentList => "unterminated directive argument list"
  | .echo .escaped => "unterminated echo, missing '\x7d\x7d'"
  | .echo .raw => "unterminated echo, missing '!!\x7d'"
  | .comment => "unterminated comment, missing '--\x7d\x7d'"
  | .startTag => "unterminated tag"
  | .attributeValue => "unterminated attribute value"
  | .missingValue name =>
    let name := String.ofList name
    s!"unterminated attribute value for '{name}'"
  | .verbatim => "unterminated @verbatim block, missing @endverbatim"
  | .rawCode => "unterminated @php block, missing @endphp"
  | .rawText tag =>
    let tag := String.ofList tag
    s!"unterminated <{tag}> element, missing </{tag}>"
  | .missingRawText tag =>
    let tag := String.ofList tag
    s!"unterminated raw text element <{tag}>"
  | .endTag => "unterminated end tag"
  | .markupComment => "unterminated HTML comment, missing '-->'"
  | .characterData => "unterminated CDATA section, missing ']]>'"
  | .declaration => "unterminated declaration, missing '>'"
  | .construct => "unterminated construct"

/-- An error of reading a template, with as much of its place as is known. -/
structure LexError where
  text : String
  line : Option Int := none
  column : Option Int := none
  file : Option String := none
  deriving DecidableEq, Repr

namespace LexError

/-- A fault at a position of a file. -/
def ofFault (fault : LexFault) (position : Position) (file : Option String) : LexError :=
  ⟨fault.text, some (position.line : Int), some (position.column : Int), file⟩

/-- The place of an error in front of its text: file, line and column, with colons between. -/
def place (error : LexError) : Chars :=
  let file := (error.file.getD "").toList
  let file := if file.isEmpty then [] else file ++ [':']
  match error.line with
  | none => file
  | some line =>
    let column := (error.column.map fun column => Text.signedDecimal column ++ [':']).getD []
    file ++ Text.signedDecimal line ++ [':'] ++ column

/-- The error as it is shown to users. -/
def message (error : LexError) : String :=
  let place := error.place
  if place.isEmpty then error.text
  else String.ofList ((place.reverse.dropWhile (· = ':')).reverse ++ [' ']) ++ error.text

end LexError

/-- Why a result is not stable: it cannot be read, its constructs are not those of the template, or
formatting it once more changes it, first at the given line. -/
inductive Instability where
  | unreadable (text : String)
  | missingNode
  | changedNode
  | extraNodes
  | changedLine (line : Nat)
  deriving DecidableEq, Repr

def Instability.reason : Instability → String
  | .unreadable text => s!"formatted output no longer scans: {text}"
  | .missingNode => "node missing from formatted output"
  | .changedNode => "node structure changed"
  | .extraNodes => "formatted output has extra nodes"
  | .changedLine line => s!"second pass changes output line {line}"

/-- An instability, with the line of the top-level construct it starts at. -/
structure Violation where
  reason : String
  line : Option Int := none
  deriving DecidableEq, Repr

/-- The violation as it is shown to users. A line zero is not shown. -/
def Violation.message (violation : Violation) : String :=
  let line := violation.line.getD 0
  let place := if line = 0 then "" else s!" (top-level node at line {line})"
  let reason := violation.reason
  s!"Formatting is not stable{place}: {reason}"

end BladeTemplate
