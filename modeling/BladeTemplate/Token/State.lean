import BladeTemplate.Text.Chars
import BladeTemplate.Directive.Registry
import BladeTemplate.Fault
import BladeTemplate.Token

/-!
# The state of the reader

A template is read from left to right with a stack of modes. Plain text is the mode at the bottom
of the stack; every construct opens a mode of its own and closes it when it ends.

* `Mode` is what a construct expects next;
* `ScanState` is the text ahead, the position, and the open modes;
* `ScanState.work` bounds the steps ahead.
-/

namespace BladeTemplate

/-- What a construct that is being read expects next: a directive from its `@` on, an argument list
from its parenthesis on, a start tag from its angle bracket on or from behind its name on. -/
inductive Mode where
  | directiveHead
  | arguments
  | echo
  | comment
  | tagStart
  | tag (name : Chars)
  | attributeValue (name : Chars)
  | verbatim
  | rawCode
  | rawText (tag : Chars)
  deriving DecidableEq, Repr

/-- An open mode and where its construct started. -/
structure OpenMode where
  mode : Mode
  start : Position
  deriving DecidableEq, Repr

/-- The text ahead, the character before it, its position, and the open modes, innermost first. -/
structure ScanState where
  previous : Option Char
  rest : Chars
  position : Position
  modes : List OpenMode
  deriving DecidableEq, Repr

namespace Mode

/-- The fault of a construct that is still open at the end of the text. -/
def openFault : Mode → LexFault
  | .tag _ => .startTag
  | .attributeValue name => .missingValue name
  | .rawText element => .missingRawText element
  | .directiveHead | .arguments | .echo | .comment | .tagStart | .verbatim | .rawCode =>
    .construct

/-- What the innermost mode adds to the work ahead: more where a step may open another mode
without reading. -/
def rank : Mode → Nat
  | .directiveHead | .tag _ => 2
  | .attributeValue _ | .rawText _ => 0
  | .arguments | .echo | .comment | .tagStart | .verbatim | .rawCode => 1

/-- What an open mode adds to the work ahead: something where it may close without reading. -/
def debt : Mode → Nat
  | .attributeValue _ | .rawText _ => 4
  | _ => 0

end Mode

namespace ScanState

/-- The state at the start of a text. -/
def start (text : Chars) : ScanState :=
  ⟨none, text, .start, []⟩

/-- Move over the next `length` characters. -/
def skip (s : ScanState) (length : Nat) : ScanState :=
  { s with
    previous := ((s.rest.take length).getLast?).or s.previous
    rest := s.rest.drop length
    position := s.position.advance (s.rest.take length) }

/-- The next `length` characters as a token. -/
def token (s : ScanState) (kind : TokenKind) (length : Nat) : Token :=
  ⟨kind, s.rest.take length, s.position, (s.skip length).position⟩

/-- Open a mode at the current position. -/
def push (s : ScanState) (mode : Mode) : ScanState :=
  { s with modes := ⟨mode, s.position⟩ :: s.modes }

def pop (s : ScanState) : ScanState :=
  { s with modes := s.modes.tail }

/-- Put another mode in place of the innermost one; its construct has the same start. -/
def become (s : ScanState) (mode : Mode) : ScanState :=
  match s.modes with
  | [] => s
  | current :: outer => { s with modes := { current with mode } :: outer }

/-- The current position as a location of no extent. -/
def here (s : ScanState) : Location where
  line := s.position.line
  column := s.position.column
  offset := s.position.offset
  endOffset := s.position.offset

/-- The debts of all open modes. -/
def debts : List OpenMode → Nat
  | [] => 0
  | top :: outer => top.mode.debt + debts outer

/-- The rank of the innermost mode; plain text has the highest. -/
def topRank : List OpenMode → Nat
  | [] => 3
  | top :: _ => top.mode.rank

/-- A bound on the steps ahead: the characters to read, the debts of the open modes, and the rank
of the innermost one. -/
def work (s : ScanState) : Nat :=
  5 * s.rest.length + debts s.modes + topRank s.modes

/-! ## What the moves change -/

@[simp]
theorem rest_skip (s : ScanState) (length : Nat) : (s.skip length).rest = s.rest.drop length := rfl

@[simp]
theorem modes_skip (s : ScanState) (length : Nat) : (s.skip length).modes = s.modes := rfl

@[simp]
theorem rest_push (s : ScanState) (mode : Mode) : (s.push mode).rest = s.rest := rfl

@[simp]
theorem modes_push (s : ScanState) (mode : Mode) :
    (s.push mode).modes = ⟨mode, s.position⟩ :: s.modes := rfl

@[simp]
theorem rest_pop (s : ScanState) : s.pop.rest = s.rest := rfl

@[simp]
theorem modes_pop (s : ScanState) : s.pop.modes = s.modes.tail := rfl

@[simp]
theorem rest_become (s : ScanState) (mode : Mode) : (s.become mode).rest = s.rest := by
  unfold become; split <;> rfl

end ScanState
end BladeTemplate
