import BladeTemplate.Config
import BladeTemplate.Markup.Tag
import BladeTemplate.Text.Bracket
import BladeTemplate.Text.Echo
import BladeTemplate.Proofs.Ink

/-!
# Drafts

A draft is a template whose constructs stand on lines of their own: plain lines, echoes, elements
and blocks of any depth, with any white space at either end of a line and blank lines anywhere.

* `Draft` is the tree together with its white space, `Draft.source` the template;
* `Draft.placed` tells whether elements hold something and middles stand directly in a block;
* `Draft.tidy` has the same items with the white space of the canonical layout, and
  `Draft.canonical` is its text.
-/

namespace BladeTemplate

open Text

/-- Every character passes a test that can be run. -/
theorem Text.forall_of_all {passes : Char → Prop} [DecidablePred passes] {text : Chars}
    (all : text.all (passes ·) = true) : ∀ c ∈ text, passes c := by
  simpa using all

/-! ## Parts of lines -/

/-- White space within a line. -/
structure Space where
  text : Chars
  blank : ∀ c ∈ text, isBlank c = true ∧ c ≠ '\n'

def Space.none : Space := ⟨[], by simp⟩

def Space.one : Space := ⟨[' '], forall_of_all (by decide)⟩

/-- The white space at both ends of a line. -/
structure Margin where
  lead : Space
  trail : Space

/-- A line that holds the given text. -/
def Margin.around (margin : Margin) (text : Chars) : Chars :=
  margin.lead.text ++ text ++ margin.trail.text

/-- Whether no construct starts with the character. -/
def isPlain (c : Char) : Bool :=
  c ≠ '@' && c ≠ '{' && c ≠ '<'

/-- What a plain line holds. -/
structure Phrase where
  text : Chars
  nonempty : text ≠ []
  trimmed : trim text = text
  plain : ∀ c ∈ text, c ≠ '\n' ∧ isPlain c = true

/-- An escaped echo on one line. -/
structure Interpolation where
  before : Space
  expression : Chars
  after : Space
  nonempty : expression ≠ []
  trimmed : trim expression = expression
  simple : ∀ c ∈ expression, c ≠ '\n' ∧ isQuote c = false ∧ c ≠ '{' ∧ c ≠ '}'
  notComment : startsWith ['-', '-'] expression = false

namespace Interpolation

/-- What stands between the delimiters. -/
def body (braced : Interpolation) : Chars :=
  braced.before.text ++ braced.expression ++ braced.after.text

def text (braced : Interpolation) : Chars :=
  ['{', '{'] ++ braced.body ++ ['}', '}']

/-- The echo with one space on either side. -/
def tidy (braced : Interpolation) : Interpolation :=
  { braced with before := .one, after := .one }

end Interpolation

/-- The name of an element that takes an end tag and whose body is read as markup. -/
structure TagName where
  text : Chars
  letters : ∀ c ∈ text, (c.isLower || c.isDigit) = true
  starts : (text.head?.map Char.isLower).getD false = true
  notVoid : Tag.isOneOf Tag.voidNames text = false
  notRaw : Tag.isOneOf Tag.rawTextNames text = false

namespace TagName

def opening (tag : TagName) : Chars := '<' :: tag.text ++ ['>']

def closing (tag : TagName) : Chars := ['<', '/'] ++ tag.text ++ ['>']

end TagName

/-- The blocks of drafts. -/
inductive Keyword where
  | condition
  | exception
  | presence
  | count
  | each
  | loop
  deriving DecidableEq, Repr

namespace Keyword

/-- The directive that opens a block. -/
def name : Keyword → String
  | .condition => "if"
  | .exception => "unless"
  | .presence => "isset"
  | .count => "for"
  | .each => "foreach"
  | .loop => "while"

/-- The directive that closes a block. -/
def endName (keyword : Keyword) : String := "end" ++ keyword.name

/-- Whether a block may have several branches. -/
def branches : Keyword → Bool
  | .condition | .exception | .presence => true
  | .count | .each | .loop => false

/-- What closes a block. -/
def closing (keyword : Keyword) : Chars := '@' :: keyword.endName.toList

end Keyword

/-- A directive that opens a block, with its arguments. -/
structure Opening where
  keyword : Keyword
  gap : Chars
  arguments : Chars
  spaces : ∀ c ∈ gap, isInlineSpace c = true
  nonempty : arguments ≠ []
  simple : ∀ c ∈ arguments,
    c ≠ '\n' ∧ isQuote c = false ∧ closingBracket c = none ∧ isClosingBracket c = false

namespace Opening

/-- The text of a directive with its arguments. -/
def text (opening : Opening) : Chars :=
  '@' :: opening.keyword.name.toList ++ opening.gap ++ ['('] ++ opening.arguments ++ [')']

/-- The directive with the white space of the canonical layout. -/
def tidy (opening : Opening) : Opening :=
  { opening with
    gap := if opening.keyword = .presence then [] else [' ']
    spaces := by
      intro c member
      split at member
      · cases member
      · rw [List.mem_singleton.1 member]
        decide }

end Opening

/-- What separates two branches. -/
def otherwiseText : Chars := "@else".toList

/-! ## Trees of lines -/

/-- The items of a template, one after another: each on a line of its own or, for elements and
blocks, on several. -/
inductive Draft where
  | done
  | blank (space : Space) (rest : Draft)
  | text (margin : Margin) (phrase : Phrase) (rest : Draft)
  | echo (margin : Margin) (braced : Interpolation) (rest : Draft)
  | element (start : Margin) (tag : TagName) (inside : Draft) (stop : Margin) (rest : Draft)
  | block (start : Margin) (opening : Opening) (inside : Draft) (stop : Margin) (rest : Draft)
  | otherwise (margin : Margin) (rest : Draft)

namespace Draft

def lines : Draft → List Chars
  | .done => []
  | .blank space rest => space.text :: rest.lines
  | .text margin phrase rest => margin.around phrase.text :: rest.lines
  | .echo margin braced rest => margin.around braced.text :: rest.lines
  | .element start tag inside stop rest =>
    start.around tag.opening :: inside.lines ++ stop.around tag.closing :: rest.lines
  | .block start opening inside stop rest =>
    start.around opening.text :: inside.lines ++ stop.around opening.keyword.closing :: rest.lines
  | .otherwise margin rest => margin.around otherwiseText :: rest.lines

/-- The template: the lines with a line feed between each two. -/
def source (draft : Draft) : Chars :=
  (joinLines draft.lines).dropLast

/-- Whether there is anything but blank lines. -/
def filled : Draft → Bool
  | .done => false
  | .blank _ rest => rest.filled
  | _ => true

/-- Whether every element holds something, and every middle stands directly in a block that may
have branches. -/
def placed (branches : Bool) : Draft → Bool
  | .done => true
  | .blank _ rest | .text _ _ rest | .echo _ _ rest => rest.placed branches
  | .element _ _ inside _ rest => inside.filled && inside.placed false && rest.placed branches
  | .block _ opening inside _ rest =>
    inside.placed opening.keyword.branches && rest.placed branches
  | .otherwise _ rest => branches && rest.placed branches

/-- The draft after some empty lines. -/
def spaced : Nat → Draft → Draft
  | 0, draft => draft
  | count + 1, draft => .blank .none (spaced count draft)

end Draft

namespace Config

/-- White space indents. -/
theorem blank_indentUnit (config : Config) :
    ∀ c ∈ config.indentUnit, isBlank c = true ∧ c ≠ '\n' := by
  intro c member
  rcases config.eq_of_mem_indentUnit member with rfl | rfl <;> decide

/-- The white space before a line at a depth. -/
def indent (config : Config) (depth : Nat) : Space where
  text := replicate depth config.indentUnit
  blank := by
    intro c member
    obtain ⟨unit, copies, inUnit⟩ := List.mem_flatten.1 member
    rw [List.eq_of_mem_replicate copies] at inUnit
    exact config.blank_indentUnit c inUnit

/-- The margin of a line at a depth. -/
def margin (config : Config) (depth : Nat) : Margin := ⟨config.indent depth, .none⟩

/-- How many blank lines are kept of those passed: none at the start of a scope. -/
def kept (config : Config) (opened : Bool) (passed : Nat) : Nat :=
  if opened then min passed config.preserveBlankLines else 0

end Config

namespace Draft

/-- The same items in the canonical layout. Lines are indented by their depth. Of the blank lines
between two items of a scope as many as are kept stand before the second one; next to the ends of
the scope and to a middle there are none. -/
def tidy (config : Config) (depth : Nat) (opened : Bool) (passed : Nat) : Draft → Draft
  | .done => .done
  | .blank _ rest => rest.tidy config depth opened (passed + 1)
  | .text _ phrase rest =>
    spaced (config.kept opened passed)
      (.text (config.margin depth) phrase (rest.tidy config depth true 0))
  | .echo _ braced rest =>
    spaced (config.kept opened passed)
      (.echo (config.margin depth) braced.tidy (rest.tidy config depth true 0))
  | .element _ tag inside _ rest =>
    spaced (config.kept opened passed)
      (.element (config.margin depth) tag (inside.tidy config (depth + 1) false 0)
        (config.margin depth) (rest.tidy config depth true 0))
  | .block _ opening inside _ rest =>
    spaced (config.kept opened passed)
      (.block (config.margin depth) opening.tidy (inside.tidy config (depth + 1) false 0)
        (config.margin depth) (rest.tidy config depth true 0))
  | .otherwise _ rest =>
    .otherwise (config.margin (depth - 1)) (rest.tidy config depth false 0)

/-- The text of the canonical layout; every line of it is ended. -/
def canonical (config : Config) (draft : Draft) : Chars :=
  joinLines (draft.tidy config 0 false 0).lines

end Draft

end BladeTemplate
