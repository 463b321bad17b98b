import BladeTemplate.Text.Blank
import BladeTemplate.Text.Literal

/-!
# Bracket structure of expressions

Argument lists are balanced groups of the three bracket pairs, in which string literals are
opaque.

* `groupLength` measures the balanced group at the front of a text;
* `splitTopLevel` cuts an expression at the separators outside brackets and literals;
* `countArguments` counts the arguments of a parenthesised list.
-/

namespace BladeTemplate.Text

/-- The bracket that closes an opening one. -/
def closingBracket : Char → Option Char
  | '(' => some ')'
  | '[' => some ']'
  | '{' => some '}'
  | _ => none

/-- Whether a character is a closing bracket. -/
def isClosingBracket (c : Char) : Bool :=
  c = ')' || c = ']' || c = '}'

/-- Length of the rest of a bracket group, where `pending` lists the closing brackets still owed,
innermost first. Nothing when a bracket does not match or the text ends first. -/
def groupLengthFrom : List Char → Quoting → Chars → Option Nat
  | _, _, [] => none
  | pending, .code, c :: rest =>
    if isQuote c then (groupLengthFrom pending (.literal c) rest).map (· + 1)
    else
      match closingBracket c with
      | some closer => (groupLengthFrom (closer :: pending) .code rest).map (· + 1)
      | none =>
        if isClosingBracket c then
          match pending with
          | [] => none
          | closer :: outer =>
            if c ≠ closer then none
            else if outer.isEmpty then some 1
            else (groupLengthFrom outer .code rest).map (· + 1)
        else (groupLengthFrom pending .code rest).map (· + 1)
  | pending, state, c :: rest => (groupLengthFrom pending (state.next c) rest).map (· + 1)

/-- Length of the balanced bracket group at the front of a text. -/
def groupLength (text : Chars) : Option Nat :=
  groupLengthFrom [] .code text

/-- Pieces of an expression between the separators at depth zero. A closing bracket without a
partner leaves the depth at zero. -/
def splitFrom (separator : Chars) : Nat → Quoting → Chars → List Chars
  | _, _, [] => [[]]
  | depth, .code, c :: rest =>
    if isQuote c then pushFirst c (splitFrom separator depth (.literal c) rest)
    else if (closingBracket c).isSome then
      pushFirst c (splitFrom separator (depth + 1) .code rest)
    else if isClosingBracket c then pushFirst c (splitFrom separator (depth - 1) .code rest)
    else if [c] = separator ∧ depth = 0 then [] :: splitFrom separator 0 .code rest
    else pushFirst c (splitFrom separator depth .code rest)
  | depth, state, c :: rest => pushFirst c (splitFrom separator depth (state.next c) rest)

/-- Cut an expression at every separator outside brackets and string literals. A separator is a
single character; a longer one never occurs. -/
def splitTopLevel (separator expression : Chars) : List Chars :=
  splitFrom separator 0 .code expression

/-- The text without a pair of parentheses around the whole of it. -/
def insideParens (text : Chars) : Chars :=
  if text.head? = some '(' && text.getLast? = some ')' then text.tail.dropLast else text

/-- Number of arguments in a list: none for a blank list, else one more than its separating
commas. The parentheses around the list may be missing. -/
def countArguments (list : Option Chars) : Nat :=
  match list with
  | none => 0
  | some text =>
    let inside := insideParens text
    if isBlankText inside then 0 else (splitTopLevel [','] inside).length

end BladeTemplate.Text
