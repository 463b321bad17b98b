import BladeTemplate.Text.Chars

/-!
# String literals and delimiters

Expressions inside a template are not parsed, but their string literals have to be recognised: a
closing delimiter or a bracket inside a literal does not count. `Quoting` is the automaton that
tells code from literals, one character at a time.

* `literalLength` measures the literal at the front of a text;
* `findDelimiter` finds a closing delimiter outside literals, and falls back to a plain search
  when there is none.
-/

namespace BladeTemplate.Text

/-- Whether a character opens a string literal. -/
def isQuote (c : Char) : Bool :=
  c = apostrophe || c = doubleQuote

/-- Where a character stands with regard to string literals: outside of all, inside one that `quote`
ends, or right after a backslash inside such a one. -/
inductive Quoting where
  | code
  | literal (quote : Char)
  | escape (quote : Char)
  deriving DecidableEq, Repr

/-- The state after one more character. A backslash protects the character after it, also the
quote itself. -/
def Quoting.next : Quoting → Char → Quoting
  | .code, c => if isQuote c then .literal c else .code
  | .literal quote, c =>
    if c = '\\' then .escape quote else if c = quote then .code else .literal quote
  | .escape quote, _ => .literal quote

/-- Number of characters up to and including the one that leads back to code. -/
def lengthToCode : Quoting → Chars → Option Nat
  | _, [] => none
  | state, c :: rest =>
    if state.next c = .code then some 1 else (lengthToCode (state.next c) rest).map (· + 1)

/-- Length of the literal whose quote is the first character, both quotes included; nothing when
it is not closed. -/
def literalLength : Chars → Option Nat
  | [] => none
  | quote :: rest => (lengthToCode (.literal quote) rest).map (· + 1)

/-- What a search that starts at a position can answer. Out of range there is no first character to
compare with. -/
inductive SearchResult where
  | outOfRange
  | notFound
  | foundAt (position : Nat)
  deriving DecidableEq, Repr

/-- The answer to a search that counts from `start`. -/
def SearchResult.after (start : Nat) : Option Nat → SearchResult
  | some distance => .foundAt (start + distance)
  | none => .notFound

/-- The position right after the literal whose quote stands at `start`. -/
def literalEnd (text : Chars) (start : Nat) : SearchResult :=
  if start < text.length then .after start (literalLength (text.drop start)) else .outOfRange

/-- Index of the first `closer` outside literals, from the given state on. -/
def findOutsideLiterals (closer : Chars) : Quoting → Chars → Option Nat
  | _, [] => none
  | .code, c :: rest =>
    if isQuote c then (findOutsideLiterals closer (.literal c) rest).map (· + 1)
    else if startsWith closer (c :: rest) then some 0
    else (findOutsideLiterals closer .code rest).map (· + 1)
  | state, c :: rest => (findOutsideLiterals closer (state.next c) rest).map (· + 1)

/-- Index of the `closer` that ends an expression: the first one outside string literals or, when
a stray quote hides them all, simply the first one. -/
def findDelimiter (closer text : Chars) : Option Nat :=
  (findOutsideLiterals closer .code text).or (indexOf closer text)

/-- Position of the `closer` that ends the expression starting at `start`. -/
def findDelimiterFrom (closer text : Chars) (start : Nat) : SearchResult :=
  if closer.isEmpty then .outOfRange else .after start (findDelimiter closer (text.drop start))

end BladeTemplate.Text
