/-!
# Template text

Templates are handled one code point at a time: offsets, columns and lengths all count entries
of a `List Char`. This module holds the few list operations every other module needs.

* `startsWith` and `indexOf` look for a literal piece of text;
* `slice` cuts out what stands between two positions;
* `splitLines` cuts at line feeds, `joinLines` ends every line with one;
* `pushFirst` puts a character in front of the first piece of a split.
-/

namespace BladeTemplate

/-- A piece of template text, one entry per code point. -/
abbrev Chars := List Char

namespace Text

/-- The apostrophe, one of the two quotes of a string literal. -/
def apostrophe : Char := Char.ofNat 0x27

/-- The double quote, the other quote of a string literal. -/
def doubleQuote : Char := Char.ofNat 0x22

/-- Whether `text` begins with `lead`. -/
def startsWith (lead text : Chars) : Bool :=
  lead.isPrefixOf text

/-- Index of the first occurrence of `needle` in `text`. -/
def indexOf (needle : Chars) : Chars → Option Nat
  | [] => if needle.isEmpty then some 0 else none
  | c :: rest =>
    if startsWith needle (c :: rest) then some 0 else (indexOf needle rest).map (· + 1)

/-- The index that a position stands for: a negative position counts from the end of the text, and
stops at its start. -/
def indexAt (text : Chars) (position : Int) : Nat :=
  if position < 0 then (position + text.length).toNat else position.toNat

/-- What stands between two positions, the second one excluded. -/
def slice (text : Chars) (first last : Int) : Chars :=
  (text.drop (indexAt text first)).take (indexAt text last - indexAt text first)

@[simp]
theorem indexAt_natCast (text : Chars) (n : Nat) : indexAt text n = n := by
  have start : ¬(n : Int) < 0 := by omega
  simp only [indexAt, start, if_false, Int.toNat_natCast]

/-- Between positions counted from the start, a slice is a `take` after a `drop`. -/
theorem slice_natCast (text : Chars) (first last : Nat) :
    slice text first last = (text.drop first).take (last - first) := by
  simp only [slice, indexAt_natCast]

/-- Put a character in front of the first piece; with no piece yet it starts one. -/
def pushFirst (c : Char) : List Chars → List Chars
  | [] => [[c]]
  | piece :: pieces => (c :: piece) :: pieces

/-- The pieces between line feeds. A text without line feed is one piece, also when empty. -/
def splitLines : Chars → List Chars
  | [] => [[]]
  | c :: rest => if c = '\n' then [] :: splitLines rest else pushFirst c (splitLines rest)

/-- The lines in order, each ended by a line feed. -/
def joinLines (lines : List Chars) : Chars :=
  lines.flatMap (· ++ ['\n'])

/-- Whether the text spans more than one line. -/
def isMultiline (text : Chars) : Bool :=
  text.contains '\n'

/-- A new copy of `piece`, `count` times over. -/
def replicate (count : Nat) (piece : Chars) : Chars :=
  (List.replicate count piece).flatten

/-- Whether a text stands no later than another in the order of code points. -/
def notAfter : Chars → Chars → Bool
  | [], _ => true
  | _ :: _, [] => false
  | a :: as, b :: bs => if a = b then notAfter as bs else a.toNat < b.toNat

/-- The decimal digit of a number below ten. -/
def digit (n : Nat) : Char :=
  Char.ofNat ('0'.toNat + n)

def decimal (n : Nat) : Chars :=
  if n < 10 then [digit n] else decimal (n / 10) ++ [digit (n % 10)]

/-- Decimal digits of a whole number, after a minus sign if it is negative. -/
def signedDecimal (n : Int) : Chars :=
  if n < 0 then '-' :: decimal n.natAbs else decimal n.natAbs

/-- The number that a run of decimal digits spells. -/
def digitsValue (run : Chars) : Nat :=
  run.foldl (fun n c => n * 10 + (c.toNat - '0'.toNat)) 0

/-- The last line feed splits a text into what precedes it and the last line, if there is one. -/
def splitLastLine (text : Chars) : Option (Chars × Chars) :=
  let last := (text.reverse.takeWhile (· != '\n')).reverse
  if isMultiline text then some (text.take (text.length - last.length - 1), last) else none

end Text
end BladeTemplate
