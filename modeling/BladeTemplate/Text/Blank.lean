import BladeTemplate.Text.Chars
import BladeTemplate.Text.CodeRange

/-!
# Blank characters

Three notions of white space are kept apart.

* `isBlank`: the Unicode white space that layout may drop or replace;
* `isTagSpace`: the five characters that separate attributes inside a tag;
* `isInlineSpace`: space and tab, allowed between a directive and its argument list.
-/

namespace BladeTemplate.Text

/-- White space: the separators and controls that count as blank, the no-break spaces included. -/
def blankRanges : CodeRanges :=
  [(0x09, 0x0D), (0x1C, 0x20), (0x85, 0x85), (0xA0, 0xA0), (0x1680, 0x1680), (0x2000, 0x200A),
    (0x2028, 0x2029), (0x202F, 0x202F), (0x205F, 0x205F), (0x3000, 0x3000)]

def isBlank (c : Char) : Bool :=
  blankRanges.holds c

/-- Space, tab, carriage return, line feed or form feed. -/
def isTagSpace (c : Char) : Bool :=
  c = ' ' || c = '\t' || c = '\r' || c = '\n' || c = Char.ofNat 0x0C

def isInlineSpace (c : Char) : Bool :=
  c = ' ' || c = '\t'

/-- The text without its leading white space. -/
def trimLeft (text : Chars) : Chars :=
  text.dropWhile isBlank

/-- The text without its trailing white space. -/
def trimRight (text : Chars) : Chars :=
  (text.reverse.dropWhile isBlank).reverse

/-- The text without the white space at both ends. -/
def trim (text : Chars) : Chars :=
  trimRight (trimLeft text)

/-- Whether the text holds nothing but white space. -/
def isBlankText (text : Chars) : Bool :=
  text.all isBlank

/-- The text with every white space character removed. -/
def squeeze (text : Chars) : Chars :=
  text.filter (!isBlank ·)

/-- The first run of characters that are not white space, if there is one. -/
def firstWord (text : Chars) : Chars :=
  (trimLeft text).takeWhile (!isBlank ·)

/-- The text without the characters at both ends that satisfy `drop`. -/
def trimBoth (drop : Char → Bool) (text : Chars) : Chars :=
  ((text.dropWhile drop).reverse.dropWhile drop).reverse

end BladeTemplate.Text
