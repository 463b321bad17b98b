import BladeTemplate.Text.Printable

/-!
# Quoted text

How a text is shown inside a message: between quotes, with escapes for the quote in use, the
backslash, and every character that cannot be shown as it is.
-/

namespace BladeTemplate.Text

/-- The last `width` hexadecimal digits of a number, in lower case. -/
def hexDigits (width n : Nat) : Chars :=
  let digits := Nat.toDigits 16 n
  List.replicate (width - digits.length) '0' ++ digits

/-- A character that cannot be shown, by its code point in the shortest of three widths. -/
def escapedCode (c : Char) : Chars :=
  let n := c.toNat
  if n < 0x100 then '\\' :: 'x' :: hexDigits 2 n
  else if n < 0x10000 then '\\' :: 'u' :: hexDigits 4 n
  else '\\' :: 'U' :: hexDigits 8 n

/-- One character as it stands between two `quote` characters. -/
def quotedChar (quote c : Char) : Chars :=
  if c = quote || c = '\\' then ['\\', c]
  else if c = '\t' then ['\\', 't']
  else if c = '\n' then ['\\', 'n']
  else if c = '\r' then ['\\', 'r']
  else if isPrintable c then [c]
  else escapedCode c

/-- The quote to put around a text: an apostrophe, or a double quote when the text holds an
apostrophe and no double quote. -/
def quoteFor (text : Chars) : Char :=
  if text.contains apostrophe && !text.contains doubleQuote then doubleQuote else apostrophe

/-- The text between quotes. -/
def quoted (text : Chars) : Chars :=
  let quote := quoteFor text
  quote :: text.flatMap (quotedChar quote) ++ [quote]

end BladeTemplate.Text
