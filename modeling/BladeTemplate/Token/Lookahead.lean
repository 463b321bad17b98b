import BladeTemplate.Markup.Attribute
import BladeTemplate.Markup.Tag
import BladeTemplate.Text.Bracket
import BladeTemplate.Text.Echo
import BladeTemplate.Text.Letter

/-!
# Looking ahead

How far a construct at the front of the text reaches. Every function here measures a length and
moves nothing, so a token is always a piece of the text cut off at a measured length.

* `textRunLength`: plain text up to the next construct;
* `directiveNameLength`: the name of a directive;
* `attributeNameLength`, `valueLength`: the parts of an attribute;
* `rawTextLength`: the body of an element that is not read as markup;
* `frontMatterLength`: a leading block between dashes.
-/

namespace BladeTemplate.Lookahead

open Text

/-- Number of leading characters that satisfy `keep`. -/
def countWhile (keep : Char → Bool) (text : Chars) : Nat :=
  (text.takeWhile keep).length

/-! ## Plain text -/

/-- Whether the text after an `@` that follows `previous` makes it a directive: a name starts and
no word ends at the `@`. -/
def startsDirective (previous : Option Char) (rest : Chars) : Bool :=
  (rest.head?.map isNameStart).getD false && !(previous.map isWordChar).getD false

/-- Whether the text after an angle bracket makes it the start of markup. -/
def startsMarkup : Chars → Bool
  | [] => false
  | '/' :: rest => (rest.head?.map isLetter).getD false
  | c :: _ => c.isAlpha || c = '!' || c = '?'

/-- How much of the text after an `@` belongs to an escaped echo of the given style: up to its
closing delimiter or, when there is none, just the opening one. -/
def escapedEchoLength (style : EchoStyle) (rest : Chars) : Nat :=
  match findDelimiter style.closer (rest.drop 2) with
  | some length => 2 + length + style.width
  | none => 2

/-- Length of the plain text at the front of a text that follows the character `previous`. Doubled
`@` and echoes behind an `@` are plain text. -/
def textRunLength (previous : Option Char) (text : Chars) : Nat :=
  match text with
  | [] => 0
  | c :: rest =>
    if c = '@' then
      if rest.head? = some '@' then 2 + textRunLength (some '@') (rest.drop 1)
      else
        match EchoStyle.startOf rest with
        | some style =>
          let length := escapedEchoLength style rest
          1 + length + textRunLength (rest.take length).getLast? (rest.drop length)
        | none =>
          if startsDirective previous rest then 0 else 1 + textRunLength (some c) rest
    else if c = '{' then
      if (EchoStyle.startOf (c :: rest)).isSome then 0 else 1 + textRunLength (some c) rest
    else if c = '<' then
      if startsMarkup rest then 0 else 1 + textRunLength (some c) rest
    else 1 + textRunLength (some c) rest
termination_by text.length
decreasing_by all_goals simp only [List.length_cons, List.length_drop]; omega

/-! ## Directives -/

/-- Length of a directive name: a word, or two words with a double colon between them. -/
def directiveNameLength (text : Chars) : Nat :=
  let first := countWhile isWordChar text
  match text.drop first with
  | ':' :: ':' :: rest =>
    let second := countWhile isWordChar rest
    if second = 0 then first else first + 2 + second
  | _ => first

/-- Distance from an `@` to the argument list of its directive, whose name has the given length. A
known directive that takes arguments may have spaces before them; an unknown one takes a balanced
group right behind its name. -/
def argumentsOffset (descriptor : Option Descriptor) (nameLength : Nat) (text : Chars) :
    Option Nat :=
  let rest := text.drop (1 + nameLength)
  match descriptor with
  | some descriptor =>
    let spaces := countWhile isInlineSpace rest
    if descriptor.acceptsArguments && (rest.drop spaces).head? = some '(' then
      some (1 + nameLength + spaces)
    else none
  | none =>
    if rest.head? = some '(' && (groupLength rest).isSome then some (1 + nameLength) else none

/-! ## Attributes -/

/-- Whether a character ends an attribute name. -/
def endsAttributeName (c : Char) : Bool :=
  isTagSpace c || c = '=' || c = '>' || isQuote c

/-- Length of the spaces and the argument group that follow an attribute name which is that of a
directive taking arguments. -/
def spacedGroupLength (registry : Registry) (name rest : Chars) : Option Nat :=
  let spaces := countWhile isInlineSpace rest
  let takesArguments := ((registry.lookup name).map (·.acceptsArguments)).getD false
  if takesArguments && (rest.drop spaces).head? = some '(' then
    (groupLength (rest.drop spaces)).map (spaces + ·)
  else none

/-- Length of an echo at the front of a text, both delimiters included, when it is closed. -/
def closedEchoLength (style : EchoStyle) (text : Chars) : Option Nat :=
  (findDelimiter style.closer (text.drop style.width)).map (style.width + · + style.width)

/-- Length of an attribute name, of which `done` characters of `whole` are behind and `rest` lies
ahead. Echoes are part of the name; so is the argument group of a name that starts with `@`, once
also after spaces. -/
def attributeNameFrom (registry : Registry) (whole : Chars) (grouped : Bool) (done : Nat)
    (rest : Chars) : Nat :=
  match rest with
  | [] => done
  | c :: tail =>
    let marked := whole.head? = some '@'
    if endsAttributeName c then
      if isInlineSpace c && marked && !grouped then
        match spacedGroupLength registry ((whole.take done).drop 1) (c :: tail) with
        | some length =>
          attributeNameFrom registry whole true (done + length) (tail.drop (length - 1))
        | none => done
      else done
    else if c = '/' && tail.head? = some '>' then done
    else if startsWith EchoStyle.escaped.opener (c :: tail) then
      match closedEchoLength .escaped (c :: tail) with
      | some length =>
        attributeNameFrom registry whole grouped (done + length) (tail.drop (length - 1))
      | none => done
    else if c = '(' && marked then
      match groupLength (c :: tail) with
      | some length =>
        attributeNameFrom registry whole true (done + length) (tail.drop (length - 1))
      | none => done
    else attributeNameFrom registry whole grouped (done + 1) tail
termination_by rest.length
decreasing_by all_goals simp only [List.length_cons, List.length_drop]; omega

/-- Length of the attribute name at the front of a text. A character that cannot start one is
taken alone. -/
def attributeNameLength (registry : Registry) (text : Chars) : Nat :=
  max 1 (attributeNameFrom registry text false 0 text)

/-- Length of an echo or template comment at the front of an attribute value, when it is closed. -/
def embeddedLength (text : Chars) : Option Nat :=
  if startsWith commentOpener text then
    (indexOf commentCloser (text.drop 4)).map (4 + · + 4)
  else
    match EchoStyle.startOf text with
    | some style => closedEchoLength style text
    | none => none

/-- Length of the rest of a quoted value, its closing quote included. Echoes and comments are
passed over as units. -/
def quotedTailLength (quote : Char) (text : Chars) : Option Nat :=
  match text with
  | [] => none
  | c :: rest =>
    if c = quote then some 1
    else
      match embeddedLength (c :: rest) with
      | some length => (quotedTailLength quote (rest.drop (length - 1))).map (length + ·)
      | none => (quotedTailLength quote rest).map (1 + ·)
termination_by text.length
decreasing_by all_goals simp only [List.length_cons, List.length_drop]; omega

/-- Length of a value without quotes: up to white space or the end of the tag, with escaped echoes
passed over as units. -/
def bareValueLength (text : Chars) : Nat :=
  match text with
  | [] => 0
  | c :: rest =>
    if isTagSpace c || c = '>' then 0
    else if startsWith EchoStyle.escaped.opener (c :: rest) then
      match closedEchoLength .escaped (c :: rest) with
      | some length => length + bareValueLength (rest.drop (length - 1))
      | none => 1 + bareValueLength rest
    else 1 + bareValueLength rest
termination_by text.length
decreasing_by all_goals simp only [List.length_cons, List.length_drop]; omega

/-- Length of the attribute value at the front of a text; nothing when its quote is not closed. -/
def valueLength (text : Chars) : Option Nat :=
  match text with
  | [] => some 0
  | c :: rest =>
    if isQuote c then (quotedTailLength c rest).map (1 + ·) else some (bareValueLength text)

/-! ## Bodies kept as they are -/

/-- A letter without regard to case, where the long `s` and the Turkish `i` count as the plain
letters. -/
def foldLetter (c : Char) : Char :=
  if c = 'ſ' then 's' else if c = 'İ' || c = 'ı' then 'i' else c.toLower

/-- Whether the end tag of `tag` stands at the front of a text. -/
def endsRawText (tag text : Chars) : Bool :=
  match text with
  | '<' :: '/' :: rest =>
    (rest.take tag.length).map foldLetter = tag.map foldLetter &&
      ((rest.drop tag.length).head?.map fun c => isBlank c || c = '>' || c = '/').getD false
  | _ => false

/-- Length of the body of an element that is not read as markup: up to its end tag. -/
def rawTextLength (tag : Chars) : Chars → Option Nat
  | [] => none
  | c :: rest =>
    if endsRawText tag (c :: rest) then some 0 else (rawTextLength tag rest).map (· + 1)

/-- The line of dashes around front matter. -/
def dashes : Chars := ['-', '-', '-']

/-- Length of front matter of which `done` characters are behind: up to the end of the first line
of dashes. -/
def frontMatterFrom (done : Nat) : List Chars → Option Nat
  | [] => none
  | line :: rest =>
    if (line.reverse.dropWhile (· = '\r')).reverse = dashes then some (done + line.length)
    else frontMatterFrom (done + line.length + 1) rest

/-- Length of the front matter at the start of a template, when its first line is one of dashes
and it is closed. -/
def frontMatterLength (text : Chars) : Option Nat :=
  if startsWith (dashes ++ ['\n']) text || startsWith (dashes ++ ['\r', '\n']) text then
    match splitLines text with
    | first :: rest => frontMatterFrom (first.length + 1) rest
    | [] => none
  else none

end BladeTemplate.Lookahead
