import BladeTemplate.Text.Blank
import BladeTemplate.Text.LowerCase

/-!
# Tags

Tag names and what they say about an element: whether it is a component or one of a component's
slots, whether its body is read as markup, whether it takes an end tag, and whether it stands on
lines of its own.
-/

namespace BladeTemplate

/-- What a tag names. -/
inductive TagKind where
  | element
  | component
  | slot
  deriving DecidableEq, Repr

namespace Tag

def slotTag : Chars := "x-slot".toList

/-- What component tags start with. -/
def componentLead : Chars := "x-".toList

/-- Whether a character may stand in a tag name. -/
def isNameChar (c : Char) : Bool :=
  c.isAlphanum || c = '-' || c = '_' || c = ':' || c = '.'

/-- Length of the tag name at the front of a text. -/
def nameLength (text : Chars) : Nat :=
  (text.takeWhile isNameChar).length

/-- Whether a tag, in lower case, is that of a slot. -/
def namesSlot (lowered : Chars) : Bool :=
  lowered = slotTag || Text.startsWith (slotTag ++ [':']) lowered

/-- What a tag names, whatever its case. -/
def kindOf (name : Chars) : TagKind :=
  let lowered := Text.lower name
  if namesSlot lowered then .slot
  else if Text.startsWith componentLead lowered then .component
  else .element

/-- Elements whose bodies are not read as markup. -/
def rawTextNames : List String := ["script", "style", "pre", "textarea"]

/-- Elements without an end tag. -/
def voidNames : List String :=
  ["area", "base", "br", "col", "embed", "hr", "img", "input", "link", "meta", "param", "source",
    "track", "wbr"]

/-- Elements that stand on lines of their own when they hold markup. -/
def blockNames : List String :=
  ["address", "article", "aside", "blockquote", "body", "details", "dialog", "dd", "div", "dl",
    "dt", "fieldset", "figcaption", "figure", "footer", "form", "head", "header", "hgroup",
    "html", "li", "main", "menu", "nav", "ol", "optgroup", "section", "select", "summary",
    "table", "tbody", "td", "template", "tfoot", "th", "thead", "tr", "ul"]

/-- Elements in whose bodies the indentation of the end tag is not content. -/
def reindentedNames : List String := ["script", "style"]

/-- Whether a tag is in a list of lower-case names, whatever its case. -/
def isOneOf (names : List String) (tag : Chars) : Bool :=
  names.any fun name => name.toList = Text.lower tag

/-- The name inside an end tag: its first word, without the angle brackets and the slash. -/
def endTagName (text : Chars) : Chars :=
  Text.firstWord (((text.drop 2).reverse.dropWhile (· = '>')).reverse)

/-- Whether an end tag closes an open tag: the names agree but for case, or the end tag is that of
an unnamed slot and the open tag that of a named one. -/
def closes (endName tag : Chars) : Bool :=
  let wanted := Text.lower endName
  let opened := Text.lower tag
  opened = wanted || (wanted = slotTag && Text.startsWith (slotTag ++ [':']) opened)

end Tag
end BladeTemplate
