import BladeTemplate.Config
import BladeTemplate.Node

/-!
# Layout decisions

What a construct is written as on one line, and whether one line will do.

* `directiveText`, `attributeText` and `startTagText` are the canonical texts of constructs;
* `wraps` tells whether a start tag has one attribute per line;
* `isInline` tells whether a node is written without line break at a given level.
-/

namespace BladeTemplate

/-- What the layout of a template depends on besides its tree. -/
structure Page where
  config : Config
  source : Chars

namespace Page

open Text

/-- The text of a directive. Unregistered directives, those without a block, and closers that are
to stay as written are copied; all others are in the spelling of the registry, with their
arguments unchanged. -/
def directiveText (page : Page) (directive : Directive) : Chars :=
  if directive.orphan || !directive.registered then directive.source
  else if directive.pairing = .closes && page.config.closingStyle = .asWritten then
    directive.source
  else
    match directive.arguments with
    | none => '@' :: directive.name
    | some arguments =>
      '@' :: directive.name ++ (if directive.spacedArguments then [' '] else []) ++
        ['('] ++ arguments ++ [')']

/-- The text of an entry of a start tag. -/
def attributeText (entry : Attribute) : Chars :=
  match entry.echo with
  | some echo => formatEcho echo.style echo.expression
  | none =>
    match entry.value with
    | none => entry.name
    | some value => entry.name ++ ['='] ++ normalizeEchoes value

/-- The entries of a start tag in the order they are written. -/
def orderedAttributes (page : Page) (markup : Markup) : List Attribute :=
  Attribute.order markup.attributes page.config.sortAttributes

/-- A start tag with all its entries on one line. -/
def startTagText (page : Page) (markup : Markup) : Chars :=
  let entries := (page.orderedAttributes markup).flatMap fun entry => ' ' :: attributeText entry
  '<' :: markup.tag ++ entries ++ (if markup.selfClosing then [' ', '/', '>'] else ['>'])

/-- The end tag of an element. -/
def endTagText (markup : Markup) : Chars :=
  let name := markup.endTag.getD []
  ['<', '/'] ++ (if name.isEmpty then markup.tag else name) ++ ['>']

/-- Whether a start tag has one attribute per line: it has several, and one of the lines it would
take is too long. -/
def wraps (page : Page) (markup : Markup) (level : Nat) : Bool :=
  if markup.attributes.length < 2 then false
  else
    let limit := page.config.maxLineLength
    match splitLines (page.startTagText markup) with
    | [] => false
    | first :: rest =>
      limit < level * page.config.indentSize + first.length || rest.any (limit < ·.length)

/-- Whether an element has no content to speak of. -/
def isHollow (slots children : List Node) : Bool :=
  slots.isEmpty && children.all Node.isBlank

/-- Whether a node is markup or a block. -/
def isStructural : Node → Bool
  | .element .. | .component .. | .slot .. | .block .. => true
  | _ => false

/-- Whether the content of a closed element goes on lines of its own. -/
def breaks (page : Page) (level : Nat) (markup : Markup) (slots children : List Node)
    (childrenInline : Bool) : Bool :=
  page.wraps markup level || !slots.isEmpty ||
    (Tag.isOneOf Tag.blockNames markup.tag && children.any isStructural) || !childrenInline

/-- Whether an element is written without line break, given whether its slots and children are.
The body of a `rawBody` element is not markup. -/
def markupInline (page : Page) (level : Nat) (markup : Markup) (rawBody : Bool)
    (slots children : List Node) (slotsInline childrenInline : Bool) : Bool :=
  if isMultiline (page.startTagText markup) then false
  else if !markup.closed then slotsInline && childrenInline
  else if page.wraps markup level then false
  else if rawBody then childrenInline
  else if markup.selfClosing || isHollow slots children then true
  else !page.breaks level markup slots children childrenInline

mutual

/-- Whether a node is written without line break at the given level. -/
def isInline (page : Page) (level : Nat) : Node → Bool
  | .text _ content => !isMultiline content
  | .echo echo => !isMultiline echo.expression
  | .comment _ content => !isMultiline content
  | .region _ _ content => !isMultiline content
  | .endTag _ _ content => !isMultiline content
  | .directive directive => !isMultiline directive.source
  | .block location _ _ children closer _ =>
    !isMultiline (location.slice page.source) && (closer.isNone || allInline page level children)
  | .element markup _ children =>
    page.markupInline level markup (Tag.isOneOf Tag.rawTextNames markup.tag) [] children true
      (allInline page level children)
  | .component markup slots children =>
    page.markupInline level markup false slots children (allInline page level slots)
      (allInline page level children)
  | .slot _ markup children =>
    page.markupInline level markup false [] children true (allInline page level children)
  | .attr entry => !isMultiline (entry.location.slice page.source)
  | .document location _ _ _ => !isMultiline (location.slice page.source)

/-- Whether all nodes are written without line break at the given level. -/
def allInline (page : Page) (level : Nat) : List Node → Bool
  | [] => true
  | node :: rest => isInline page level node && allInline page level rest

end

end Page
end BladeTemplate
