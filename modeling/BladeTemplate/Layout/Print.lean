import BladeTemplate.Layout.Decision
import BladeTemplate.Layout.Lines

/-!
# Printing trees

A tree is printed onto `Lines`. Blocks and elements that take more than one line have their
content one level deeper; everything else flows. Texts keep the author's line breaks, regions are
copied, and so is every block that was never closed.

* `Page.print` prints one node;
* `render` gives the text of a whole template.
-/

namespace BladeTemplate

/-- A node together with what prints it. -/
structure Piece where
  node : Node
  print : Lines → Lines

namespace Page

open Text

/-! ## Texts -/

/-- Print a part of a text that stands on one line. White space at either end becomes a space. -/
def printSegment (segment : Chars) (out : Lines) : Lines :=
  let body := trim segment
  if body.isEmpty then
    if segment.isEmpty then out else out.space
  else
    let spaced (edge : Option Char) (out : Lines) : Lines :=
      if (edge.map isBlank).getD false then out.space else out
    spaced segment.getLast? ((spaced segment.head? out).append body)

/-- Print the rest of a text, of which `breaks` line breaks have been passed since the last line
that was not blank. -/
def printSegments (breaks : Nat) : List Chars → Lines → Lines
  | [], out => if breaks = 0 then out else out.newline.blank (breaks - 1)
  | segment :: rest, out =>
    if isBlankText segment then printSegments (breaks + 1) rest out
    else printSegments 0 rest (printSegment segment (out.newline.blank breaks))

/-- Print a text line by line. Of several line breaks in a row all but the first become blank
lines. -/
def printText (content : Chars) (out : Lines) : Lines :=
  match splitLines content with
  | [] => out
  | first :: rest => printSegments 0 rest (printSegment first out)

/-! ## Blocks -/

/-- Print pieces one after another. -/
def printAll (pieces : List Piece) (out : Lines) : Lines :=
  pieces.foldl (fun out piece => piece.print out) out

/-- Print a directive on a line of its own. -/
def printLine (page : Page) (directive : Directive) (out : Lines) : Lines :=
  (out.newline.raw (page.directiveText directive)).newline

/-- Print the content of a block, with its middles level with the opener. -/
def printBranches (page : Page) (pieces : List Piece) (out : Lines) : Lines :=
  pieces.foldl (fun out piece =>
    match piece.node.middle? with
    | some middle => (page.printLine middle out.dedent).indent
    | none => piece.print out) out

/-- Print the content of a block whose middles stand one level deeper than the opener and their
branches one more. The branch in progress, if any, ends at the next middle; a `@break` belongs to
the branch before it. -/
def printLabels (page : Page) (inBranch : Bool) : List Piece → Lines → Lines
  | [], out => if inBranch then out.newline.dedent else out
  | piece :: rest, out =>
    match piece.node.middle? with
    | some middle =>
      let out := if inBranch then out.newline.dedent else out
      let out :=
        if middle.name = "break".toList then page.printLine middle out.indent
        else (page.printLine middle out).indent
      printLabels page true rest out
    | none => printLabels page inBranch rest (piece.print out)

def printBlock (page : Page) (inline : Bool) (opener closer : Directive) (indentsMiddles : Bool)
    (pieces : List Piece) (out : Lines) : Lines :=
  if inline then
    (printAll pieces (out.raw (page.directiveText opener))).raw (page.directiveText closer)
  else
    let out := (page.printLine opener out).indent
    let out :=
      if indentsMiddles then page.printLabels false pieces out else page.printBranches pieces out
    page.printLine closer out.dedent

/-! ## Markup -/

/-- Print a start tag with one entry per line, ended by `closing`. -/
def printWrapped (page : Page) (markup : Markup) (closing : Chars) (out : Lines) : Lines :=
  let out := ((out.append ('<' :: markup.tag)).newline).indent
  let out := (page.orderedAttributes markup).foldl
    (fun out entry => (out.raw (attributeText entry)).newline) out
  out.dedent.append closing

/-- The end of a start tag that stands on a line of its own. -/
def tagEnd (markup : Markup) : Chars :=
  if markup.selfClosing then ['/', '>'] else ['>']

/-- Print a start tag, with one entry per line or on one line. -/
def printStartTag (page : Page) (markup : Markup) (wrapped : Bool) (out : Lines) : Lines :=
  if wrapped then page.printWrapped markup (tagEnd markup) out
  else out.raw (page.startTagText markup)

/-- The text inside an element that is not read as markup. -/
def bodyText (source : Chars) (children : List Node) : Chars :=
  children.flatMap fun
    | .text _ content => content
    | .region _ _ content => content
    | node => node.location.slice source

/-- The body without the indentation of the end tag, if that is all its last line holds. -/
def withoutLastIndent (body : Chars) : Chars :=
  match splitLastLine body with
  | some (head, last) => if isBlankText last then head ++ ['\n'] else body
  | none => body

/-- Print an element whose body is not read as markup. -/
def printRawText (page : Page) (markup : Markup) (children : List Node) (out : Lines) : Lines :=
  let reindents := Tag.isOneOf Tag.reindentedNames markup.tag
  let body := bodyText page.source children
  let body := if reindents then withoutLastIndent body else body
  let out := if isMultiline body then out.newline else out
  let out := page.printStartTag markup (page.wraps markup out.level) out
  let out :=
    if reindents then (out.raw body).append (endTagText markup)
    else out.raw (body ++ endTagText markup)
  if isMultiline body then out.newline else out

/-- Print a piece of an element's content; a slot has lines of its own. -/
def printContent (out : Lines) (piece : Piece) : Lines :=
  match piece.node with
  | .slot .. => (piece.print out.newline).newline
  | _ => piece.print out

/-- Print an element, component or slot that was never closed: its start tag, and its content in
the order of the template at the same level. -/
def printUnclosed (page : Page) (markup : Markup) (pieces : List Piece) (out : Lines) : Lines :=
  printAll (pieces.mergeSort fun a b => a.node.location.offset ≤ b.node.location.offset)
    (out.raw (page.startTagText markup))

/-- Print a closed element, component or slot. -/
def printClosed (page : Page) (markup : Markup) (void : Bool) (slots children : List Piece)
    (childrenInline : Bool) (out : Lines) : Lines :=
  let wrapped := page.wraps markup out.level
  let slotNodes := slots.map (·.node)
  let childNodes := children.map (·.node)
  if markup.selfClosing || void then
    if wrapped then (page.printWrapped markup (tagEnd markup) out.newline).newline
    else out.raw (page.startTagText markup)
  else if isHollow slotNodes childNodes then
    if wrapped then (page.printWrapped markup ('>' :: endTagText markup) out.newline).newline
    else out.raw (page.startTagText markup ++ endTagText markup)
  else if !page.breaks out.level markup slotNodes childNodes childrenInline then
    (printAll children (out.raw (page.startTagText markup))).append (endTagText markup)
  else
    let out := ((page.printStartTag markup wrapped out.newline).newline).indent
    let out := (slots ++ children).foldl printContent out
    ((out.dedent.newline).append (endTagText markup)).newline

def printMarkup (page : Page) (markup : Markup) (void : Bool) (slots children : List Piece)
    (out : Lines) : Lines :=
  if !markup.closed then page.printUnclosed markup (slots ++ children) out
  else
    page.printClosed markup void slots children
      (page.allInline out.level (children.map (·.node))) out

/-! ## Trees -/

mutual

def print (page : Page) : Node → Lines → Lines
  | .text _ content => printText content
  | .echo echo => fun out => out.raw (formatEcho echo.style echo.expression)
  | .comment _ content => fun out => out.raw content
  | .region _ _ content => fun out => out.raw content
  | .directive directive => fun out => out.raw (page.directiveText directive)
  | .endTag _ _ content => fun out => out.raw content
  | .block location opener family children closer indentsMiddles => fun out =>
    match closer with
    | none => out.raw (trimRight (location.slice page.source))
    | some last =>
      let inline :=
        page.isInline out.level (.block location opener family children closer indentsMiddles)
      page.printBlock inline opener last indentsMiddles (pieces page children) out
  | .element markup void children => fun out =>
    if markup.closed && Tag.isOneOf Tag.rawTextNames markup.tag then
      page.printRawText markup children out
    else page.printMarkup markup void [] (pieces page children) out
  | .component markup slots children =>
    page.printMarkup markup false (pieces page slots) (pieces page children)
  | .slot _ markup children => page.printMarkup markup false [] (pieces page children)
  | .attr entry => fun out => out.raw (entry.location.slice page.source)
  | .document location _ _ _ => fun out => out.raw (location.slice page.source)

/-- Nodes together with what prints them. -/
def pieces (page : Page) : List Node → List Piece
  | [] => []
  | node :: rest => ⟨node, print page node⟩ :: pieces page rest

end

end Page

/-- The text of a template under a configuration. -/
def render (config : Config) (document : Document) : Chars :=
  let page : Page := ⟨config, document.source⟩
  (Page.printAll (page.pieces document.children)
    (.new config.indentUnit config.preserveBlankLines)).build

end BladeTemplate
