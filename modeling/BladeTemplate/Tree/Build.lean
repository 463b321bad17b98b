import BladeTemplate.Event
import BladeTemplate.Text.Bracket
import BladeTemplate.Token.Scan
import BladeTemplate.Tree.Frame
import BladeTemplate.Tree.Item

/-!
# Building trees

Items are matched into a tree by one rule for all directives: an opener opens a block, a middle
belongs to the innermost open block, a closer closes the innermost open block of its family.
Nothing is refused: a middle or closer without a block stays where it is, and a construct that is
never closed ends where the surrounding one does. Each such recovery is reported.

* `Builder.add` takes one item;
* `parse` reads a whole template into a `Document`.
-/

namespace BladeTemplate

/-- A tree under construction, with what has been reported so far. -/
structure Builder where
  stack : FrameStack := {}
  diagnostics : List Diagnostic := []
  events : List Event := []

namespace Builder

/-- Add a finished node to the innermost open frame. -/
def append (builder : Builder) (node : Node) : Builder :=
  { builder with stack := builder.stack.append node }

def report (builder : Builder) (diagnostic : Diagnostic) : Builder :=
  { builder with diagnostics := builder.diagnostics ++ [diagnostic] }

/-! ## Markup -/

/-- The name of a slot: the part of its tag after the colon, else the value of its name
attribute without quotes. -/
def slotName (tag : Chars) (attributes : List Attribute) : Chars :=
  if tag.contains ':' then (tag.dropWhile (· ≠ ':')).drop 1
  else
    let named := attributes.find? fun entry =>
      (entry.name = "name".toList || entry.name = ":name".toList) && entry.value.isSome
    ((named.bind (·.value)).map (Text.trimBoth Text.isQuote)).getD []

/-- Whether a child of a component is one of its slots. -/
def isSlotChild : Node → Bool
  | .slot _ markup _ => Text.startsWith Tag.slotTag (Text.lower markup.tag)
  | _ => false

/-- The node of a start tag with its children. The slots among a component's children are kept
apart. -/
def markupNode (kind : TagKind) (markup : Markup) (void : Bool) (children : List Node) : Node :=
  match kind with
  | .element => .element markup void children
  | .slot => .slot (slotName markup.tag markup.attributes) markup children
  | .component =>
    .component markup (children.filter isSlotChild) (children.filter (!isSlotChild ·))

/-- The node of an open block that ends here. -/
def blockNode (frame : Frame) (opener : Directive) (family : Chars) (indentsMiddles : Bool)
    (closer : Option Directive) : Node :=
  let last := (closer.map (·.location)).getD (frame.body.last.getD frame.start)
  .block (frame.start.spanTo last) opener family frame.body.children closer indentsMiddles

/-- Give up the innermost frame: what it holds ends where the surrounding construct does, because
of the directive `cause` or at the end of the template. -/
def abandon (builder : Builder) (cause : Option Directive) : Builder :=
  match builder.stack.pop? with
  | none => builder
  | some (frame, stack) =>
    let builder := { builder with stack }
    match frame.opened with
    | .block opener family indentsMiddles =>
      let shown := String.ofList opener.writtenName
      let place :=
        match cause with
        | some directive => "'@" ++ String.ofList directive.writtenName ++ "'"
        | none => "end of input"
      let builder := builder.report (.warning opener.location .unmatchedDirective
        s!"'@{shown}' is never closed; block ends at {place}")
      let implied : List Event :=
        if cause.isSome then [.impliedClose family opener.location.line] else []
      let builder := { builder with events := builder.events ++ implied }
      builder.append (blockNode frame opener family indentsMiddles none)
    | .element kind markup =>
      let shown := String.ofList markup.tag
      let builder := builder.report (.info frame.start .unclosedElement
        s!"'<{shown}>' has no end tag; its content is kept at the same level")
      builder.append (markupNode kind { markup with location := frame.span, closed := false } false
        frame.body.children)

/-- Give up the innermost `count` frames. -/
def abandonMany (builder : Builder) (cause : Option Directive) : Nat → Builder
  | 0 => builder
  | count + 1 => (builder.abandon cause).abandonMany cause count

/-- Add a start tag: a leaf when it closes itself or takes no end tag, else an open frame. -/
def addStartTag (builder : Builder) (kind : TagKind) (markup : Markup) : Builder :=
  let void := kind = .element && Tag.isOneOf Tag.voidNames markup.tag
  if markup.selfClosing || void then builder.append (markupNode kind markup void [])
  else { builder with stack := builder.stack.push ⟨.element kind markup, markup.location, {}⟩ }

/-- Close the innermost frame, an element, by an end tag. -/
def closeElement (builder : Builder) (location : Location) (name : Chars) : Builder :=
  match builder.stack.pop? with
  | some (⟨.element kind markup, start, body⟩, stack) =>
    let markup := { markup with location := start.spanTo location, endTag := some name }
    append { builder with stack } (markupNode kind markup false body.children)
  | _ => builder

/-- Add an end tag: it closes the innermost element of its name, or stays where it is. -/
def addEndTag (builder : Builder) (location : Location) (content : Chars) : Builder :=
  let name := Tag.endTagName content
  match builder.stack.findElement name with
  | none =>
    let shown := String.ofList name
    let builder := builder.report (.warning location .strayEndTag
      s!"'</{shown}>' does not close any open element; kept as written")
    builder.append (.endTag location name content)
  | some above => (builder.abandonMany none above).closeElement location name

/-! ## Directives -/

/-- The directive with the role it plays at this place. -/
def settle (descriptor : Descriptor) (openFamily : Option Chars) (directive : Directive) :
    Directive :=
  let count := Text.countArguments (directive.arguments.map fun text => '(' :: text ++ [')'])
  let role := descriptor.resolve count openFamily
  { directive with
    name := descriptor.name
    pairing := role.1
    family := role.2
    closeKind := if role.1 = .closes then descriptor.closeKind else none
    registered := true
    spacedArguments := descriptor.spacedArguments }

/-- Keep a middle or closer that has no block, and say so. -/
def addOrphan (builder : Builder) (directive : Directive) (complaint : String) : Builder :=
  let shown := String.ofList directive.writtenName
  let builder := builder.report (.warning directive.location .unmatchedDirective
    s!"'@{shown}' {complaint}; kept as written")
  builder.append (.directive { directive with orphan := true })

/-- Add a middle: it belongs to the innermost open block, and ends every element left open in
it. -/
def addMiddle (builder : Builder) (directive : Directive) : Builder :=
  match directive.family, builder.stack.nearestBlock with
  | some _, some above => (builder.abandonMany (some directive) above).append (.directive directive)
  | _, _ => builder.addOrphan directive "outside of a matching block"

/-- Close the innermost frame, a block, by its closer. -/
def closeBlock (builder : Builder) (closer : Directive) : Builder :=
  match builder.stack.pop? with
  | some (⟨.block opener family indentsMiddles, start, body⟩, stack) =>
    append { builder with stack }
      (blockNode ⟨.block opener family indentsMiddles, start, body⟩ opener family indentsMiddles
        (some closer))
  | _ => builder

/-- Add a closer: it closes the innermost open block of its family together with everything opened
after it. -/
def addCloser (builder : Builder) (directive : Directive) (family : Chars) : Builder :=
  match builder.stack.findBlock family with
  | some above => (builder.abandonMany (some directive) above).closeBlock directive
  | none =>
    let shown := String.ofList family
    builder.addOrphan directive s!"has no open '{shown}' block"

/-- Add a directive. An unregistered one stands alone. -/
def addDirective (registry : Registry) (builder : Builder) (directive : Directive) : Builder :=
  match registry.lookup directive.writtenName with
  | none => builder.append (.directive directive)
  | some descriptor =>
    let directive := settle descriptor builder.stack.openFamily directive
    match directive.pairing, directive.family with
    | .opens, some family =>
      let opened := Opened.block directive family descriptor.indentsMiddles
      { builder with stack := builder.stack.push ⟨opened, directive.location, {}⟩ }
    | .closes, some family => builder.addCloser directive family
    | .middle, _ => builder.addMiddle directive
    | _, _ => builder.append (.directive directive)

/-! ## Whole templates -/

def add (registry : Registry) (builder : Builder) : Item → Builder
  | .text location content => builder.append (.text location content)
  | .echo echo => builder.append (.echo echo)
  | .comment location content => builder.append (.comment location content)
  | .region location kind content => builder.append (.region location kind content)
  | .directive directive => builder.addDirective registry directive
  | .startTag kind markup => builder.addStartTag kind markup
  | .endTag location content => builder.addEndTag location content

/-- Give up everything still open at the end of the template. -/
def finish (builder : Builder) : Builder :=
  builder.abandonMany none builder.stack.frames.length

/-- Match the items of a template. -/
def build (registry : Registry) (items : List Item) : Builder :=
  (items.foldl (add registry) {}).finish

end Builder

/-- What parsing a template yields: its tree or the error that prevents one, and the events on the
way. -/
structure Parse where
  outcome : Except LexError Document
  events : List Event

def parse (dialect : Dialect) (file : Option String) (source : Chars) : Parse :=
  let scan := scan dialect source
  match scan.fault with
  | some (fault, position) => ⟨.error (.ofFault fault position file), scan.events⟩
  | none =>
    let items := Item.ofTokens ⟨dialect.registry, file, source⟩ scan.tokens
    let built := Builder.build dialect.registry items
    let children := built.stack.root.children
    let stop := (scan.tokens.getLast?.map (·.start)).getD .start
    let document : Document :=
      { location :=
          { line := 1, column := 1, offset := 0, endOffset := source.length
            endLine := some stop.line, endColumn := some stop.column, file }
        children
        diagnostics := Diagnostic.sort (built.diagnostics ++ scan.diagnostics)
        source }
    ⟨.ok document,
      scan.events ++ [.scanned scan.tokens.length] ++ built.events ++ [.built children.length]⟩

end BladeTemplate
