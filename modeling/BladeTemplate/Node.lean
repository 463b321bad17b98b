import BladeTemplate.Diagnostic
import BladeTemplate.Directive.Descriptor
import BladeTemplate.Markup.Attribute
import BladeTemplate.Markup.Tag
import BladeTemplate.Text.Echo

/-!
# Template trees

A template is a tree of nodes. Every node knows the span of its text, so `Location.slice` recovers
what was written.

* `Echo`, `Directive`, `Attribute` and `Markup` are the data of single constructs;
* `Node` is the tree; blocks keep their middles among their children, components keep their slots
  apart from the rest of their content;
* `Document` is a whole template with its diagnostics;
* `Node.walk` lists a node and everything below it.
-/

namespace BladeTemplate

/-- An echo; the expression is everything between the delimiters. -/
structure Echo where
  location : Location
  expression : Chars
  raw : Bool := false
  deriving DecidableEq, Repr

def Echo.style (echo : Echo) : EchoStyle :=
  if echo.raw then .raw else .escaped

/-- What a region that is kept as it is holds. -/
inductive RegionKind where
  | verbatim
  | rawCode
  | rawText
  | markupComment
  | declaration
  | frontMatter
  deriving DecidableEq, Repr

namespace RegionKind

def all : List RegionKind :=
  [.verbatim, .rawCode, .rawText, .markupComment, .declaration, .frontMatter]

/-- The name of a kind of region. -/
def name : RegionKind → String
  | .verbatim => "verbatim"
  | .rawCode => "raw-code"
  | .rawText => "raw-text"
  | .markupComment => "html-comment"
  | .declaration => "declaration"
  | .frontMatter => "front-matter"

def named (text : Chars) : Except UnknownName RegionKind :=
  nameIn "OpaqueKind" all name text

end RegionKind

/-- One occurrence of a directive. The name is spelled as registered, if it is; `arguments` is the
text between the parentheses. An orphan is a middle or closer without a block. -/
structure Directive where
  location : Location
  name : Chars
  writtenName : Chars
  arguments : Option Chars
  pairing : Pairing := .standalone
  family : Option Chars := none
  closeKind : Option CloseKind := none
  registered : Bool := false
  spacedArguments : Bool := false
  orphan : Bool := false
  source : Chars := []
  deriving DecidableEq, Repr

/-- Whether a directive separates two branches of the block it stands in. -/
def Directive.separates (directive : Directive) : Bool :=
  directive.pairing = .middle && !directive.orphan

/-- One entry of a start tag, its value with the quotes. An echo or a comment among the attributes
has its whole text for a name; an entry is ambiguous if a directive has its name too. -/
structure Attribute where
  location : Location
  name : Chars
  value : Option Chars := none
  kind : AttributeKind := .plain
  ambiguous : Bool := false
  echo : Option Echo := none
  comment : Bool := false
  deriving DecidableEq, Repr

namespace Attribute

/-- Entries that other entries are never moved across. -/
def isFence (entry : Attribute) : Bool :=
  entry.kind = .hostEcho || entry.ambiguous || entry.comment

/-- Entries sorted by lower-case name; equal names keep their order. -/
def sortRun (run : List Attribute) : List Attribute :=
  run.mergeSort fun a b => Text.notAfter (Text.lower a.name) (Text.lower b.name)

/-- The entries with each run between fences sorted; `run` holds the entries since the last fence,
newest first. -/
def arrange (run : List Attribute) : List Attribute → List Attribute
  | [] => sortRun run.reverse
  | entry :: rest =>
    if entry.isFence then sortRun run.reverse ++ entry :: arrange [] rest
    else arrange (entry :: run) rest

/-- The entries in the order they are written out, sorted between fences or as they are. -/
def order (attributes : List Attribute) (sort : Bool) : List Attribute :=
  if sort then arrange [] attributes else attributes

end Attribute

/-- What elements, components and slots have in common: the start tag, whether its end was found
before the surrounding construct ended, and the name in the end tag as written. -/
structure Markup where
  location : Location
  tag : Chars
  attributes : List Attribute
  selfClosing : Bool := false
  closed : Bool := true
  endTag : Option Chars := none
  deriving DecidableEq, Repr

namespace Markup

/-- The name of a component: its tag without the lead of component tags. -/
def componentName (markup : Markup) : Chars :=
  markup.tag.drop Tag.componentLead.length

/-- The bindings of client-side frameworks among the entries. -/
def foreignBindings (markup : Markup) : List Attribute :=
  markup.attributes.filter (·.kind.isForeign)

end Markup

/-- A node of a template tree. A block without closer was never closed; an end tag closes nothing;
regions are kept as they are. -/
inductive Node where
  | text (location : Location) (content : Chars)
  | echo (echo : Echo)
  | comment (location : Location) (content : Chars)
  | region (location : Location) (kind : RegionKind) (content : Chars)
  | directive (directive : Directive)
  | block (location : Location) (opener : Directive) (family : Chars) (children : List Node)
      (closer : Option Directive) (indentsMiddles : Bool)
  | element (markup : Markup) (void : Bool) (children : List Node)
  | component (markup : Markup) (slots : List Node) (children : List Node)
  | slot (name : Chars) (markup : Markup) (children : List Node)
  | endTag (location : Location) (tag : Chars) (content : Chars)
  | attr (entry : Attribute)
  | document (location : Location) (children : List Node) (diagnostics : List Diagnostic)
      (source : Chars)

/-- A whole template. -/
structure Document where
  location : Location
  children : List Node
  diagnostics : List Diagnostic := []
  source : Chars := []

/-- A template as a node. -/
def Document.toNode (document : Document) : Node :=
  .document document.location document.children document.diagnostics document.source

namespace Node

def location : Node → Location
  | .text location _ => location
  | .echo e => e.location
  | .comment location _ => location
  | .region location _ _ => location
  | .directive d => d.location
  | .block location _ _ _ _ _ => location
  | .element markup _ _ => markup.location
  | .component markup _ _ => markup.location
  | .slot _ markup _ => markup.location
  | .endTag location _ _ => location
  | .attr entry => entry.location
  | .document location _ _ _ => location

def typeName : Node → String
  | .text .. => "Text"
  | .echo .. => "Echo"
  | .comment .. => "Comment"
  | .region .. => "Opaque"
  | .directive .. => "Directive"
  | .block .. => "Block"
  | .element .. => "Element"
  | .component .. => "Component"
  | .slot .. => "Slot"
  | .endTag .. => "EndTag"
  | .attr .. => "Attribute"
  | .document .. => "Document"

/-- A short description: directives, blocks and tags by name, the rest by type. -/
def label : Node → Chars
  | .directive d => '@' :: d.name
  | .block _ _ family _ _ _ => "block:".toList ++ family
  | .element markup _ _ | .component markup _ _ | .slot _ markup _ =>
    '<' :: markup.tag ++ ['>']
  | node => node.typeName.toList

/-- The directive of a node that separates branches. -/
def middle? : Node → Option Directive
  | .directive d => if d.separates then some d else none
  | _ => none

/-- Whether a node is a text of nothing but white space. -/
def isBlank : Node → Bool
  | .text _ content => Text.isBlankText content
  | _ => false

/-- The start tag of an element, component or slot. -/
def markup? : Node → Option Markup
  | .element markup _ _ | .component markup _ _ | .slot _ markup _ => some markup
  | _ => none

/-- The entries of a node's start tag. -/
def attributes (node : Node) : List Attribute :=
  (node.markup?.map (·.attributes)).getD []

/-- The children of a node in visiting order: the opener and closer of a block are among them, and
the slots of a component come first. -/
def childNodes : Node → List Node
  | .block _ opener _ children closer _ =>
    .directive opener :: children ++ (closer.map Node.directive).toList
  | .element _ _ children | .slot _ _ children | .document _ children _ _ => children
  | .component _ slots children => slots ++ children
  | _ => []

mutual

/-- A node and everything below it, each before what is below it. -/
def walk : Node → List Node
  | .block location opener family children closer indentsMiddles =>
    .block location opener family children closer indentsMiddles :: .directive opener ::
      walkAll children ++ (closer.map Node.directive).toList
  | .element markup void children => .element markup void children :: walkAll children
  | .component markup slots children =>
    .component markup slots children :: walkAll slots ++ walkAll children
  | .slot name markup children => .slot name markup children :: walkAll children
  | .document location children diagnostics source =>
    .document location children diagnostics source :: walkAll children
  | node => [node]

/-- Several nodes and everything below them. -/
def walkAll : List Node → List Node
  | [] => []
  | node :: rest => node.walk ++ walkAll rest

end

/-- The children of a block by branch: the middle that starts each branch, except for the first,
and the nodes up to the next middle. -/
def branches (start : Option Directive) : List Node → List (Option Directive × List Node)
  | [] => [(start, [])]
  | node :: rest =>
    match node.middle? with
    | some middle => (start, []) :: branches (some middle) rest
    | none =>
      match branches start rest with
      | (first, nodes) :: more => (first, node :: nodes) :: more
      | [] => [(start, [node])]

/-- The name and children of a slot. -/
def slotEntry? : Node → Option (Chars × List Node)
  | .slot name _ children => some (name, children)
  | _ => none

/-- Slot names with the children of each slot. Of several slots with one name the last one
counts. -/
def slotMap : List Node → List (Chars × List Node)
  | [] => []
  | node :: rest =>
    let later := slotMap rest
    match node.slotEntry? with
    | some (name, children) =>
      if later.any (·.1 = name) then later else (name, children) :: later
    | none => later

end Node
end BladeTemplate
