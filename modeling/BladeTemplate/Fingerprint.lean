import BladeTemplate.Node
import BladeTemplate.Text.Blank

/-!
# Structural fingerprints

A fingerprint is what formatting must not change: the nesting of a tree and the text of its
constructs without white space. Comments and regions count as they are, except for the bodies of
elements that are not read as markup.

* `Node.marks` lists a subtree in visiting order, with a mark at the end of each container;
* `Mark.join` joins texts that have come to stand side by side;
* `Node.fingerprint` is both.
-/

namespace BladeTemplate

/-- What counts about an entry of a start tag. -/
inductive EntryMark where
  | echo (raw : Bool) (expression : Chars)
  | entry (kind : AttributeKind) (name : Chars) (value : Option Chars)
  deriving DecidableEq, Repr

/-- What counts about one step through a tree; a block, an element, a component and a slot also
close. -/
inductive Mark where
  | text (content : Chars)
  | echo (raw : Bool) (expression : Chars)
  | comment (content : Chars)
  | region (kind : RegionKind) (content : Chars)
  | directive (name : Chars) (arguments : Option Chars) (pairing : Pairing) (orphan : Bool)
  | block (family : Chars) (closed : Bool)
  | element (tag : Chars) (closed selfClosing : Bool) (entries : List EntryMark)
  | component (tag : Chars) (closed selfClosing : Bool) (entries : List EntryMark)
  | slot (name : Chars) (closed : Bool) (entries : List EntryMark)
  | endTag (tag : Chars)
  | close
  deriving DecidableEq, Repr

abbrev Fingerprint := List Mark

namespace Mark

/-- Join texts that stand side by side. -/
def join : List Mark → Fingerprint
  | [] => []
  | .text content :: rest =>
    match join rest with
    | .text more :: marks => .text (content ++ more) :: marks
    | marks => .text content :: marks
  | mark :: rest => mark :: join rest

def ofEntry (entry : Attribute) : EntryMark :=
  match entry.echo with
  | some e => .echo e.raw (Text.squeeze e.expression)
  | none => .entry entry.kind entry.name (entry.value.map Text.squeeze)

/-- What counts about a start tag's entries. -/
def ofEntries (sort : Bool) (markup : Markup) : List EntryMark :=
  (Attribute.order markup.attributes sort).map ofEntry

def ofDirective (directive : Directive) : Mark :=
  .directive (if directive.registered then Text.lower directive.name else directive.name)
    (directive.arguments.map Text.squeeze) directive.pairing directive.orphan

end Mark

namespace Node

mutual

/-- The marks of a subtree in visiting order. Blank texts leave none. -/
def marks (sort : Bool) : Node → List Mark
  | .text _ content =>
    let squeezed := Text.squeeze content
    if squeezed.isEmpty then [] else [.text squeezed]
  | .echo e => [.echo e.raw (Text.squeeze e.expression)]
  | .comment _ content => [.comment content]
  | .region _ kind content =>
    [.region kind (if kind = .rawText then Text.squeeze content else content)]
  | .directive d => [.ofDirective d]
  | .block _ opener family children closer _ =>
    .block family closer.isSome :: .ofDirective opener :: marksAll sort children ++
      (closer.map Mark.ofDirective).toList ++ [.close]
  | .element markup _ children =>
    .element (Text.lower markup.tag) markup.closed markup.selfClosing
      (Mark.ofEntries sort markup) :: marksAll sort children ++ [.close]
  | .component markup slots children =>
    .component (Text.lower markup.tag) markup.closed markup.selfClosing
      (Mark.ofEntries sort markup) :: marksAll sort slots ++ marksAll sort children ++ [.close]
  | .slot name markup children =>
    .slot name markup.closed (Mark.ofEntries sort markup) :: marksAll sort children ++ [.close]
  | .endTag _ tag _ => [.endTag (Text.lower tag)]
  | .attr _ => []
  | .document _ children _ _ => marksAll sort children

/-- The marks of several subtrees. -/
def marksAll (sort : Bool) : List Node → List Mark
  | [] => []
  | node :: rest => node.marks sort ++ marksAll sort rest

end

/-- The fingerprint of a subtree; `sort` tells whether the order of attributes between fences
counts. -/
def fingerprint (sort : Bool) (node : Node) : Fingerprint :=
  Mark.join (node.marks sort)

end Node

/-- The line and fingerprint of every top-level node that is not a blank text. -/
def Document.fingerprints (document : Document) (sort : Bool) : List (Int × Fingerprint) :=
  (document.children.filter (!·.isBlank)).map fun node =>
    (node.location.line, node.fingerprint sort)

end BladeTemplate
