import BladeTemplate.Json.Value
import BladeTemplate.Node

/-!
# Saving trees

`Node.encode` turns a node into an object that names its type and holds every field of the node.
Fields stand in the order of their names, so equal trees have equal texts.
-/

namespace BladeTemplate

namespace Codec

/-- A member of a named vocabulary. -/
def member (vocabulary name : String) : Json :=
  .object [("_enum", .text vocabulary), ("value", .text name)]

def location (l : Location) : Json :=
  .object [("_type", .text "SourceLocation"), ("col_offset", .int l.column),
    ("end_col_offset", .option .int l.endColumn), ("end_lineno", .option .int l.endLine),
    ("end_offset", .int l.endOffset), ("lineno", .int l.line), ("offset", .int l.offset),
    ("source_file", .option .text l.file)]

def diagnostic (d : Diagnostic) : Json :=
  .object [("_type", .text "Diagnostic"), ("code", member "DiagnosticCode" d.code.name),
    ("column", .int d.column), ("line", .int d.line), ("message", .text d.message),
    ("severity", member "Severity" d.severity.name)]

def echo (e : Echo) : Json :=
  .object [("_type", .text "Echo"), ("expression", .str e.expression),
    ("location", location e.location), ("raw", .bool e.raw)]

def directive (d : Directive) : Json :=
  .object [("_type", .text "Directive"), ("arguments", .option .str d.arguments),
    ("close_kind", .option (fun kind => member "CloseKind" kind.name) d.closeKind),
    ("family", .option .str d.family), ("location", location d.location), ("name", .str d.name),
    ("orphan", .bool d.orphan), ("pairing", member "Pairing" d.pairing.name),
    ("registered", .bool d.registered), ("source", .str d.source),
    ("spaced_args", .bool d.spacedArguments), ("written_name", .str d.writtenName)]

/-- An entry of a start tag. -/
def entry (a : Attribute) : Json :=
  .object [("_type", .text "Attribute"), ("ambiguous", .bool a.ambiguous),
    ("comment", .bool a.comment), ("echo", .option echo a.echo),
    ("kind", member "AttributeKind" a.kind.name), ("location", location a.location),
    ("name", .str a.name), ("value", .option .str a.value)]

/-- The entries of a start tag. -/
def entries (m : Markup) : Json :=
  .arr (m.attributes.map entry)

end Codec

namespace Node

mutual

def encode : Node → Json
  | .text location content =>
    .object [("_type", .text "Text"), ("content", .str content),
      ("location", Codec.location location)]
  | .echo e => Codec.echo e
  | .comment location content =>
    .object [("_type", .text "Comment"), ("content", .str content),
      ("location", Codec.location location)]
  | .region location kind content =>
    .object [("_type", .text "Opaque"), ("content", .str content),
      ("kind", Codec.member "OpaqueKind" kind.name), ("location", Codec.location location)]
  | .directive d => Codec.directive d
  | .block location opener family children closer indentsMiddles =>
    .object [("_type", .text "Block"), ("children", .arr (encodeAll children)),
      ("closer", .option Codec.directive closer), ("family", .str family),
      ("indent_middles", .bool indentsMiddles), ("location", Codec.location location),
      ("opener", Codec.directive opener)]
  | .element m void children =>
    .object [("_type", .text "Element"), ("attributes", Codec.entries m),
      ("children", .arr (encodeAll children)), ("closed", .bool m.closed),
      ("end_tag", .option .str m.endTag), ("location", Codec.location m.location),
      ("self_closing", .bool m.selfClosing), ("tag", .str m.tag), ("void", .bool void)]
  | .component m slots children =>
    .object [("_type", .text "Component"), ("attributes", Codec.entries m),
      ("children", .arr (encodeAll children)), ("closed", .bool m.closed),
      ("end_tag", .option .str m.endTag), ("location", Codec.location m.location),
      ("self_closing", .bool m.selfClosing), ("slots", .arr (encodeAll slots)),
      ("tag", .str m.tag)]
  | .slot name m children =>
    .object [("_type", .text "Slot"), ("attributes", Codec.entries m),
      ("children", .arr (encodeAll children)), ("closed", .bool m.closed),
      ("end_tag", .option .str m.endTag), ("location", Codec.location m.location),
      ("name", .str name), ("self_closing", .bool m.selfClosing), ("tag", .str m.tag)]
  | .endTag location tag content =>
    .object [("_type", .text "EndTag"), ("content", .str content),
      ("location", Codec.location location), ("tag", .str tag)]
  | .attr a => Codec.entry a
  | .document location children diagnostics source =>
    .object [("_type", .text "Document"), ("children", .arr (encodeAll children)),
      ("diagnostics", .arr (diagnostics.map Codec.diagnostic)),
      ("location", Codec.location location), ("source", .str source)]

def encodeAll : List Node → List Json
  | [] => []
  | node :: rest => node.encode :: encodeAll rest

end

end Node

end BladeTemplate
