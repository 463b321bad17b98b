import BladeTemplate.Json.Reader
import BladeTemplate.Json.Writer
import BladeTemplate.Node.Decode
import BladeTemplate.Node.Encode

/-!
# Templates as text

A whole template can be saved as the text of a structured value and read back from it.
-/

namespace BladeTemplate

namespace Document

/-- The template that a node is, if it is one. -/
def ofNode : Node → Except CodecError Document
  | .document location children diagnostics source =>
    .ok ⟨location, children, diagnostics, source⟩
  | node => .error (.notADocument node.typeName)

/-- A template as text, on one line or with the given indent. -/
def toJson (document : Document) (indent : Option Nat) : Chars :=
  document.toNode.encode.write indent

/-- Read a template from text. -/
def ofJson (text : Chars) : Except CodecError Document := do
  let value ← (Json.read text).mapError .unreadable
  let node ← Node.decode value
  ofNode node

/-- Whether reading the text of a template gives the template back. -/
def survives (document : Document) (indent : Option Nat) : Bool :=
  match ofJson (document.toJson indent) with
  | .ok again => again.toJson indent = document.toJson indent
  | .error _ => false

end Document
end BladeTemplate
