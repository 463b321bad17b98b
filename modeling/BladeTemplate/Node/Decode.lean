import BladeTemplate.Json.Reader
import BladeTemplate.Node

/-!
# Reading trees back

`Node.decode` reads a node from an object. Missing fields take their defaults where they have one,
and fields that a type does not have are passed over, whatever they hold.

* `CodecError` lists what can be wrong with an object;
* `Value` is a node or a part of one that has been read;
* `NodeType` describes a type of node: its fields, and how a node is made of them.
-/

namespace BladeTemplate

/-- Why a structured value is no tree. A location, diagnostic or vocabulary member lacks a key, a
node a field that has no default. -/
inductive CodecError where
  | unreadable (error : Json.ReadError)
  | notAnObject
  | missingType
  | unknownType (shown : Chars)
  | unknownVocabulary (shown : Chars)
  | unknownMember (error : UnknownName)
  | missingKey (key : String)
  | missingField
  | wrongKind
  | notADocument (typeName : String)
  deriving DecidableEq, Repr

def CodecError.message : CodecError → String
  | .unreadable error => error.message
  | .notAnObject => "not an object"
  | .missingType => "Missing '_type' field in serialized node"
  | .unknownType shown => "Unknown node type: " ++ String.ofList shown
  | .unknownVocabulary shown => "Unknown enum type: " ++ String.ofList shown
  | .unknownMember error => error.message
  | .missingKey key => s!"'{key}'"
  | .missingField => "missing field"
  | .wrongKind => "value of the wrong kind"
  | .notADocument typeName => s!"Expected Document, got {typeName}"

/-- A value that has been read: a node or a part of one. -/
inductive Value where
  | scalar (value : Json)
  | list (items : List Value)
  | location (value : Location)
  | diagnostic (value : Diagnostic)
  | pairing (value : Pairing)
  | closeKind (value : CloseKind)
  | attributeKind (value : AttributeKind)
  | regionKind (value : RegionKind)
  | severity (value : Severity)
  | code (value : DiagnosticCode)
  | node (value : Node)

namespace Value

def text? : Value → Option Chars
  | .scalar value => value.chars?
  | _ => none

/-- A text that may be null. -/
def optionalText? : Value → Option (Option Chars)
  | .scalar .null => some none
  | value => value.text?.map some

def flag? : Value → Option Bool
  | .scalar (.bool value) => some value
  | _ => none

def location? : Value → Option Location
  | .location value => some value
  | _ => none

/-- A role in block structure. -/
def pairing? : Value → Option Pairing
  | .pairing value => some value
  | _ => none

/-- A closing kind that may be null. -/
def closeKind? : Value → Option (Option CloseKind)
  | .scalar .null => some none
  | .closeKind value => some (some value)
  | _ => none

def attributeKind? : Value → Option AttributeKind
  | .attributeKind value => some value
  | _ => none

def regionKind? : Value → Option RegionKind
  | .regionKind value => some value
  | _ => none

def severity? : Value → Option Severity
  | .severity value => some value
  | _ => none

def code? : Value → Option DiagnosticCode
  | .code value => some value
  | _ => none

def directive? : Value → Option Directive
  | .node (.directive d) => some d
  | _ => none

/-- A directive that may be null. -/
def optionalDirective? : Value → Option (Option Directive)
  | .scalar .null => some none
  | value => value.directive?.map some

/-- An echo that may be null. -/
def optionalEcho? : Value → Option (Option Echo)
  | .scalar .null => some none
  | .node (.echo e) => some (some e)
  | _ => none

/-- A list of what `item` reads. -/
def list? {α : Type} (item : Value → Option α) : Value → Option (List α)
  | .list items => items.mapM item
  | _ => none

def nodes? : Value → Option (List Node) :=
  list? fun
    | .node value => some value
    | _ => none

/-- A list of entries of a start tag. -/
def entries? : Value → Option (List Attribute) :=
  list? fun
    | .node (.attr a) => some a
    | _ => none

def diagnostics? : Value → Option (List Diagnostic) :=
  list? fun
    | .diagnostic value => some value
    | _ => none

end Value

/-- The fields of a node that have been read. -/
abbrev Fields := List (String × Value)

namespace Fields

def value? (fields : Fields) (name : String) : Option Value :=
  (fields.find? (·.1 = name)).map (·.2)

/-- A field without default. -/
def required {α : Type} (fields : Fields) (name : String) (read : Value → Option α) :
    Except CodecError α :=
  match fields.value? name with
  | none => .error .missingField
  | some value =>
    match read value with
    | some result => .ok result
    | none => .error .wrongKind

/-- A field with a default. -/
def optional {α : Type} (fields : Fields) (name : String) (read : Value → Option α) (default : α) :
    Except CodecError α :=
  match fields.value? name with
  | none => .ok default
  | some value =>
    match read value with
    | some result => .ok result
    | none => .error .wrongKind

/-- The start tag, from the fields that elements, components and slots share. -/
def markup (fields : Fields) : Except CodecError Markup := do
  return {
    location := ← fields.required "location" Value.location?
    tag := ← fields.required "tag" Value.text?
    attributes := ← fields.required "attributes" Value.entries?
    selfClosing := ← fields.optional "self_closing" Value.flag? false
    closed := ← fields.optional "closed" Value.flag? true
    endTag := ← fields.optional "end_tag" Value.optionalText? none }

end Fields

/-- A type of node: its name, its fields in the order they are read, and how a node is made of
them. -/
structure NodeType where
  name : String
  fieldNames : List String
  build : Fields → Except CodecError Node

namespace NodeType

def text : NodeType where
  name := "Text"
  fieldNames := ["location", "content"]
  build fields := do
    return .text (← fields.required "location" Value.location?)
      (← fields.required "content" Value.text?)

def echo : NodeType where
  name := "Echo"
  fieldNames := ["location", "expression", "raw"]
  build fields := do
    return .echo {
      location := ← fields.required "location" Value.location?
      expression := ← fields.required "expression" Value.text?
      raw := ← fields.optional "raw" Value.flag? false }

def comment : NodeType where
  name := "Comment"
  fieldNames := ["location", "content"]
  build fields := do
    return .comment (← fields.required "location" Value.location?)
      (← fields.required "content" Value.text?)

/-- A region that is kept as it is. -/
def region : NodeType where
  name := "Opaque"
  fieldNames := ["location", "kind", "content"]
  build fields := do
    return .region (← fields.required "location" Value.location?)
      (← fields.required "kind" Value.regionKind?) (← fields.required "content" Value.text?)

def directive : NodeType where
  name := "Directive"
  fieldNames := ["location", "name", "written_name", "arguments", "pairing", "family",
    "close_kind", "registered", "spaced_args", "orphan", "source"]
  build fields := do
    return .directive {
      location := ← fields.required "location" Value.location?
      name := ← fields.required "name" Value.text?
      writtenName := ← fields.required "written_name" Value.text?
      arguments := ← fields.required "arguments" Value.optionalText?
      pairing := ← fields.optional "pairing" Value.pairing? .standalone
      family := ← fields.optional "family" Value.optionalText? none
      closeKind := ← fields.optional "close_kind" Value.closeKind? none
      registered := ← fields.optional "registered" Value.flag? false
      spacedArguments := ← fields.optional "spaced_args" Value.flag? false
      orphan := ← fields.optional "orphan" Value.flag? false
      source := ← fields.optional "source" Value.text? [] }

def block : NodeType where
  name := "Block"
  fieldNames := ["location", "opener", "family", "children", "closer", "indent_middles"]
  build fields := do
    return .block (← fields.required "location" Value.location?)
      (← fields.required "opener" Value.directive?) (← fields.required "family" Value.text?)
      (← fields.required "children" Value.nodes?)
      (← fields.optional "closer" Value.optionalDirective? none)
      (← fields.optional "indent_middles" Value.flag? false)

/-- An entry of a start tag. -/
def entry : NodeType where
  name := "Attribute"
  fieldNames := ["location", "name", "value", "kind", "ambiguous", "echo", "comment"]
  build fields := do
    return .attr {
      location := ← fields.required "location" Value.location?
      name := ← fields.required "name" Value.text?
      value := ← fields.optional "value" Value.optionalText? none
      kind := ← fields.optional "kind" Value.attributeKind? .plain
      ambiguous := ← fields.optional "ambiguous" Value.flag? false
      echo := ← fields.optional "echo" Value.optionalEcho? none
      comment := ← fields.optional "comment" Value.flag? false }

def element : NodeType where
  name := "Element"
  fieldNames := ["location", "tag", "attributes", "children", "self_closing", "void", "closed",
    "end_tag"]
  build fields := do
    return .element (← fields.markup) (← fields.optional "void" Value.flag? false)
      (← fields.required "children" Value.nodes?)

def component : NodeType where
  name := "Component"
  fieldNames := ["location", "tag", "attributes", "slots", "children", "self_closing", "closed",
    "end_tag"]
  build fields := do
    return .component (← fields.markup) (← fields.required "slots" Value.nodes?)
      (← fields.required "children" Value.nodes?)

def slot : NodeType where
  name := "Slot"
  fieldNames := ["location", "name", "tag", "attributes", "children", "self_closing", "closed",
    "end_tag"]
  build fields := do
    return .slot (← fields.required "name" Value.text?) (← fields.markup)
      (← fields.required "children" Value.nodes?)

/-- An end tag that closes nothing. -/
def endTag : NodeType where
  name := "EndTag"
  fieldNames := ["location", "tag", "content"]
  build fields := do
    return .endTag (← fields.required "location" Value.location?)
      (← fields.required "tag" Value.text?) (← fields.required "content" Value.text?)

/-- A whole template. -/
def document : NodeType where
  name := "Document"
  fieldNames := ["location", "children", "diagnostics", "source"]
  build fields := do
    return .document (← fields.required "location" Value.location?)
      (← fields.required "children" Value.nodes?)
      (← fields.optional "diagnostics" Value.diagnostics? [])
      (← fields.optional "source" Value.text? [])

def all : List NodeType :=
  [document, text, echo, comment, region, directive, block, entry, element, component, slot,
    endTag]

end NodeType

namespace Codec

/-- A field and what reading its value yields. -/
abbrev FieldReading := Chars × Json × Except CodecError Value

/-- What reading the last field with a name yields. -/
def reading? (name : String) (fields : List FieldReading) :
    Option (Json × Except CodecError Value) :=
  (fields.reverse.find? fun field => field.1 = name.toList).map (·.2)

/-- The value of a key as it was given. -/
def key (name : String) (fields : List FieldReading) : Except CodecError Json :=
  match reading? name fields with
  | some (value, _) => .ok value
  | none => .error (.missingKey name)

/-- The value of a key after reading. -/
def readKey (name : String) (fields : List FieldReading) : Except CodecError Value :=
  match reading? name fields with
  | some (_, result) => result
  | none => .error (.missingKey name)

def intOf : Json → Except CodecError Int
  | .int value => .ok value
  | _ => .error .wrongKind

/-- A number that may be null or missing. -/
def optionalInt (name : String) (fields : List FieldReading) :
    Except CodecError (Option Int) :=
  match reading? name fields with
  | none | some (.null, _) => .ok none
  | some (value, _) => (intOf value).map some

/-- The location that an object's fields describe. -/
def locationOf (fields : List FieldReading) : Except CodecError Location := do
  let line ← key "lineno" fields
  let column ← key "col_offset" fields
  let line ← intOf line
  let column ← intOf column
  let offset ← optionalInt "offset" fields
  let endOffset ← optionalInt "end_offset" fields
  let endLine ← optionalInt "end_lineno" fields
  let endColumn ← optionalInt "end_col_offset" fields
  let file ←
    match reading? "source_file" fields with
    | none | some (.null, _) => .ok none
    | some (value, _) =>
      match value.chars? with
      | some text => .ok (some (String.ofList text))
      | none => .error .wrongKind
  return ⟨line, column, offset.getD 0, endOffset.getD 0, endLine, endColumn, file⟩

/-- The diagnostic that an object's fields describe. -/
def diagnosticOf (fields : List FieldReading) : Except CodecError Diagnostic := do
  let line ← key "line" fields
  let column ← key "column" fields
  let severity ← readKey "severity" fields
  let message ← key "message" fields
  let code ← readKey "code" fields
  let line ← intOf line
  let column ← intOf column
  match severity.severity?, message.chars?, code.code? with
  | some severity, some message, some code =>
    return ⟨line, column, severity, String.ofList message, code⟩
  | _, _, _ => .error .wrongKind

/-- The member of a vocabulary with a given name. -/
def memberOf {α : Type} (vocabulary : String) (named : Chars → Except UnknownName α)
    (wrap : α → Value) (value : Json) : Except CodecError Value :=
  match value with
  | .str text => ((named text).map wrap).mapError .unknownMember
  | other => .error (.unknownMember ⟨vocabulary, other.display⟩)

/-- The vocabulary member that an object's fields describe. -/
def vocabularyMember (vocabulary : Json) (fields : List FieldReading) :
    Except CodecError Value :=
  let member {α : Type} (name : String) (named : Chars → Except UnknownName α)
      (wrap : α → Value) : Except CodecError Value := do
    memberOf name named wrap (← key "value" fields)
  match vocabulary with
  | .str name =>
    match String.ofList name with
    | "Pairing" => member "Pairing" Pairing.named .pairing
    | "CloseKind" => member "CloseKind" CloseKind.named .closeKind
    | "AttributeKind" => member "AttributeKind" AttributeKind.named .attributeKind
    | "OpaqueKind" => member "OpaqueKind" RegionKind.named .regionKind
    | "Severity" => member "Severity" Severity.named .severity
    | "DiagnosticCode" => member "DiagnosticCode" DiagnosticCode.named .code
    | _ => .error (.unknownVocabulary (Text.quoted name))
  | other =>
    if other.isNested then .error .wrongKind else .error (.unknownVocabulary other.display)

/-- The values of the fields a type has, read in its order. -/
def gather (fields : List FieldReading) : List String → Except CodecError Fields
  | [] => .ok []
  | name :: rest =>
    match reading? name fields with
    | none => gather fields rest
    | some (_, result) => do
      let value ← result
      let later ← gather fields rest
      return (name, value) :: later

/-- The type of node with a given name. -/
def nodeType? : Json → Option NodeType
  | .str name => NodeType.all.find? fun nodeType => nodeType.name.toList = name
  | _ => none

/-- The node that an object's fields describe. -/
def nodeOf (fields : List FieldReading) : Except CodecError Node :=
  match reading? "_type" fields with
  | none | some (.null, _) => .error .missingType
  | some (type, _) =>
    match nodeType? type with
    | none => if type.isNested then .error .wrongKind else .error (.unknownType type.display)
    | some nodeType => do
      let values ← gather fields nodeType.fieldNames
      nodeType.build values

/-- The value that an object's fields describe. -/
def objectOf (whole : Json) (fields : List FieldReading) : Except CodecError Value :=
  match reading? "_enum" fields with
  | some (vocabulary, _) => vocabularyMember vocabulary fields
  | none =>
    match reading? "_type" fields with
    | none | some (.null, _) => .ok (.scalar whole)
    | some (.str type, _) =>
      if type = "SourceLocation".toList then (locationOf fields).map .location
      else if type = "Diagnostic".toList then (diagnosticOf fields).map .diagnostic
      else (nodeOf fields).map .node
    | some _ => (nodeOf fields).map .node

mutual

def decode : Json → Except CodecError Value
  | .obj fields => objectOf (.obj fields) (decodeFields fields)
  | .arr items => (decodeItems items).map .list
  | value => .ok (.scalar value)

/-- Read the items of a list. -/
def decodeItems : List Json → Except CodecError (List Value)
  | [] => .ok []
  | item :: rest => do
    let value ← decode item
    let later ← decodeItems rest
    return value :: later

/-- Read the values of fields; a failure counts only if the field is asked for. -/
def decodeFields : List (Chars × Json) → List FieldReading
  | [] => []
  | (name, value) :: rest => (name, value, decode value) :: decodeFields rest

end

end Codec

def Node.decode : Json → Except CodecError Node
  | .obj fields => Codec.nodeOf (Codec.decodeFields fields)
  | _ => .error .notAnObject

end BladeTemplate
