import BladeTemplate.Node.Codec

/-!
# Saved trees read back

Every tree is read back from its object, also a tree that no template has.

* `Json.field?` is the value of a field, and `Codec.nodeObject?` the type of node that an object
  describes; reading a node depends on nothing else;
* `Node.type` and `Node.fieldValues` are the type of a node and what it is made of, and
  `Node.build_fieldValues` makes the node of them;
* `Codec.Represents` says that an object describes a node: each field of its type is there and is
  read as what the node is made of;
* `Node.represents` is the result, for a node and for the nodes below it.
-/

namespace BladeTemplate

/-! ## Fields of objects -/

def Json.fields : Json → List (Chars × Json)
  | .obj fields => fields
  | _ => []

/-- The value of a field; of a repeated name the last one counts. -/
def Json.field? (fields : List (Chars × Json)) (name : String) : Option Json :=
  (fields.reverse.find? fun field => field.1 = name.toList).map (·.2)

namespace Codec

theorem decodeFields_eq (fields : List (Chars × Json)) :
    decodeFields fields = fields.map fun field => (field.1, field.2, decode field.2) := by
  induction fields with
  | nil => rfl
  | cons field rest ih => rw [decodeFields, ih, List.map_cons]

theorem reading?_decodeFields (name : String) (fields : List (Chars × Json)) :
    reading? name (decodeFields fields) =
      (Json.field? fields name).map fun value => (value, decode value) := by
  unfold reading? Json.field?
  rw [decodeFields_eq, ← List.map_reverse, List.find?_map, Option.map_map, Option.map_map]
  rfl

/-- The type of node that an object describes. -/
def nodeObject? (fields : List (Chars × Json)) : Option NodeType :=
  match Json.field? fields "_enum" with
  | some _ => none
  | none => (Json.field? fields "_type").bind nodeType?

variable {fields : List (Chars × Json)} {type : NodeType}

theorem nodeType?_spec {shown : Json} (known : nodeType? shown = some type) :
    type ∈ NodeType.all ∧ shown = .text type.name := by
  unfold nodeType? at known
  split at known
  · next name =>
    have named := List.find?_some known
    rw [decide_eq_true_eq] at named
    exact ⟨List.mem_of_find?_eq_some known, by rw [Json.text, named]⟩
  · cases known

theorem nodeObject?_spec (known : nodeObject? fields = some type) :
    Json.field? fields "_enum" = none ∧ type ∈ NodeType.all ∧
      Json.field? fields "_type" = some (.text type.name) ∧
      nodeType? (.text type.name) = some type := by
  unfold nodeObject? at known
  split at known
  · cases known
  · next none =>
    obtain ⟨shown, found, isType⟩ := Option.bind_eq_some_iff.1 known
    obtain ⟨member, rfl⟩ := nodeType?_spec isType
    exact ⟨none, member, found, isType⟩

/-- A node is built from the fields that its type has. -/
theorem nodeOf_eq (known : nodeObject? fields = some type) :
    nodeOf (decodeFields fields) =
      (do type.build (← gather (decodeFields fields) type.fieldNames)) := by
  obtain ⟨_, _, typed, isType⟩ := nodeObject?_spec known
  unfold nodeOf
  rw [reading?_decodeFields, typed]
  simp only [Option.map_some, Json.text] at isType ⊢
  simp only [isType]

/-- An object that describes a node is read as one, wherever it stands. -/
theorem decode_eq (known : nodeObject? fields = some type) :
    decode (.obj fields) = (nodeOf (decodeFields fields)).map .node := by
  obtain ⟨none, member, typed, _⟩ := nodeObject?_spec known
  have other : ∀ type ∈ NodeType.all, type.name.toList ≠ "SourceLocation".toList ∧
      type.name.toList ≠ "Diagnostic".toList := by decide
  rw [decode, objectOf, reading?_decodeFields, none]
  simp only [Option.map_none]
  rw [reading?_decodeFields, typed]
  simp only [Option.map_some, Json.text, (other type member).1, (other type member).2, if_false]

/-- The fields with the given names are there and are read as the given values. -/
inductive Gathers (fields : List (Chars × Json)) : List String → Fields → Prop
  | nil : Gathers fields [] []
  | cons {name : String} {names : List String} {shown : Json} {value : Value} {values : Fields} :
      Json.field? fields name = some shown → decode shown = .ok value →
      Gathers fields names values → Gathers fields (name :: names) ((name, value) :: values)

theorem gather_eq {names : List String} {values : Fields} (gathers : Gathers fields names values) :
    gather (decodeFields fields) names = .ok values := by
  induction gathers with
  | nil => rfl
  | cons found reads _ ih =>
    rw [gather, reading?_decodeFields, found]
    simp only [Option.map_some, reads, ih]
    rfl

end Codec

/-! ## What a node is made of -/

/-- What a part that may be missing is read as. -/
def Value.ofOption {α : Type} (wrap : α → Value) : Option α → Value
  | none => .scalar .null
  | some part => wrap part

/-- What a text that may be missing is read as. -/
def Value.ofText? : Option Chars → Value :=
  .ofOption fun text => .scalar (.str text)

def Echo.fieldValues (echo : Echo) : Fields :=
  [("location", .location echo.location), ("expression", .scalar (.str echo.expression)),
    ("raw", .scalar (.bool echo.raw))]

def Directive.fieldValues (directive : Directive) : Fields :=
  [("location", .location directive.location), ("name", .scalar (.str directive.name)),
    ("written_name", .scalar (.str directive.writtenName)),
    ("arguments", .ofText? directive.arguments), ("pairing", .pairing directive.pairing),
    ("family", .ofText? directive.family),
    ("close_kind", .ofOption .closeKind directive.closeKind),
    ("registered", .scalar (.bool directive.registered)),
    ("spaced_args", .scalar (.bool directive.spacedArguments)),
    ("orphan", .scalar (.bool directive.orphan)), ("source", .scalar (.str directive.source))]

/-- The fields of an entry of a start tag. -/
def Attribute.fieldValues (entry : Attribute) : Fields :=
  [("location", .location entry.location), ("name", .scalar (.str entry.name)),
    ("value", .ofText? entry.value), ("kind", .attributeKind entry.kind),
    ("ambiguous", .scalar (.bool entry.ambiguous)),
    ("echo", .ofOption (fun echo => .node (.echo echo)) entry.echo),
    ("comment", .scalar (.bool entry.comment))]

/-- The entries of a start tag as they are read. -/
def Markup.entryValues (markup : Markup) : Value :=
  .list (markup.attributes.map fun entry => .node (.attr entry))

namespace Node

def type : Node → NodeType
  | .text .. => .text
  | .echo _ => .echo
  | .comment .. => .comment
  | .region .. => .region
  | .directive _ => .directive
  | .block .. => .block
  | .element .. => .element
  | .component .. => .component
  | .slot .. => .slot
  | .endTag .. => .endTag
  | .attr _ => .entry
  | .document .. => .document

/-- The fields of a node, in the order in which they are read. -/
def fieldValues : Node → Fields
  | .text location content | .comment location content =>
    [("location", .location location), ("content", .scalar (.str content))]
  | .echo found => found.fieldValues
  | .region location kind content =>
    [("location", .location location), ("kind", .regionKind kind),
      ("content", .scalar (.str content))]
  | .directive found => found.fieldValues
  | .block location opener family children closer indentsMiddles =>
    [("location", .location location), ("opener", .node (.directive opener)),
      ("family", .scalar (.str family)), ("children", .list (children.map .node)),
      ("closer", .ofOption (fun directive => .node (.directive directive)) closer),
      ("indent_middles", .scalar (.bool indentsMiddles))]
  | .element markup void children =>
    [("location", .location markup.location), ("tag", .scalar (.str markup.tag)),
      ("attributes", markup.entryValues), ("children", .list (children.map .node)),
      ("self_closing", .scalar (.bool markup.selfClosing)), ("void", .scalar (.bool void)),
      ("closed", .scalar (.bool markup.closed)), ("end_tag", .ofText? markup.endTag)]
  | .component markup slots children =>
    [("location", .location markup.location), ("tag", .scalar (.str markup.tag)),
      ("attributes", markup.entryValues), ("slots", .list (slots.map .node)),
      ("children", .list (children.map .node)),
      ("self_closing", .scalar (.bool markup.selfClosing)),
      ("closed", .scalar (.bool markup.closed)), ("end_tag", .ofText? markup.endTag)]
  | .slot name markup children =>
    [("location", .location markup.location), ("name", .scalar (.str name)),
      ("tag", .scalar (.str markup.tag)), ("attributes", markup.entryValues),
      ("children", .list (children.map .node)),
      ("self_closing", .scalar (.bool markup.selfClosing)),
      ("closed", .scalar (.bool markup.closed)), ("end_tag", .ofText? markup.endTag)]
  | .endTag location tag content =>
    [("location", .location location), ("tag", .scalar (.str tag)),
      ("content", .scalar (.str content))]
  | .attr entry => entry.fieldValues
  | .document location children diagnostics source =>
    [("location", .location location), ("children", .list (children.map .node)),
      ("diagnostics", .list (diagnostics.map .diagnostic)), ("source", .scalar (.str source))]

end Node

namespace Fields

variable {α : Type} {fields : Fields} {name : String} {value : Value} {read : Value → Option α}
  {part : α}

theorem required_eq (found : fields.value? name = some value) (reads : read value = some part) :
    fields.required name read = .ok part := by
  rw [required, found]
  simp only [reads]

theorem optional_eq (found : fields.value? name = some value) (reads : read value = some part)
    (default : α) : fields.optional name read default = .ok part := by
  rw [optional, found]
  simp only [reads]

end Fields

namespace Value

theorem location?_location (place : Location) : location? (.location place) = some place := rfl

theorem text?_str (text : Chars) : text? (.scalar (.str text)) = some text := rfl

theorem flag?_bool (flag : Bool) : flag? (.scalar (.bool flag)) = some flag := rfl

theorem directive?_node (found : Directive) : directive? (.node (.directive found)) = some found :=
  rfl

theorem list?_map {α : Type} (item : Value → Option α) (wrap : α → Value)
    (reads : ∀ part, item (wrap part) = some part) (parts : List α) :
    list? item (.list (parts.map wrap)) = some parts := by
  show (parts.map wrap).mapM item = some parts
  induction parts with
  | nil => rfl
  | cons part rest ih =>
    rw [List.map_cons, List.mapM_cons, reads, ih]
    rfl

theorem optionalText?_ofText? (text : Option Chars) :
    optionalText? (.ofText? text) = some text := by
  cases text <;> rfl

theorem nodes?_map (nodes : List Node) : nodes? (.list (nodes.map .node)) = some nodes := by
  unfold nodes?
  exact list?_map _ .node (fun _ => rfl) nodes

theorem diagnostics?_map (found : List Diagnostic) :
    diagnostics? (.list (found.map .diagnostic)) = some found := by
  unfold diagnostics?
  exact list?_map _ .diagnostic (fun _ => rfl) found

theorem entries?_entryValues (markup : Markup) :
    entries? markup.entryValues = some markup.attributes := by
  unfold entries? Markup.entryValues
  exact list?_map _ (fun entry => .node (.attr entry)) (fun _ => rfl) markup.attributes

end Value

/-- The start tag is put together from the fields that its types share. -/
theorem Fields.markup_eq {fields : Fields} {markup : Markup}
    (location : fields.value? "location" = some (.location markup.location))
    (tag : fields.value? "tag" = some (.scalar (.str markup.tag)))
    (attributes : fields.value? "attributes" =
      some markup.entryValues)
    (selfClosing : fields.value? "self_closing" = some (.scalar (.bool markup.selfClosing)))
    (closed : fields.value? "closed" = some (.scalar (.bool markup.closed)))
    (endTag : fields.value? "end_tag" =
      some (.ofText? markup.endTag)) :
    fields.markup = .ok markup := by
  rw [Fields.markup, required_eq location (Value.location?_location _),
    required_eq tag (Value.text?_str _), required_eq attributes (Value.entries?_entryValues markup),
    optional_eq selfClosing (Value.flag?_bool _), optional_eq closed (Value.flag?_bool _),
    optional_eq endTag (Value.optionalText?_ofText? _)]
  rfl

namespace Node

/-- A node is made of its fields. -/
theorem build_fieldValues (node : Node) : node.type.build node.fieldValues = .ok node := by
  cases node with
  | text | echo | comment | region | endTag => rfl
  | directive found =>
    obtain ⟨_, _, _, arguments, _, family, closeKind, _, _, _, _⟩ := found
    cases arguments <;> cases family <;> cases closeKind <;> rfl
  | attr found =>
    obtain ⟨_, _, value, _, _, echo, _⟩ := found
    cases value <;> cases echo <;> rfl
  | block location opener family children closer indentsMiddles =>
    have read : Value.optionalDirective?
        (.ofOption (fun directive => .node (.directive directive)) closer) = some closer := by
      cases closer <;> rfl
    simp only [type, NodeType.block]
    rw [Fields.required_eq rfl (Value.location?_location location),
      Fields.required_eq rfl (Value.directive?_node opener),
      Fields.required_eq rfl (Value.text?_str family),
      Fields.required_eq rfl (Value.nodes?_map children), Fields.optional_eq rfl read,
      Fields.optional_eq rfl (Value.flag?_bool indentsMiddles)]
    rfl
  | element markup void children =>
    simp only [type, NodeType.element]
    rw [Fields.markup_eq rfl rfl rfl rfl rfl rfl, Fields.optional_eq rfl (Value.flag?_bool void),
      Fields.required_eq rfl (Value.nodes?_map children)]
    rfl
  | component markup slots children =>
    simp only [type, NodeType.component]
    rw [Fields.markup_eq rfl rfl rfl rfl rfl rfl, Fields.required_eq rfl (Value.nodes?_map slots),
      Fields.required_eq rfl (Value.nodes?_map children)]
    rfl
  | slot name markup children =>
    simp only [type, NodeType.slot]
    rw [Fields.required_eq rfl (Value.text?_str name), Fields.markup_eq rfl rfl rfl rfl rfl rfl,
      Fields.required_eq rfl (Value.nodes?_map children)]
    rfl
  | document location children diagnostics source =>
    simp only [type, NodeType.document]
    rw [Fields.required_eq rfl (Value.location?_location location),
      Fields.required_eq rfl (Value.nodes?_map children),
      Fields.optional_eq rfl (Value.diagnostics?_map diagnostics),
      Fields.optional_eq rfl (Value.text?_str source)]
    rfl

end Node

namespace Codec

/-! ## Parts of nodes -/

theorem decode_str (text : Chars) : decode (.str text) = .ok (.scalar (.str text)) := rfl

theorem decode_bool (flag : Bool) : decode (.bool flag) = .ok (.scalar (.bool flag)) := rfl

theorem decode_option {α : Type} {encode : α → Json} {wrap : α → Value}
    (reads : ∀ part, decode (encode part) = .ok (wrap part)) (part : Option α) :
    decode (.option encode part) = .ok (.ofOption wrap part) := by
  cases part with
  | none => rfl
  | some part => exact reads part

theorem decode_list {α : Type} {encode : α → Json} {wrap : α → Value}
    (reads : ∀ part, decode (encode part) = .ok (wrap part)) (parts : List α) :
    decode (.arr (parts.map encode)) = .ok (.list (parts.map wrap)) := by
  have items : decodeItems (parts.map encode) = .ok (parts.map wrap) := by
    induction parts with
    | nil => rfl
    | cons part rest ih =>
      rw [List.map_cons, decodeItems, reads, ih]
      rfl
  rw [decode, items]
  rfl

theorem decode_location (place : Location) : decode (location place) = .ok (.location place) := by
  obtain ⟨line, column, offset, endOffset, endLine, endColumn, file⟩ := place
  have named (file : String) : String.ofList file.toList = file := String.ofList_toList
  cases file with
  | none => cases endLine <;> cases endColumn <;> rfl
  | some file =>
    let place : Location := ⟨line, column, offset, endOffset, endLine, endColumn, some file⟩
    have read : decode (location place) =
        .ok (.location { place with file := some (String.ofList file.toList) }) := by
      cases endLine <;> cases endColumn <;> rfl
    rw [read, named]

theorem decode_pairing (role : Pairing) :
    decode (member "Pairing" role.name) = .ok (.pairing role) := by
  cases role <;> rfl

theorem decode_closeKind (kind : CloseKind) :
    decode (member "CloseKind" kind.name) = .ok (.closeKind kind) := by
  cases kind <;> rfl

theorem decode_attributeKind (kind : AttributeKind) :
    decode (member "AttributeKind" kind.name) = .ok (.attributeKind kind) := by
  cases kind <;> rfl

theorem decode_regionKind (kind : RegionKind) :
    decode (member "OpaqueKind" kind.name) = .ok (.regionKind kind) := by
  cases kind <;> rfl

theorem decode_severity (severity : Severity) :
    decode (member "Severity" severity.name) = .ok (.severity severity) := by
  cases severity <;> rfl

theorem decode_code (code : DiagnosticCode) :
    decode (member "DiagnosticCode" code.name) = .ok (.code code) := by
  cases code <;> rfl

theorem decode_diagnostic (found : Diagnostic) :
    decode (diagnostic found) = .ok (.diagnostic found) := by
  obtain ⟨fields, shown⟩ : ∃ fields, diagnostic found = .obj fields := ⟨_, rfl⟩
  have object :
      decode (diagnostic found) = (diagnosticOf (decodeFields fields)).map .diagnostic := by
    cases shown
    rfl
  have line : key "line" (decodeFields fields) = .ok (.int found.line) := by
    cases shown
    rfl
  have column : key "column" (decodeFields fields) = .ok (.int found.column) := by
    cases shown
    rfl
  have message : key "message" (decodeFields fields) = .ok (.text found.message) := by
    cases shown
    rfl
  have severity : readKey "severity" (decodeFields fields) = .ok (.severity found.severity) := by
    cases shown
    exact decode_severity found.severity
  have code : readKey "code" (decodeFields fields) = .ok (.code found.code) := by
    cases shown
    exact decode_code found.code
  rw [object, diagnosticOf, line, column, severity, message, code]
  show Except.ok (Value.diagnostic ⟨_, _, _, String.ofList found.message.toList, _⟩) = _
  rw [String.ofList_toList]

end Codec

/-! ## Nodes -/

namespace Codec

/-- The object describes the node: it has the fields of its type, read as what the node is made
of. -/
structure Represents (shown : Json) (node : Node) : Prop where
  object : shown = .obj shown.fields
  known : nodeObject? shown.fields = some node.type
  gathers : Gathers shown.fields node.type.fieldNames node.fieldValues

namespace Represents

variable {shown : Json} {node : Node}

theorem node_eq (represents : Represents shown node) : Node.decode shown = .ok node := by
  rw [represents.object, Node.decode, nodeOf_eq represents.known, gather_eq represents.gathers]
  exact node.build_fieldValues

theorem value_eq (represents : Represents shown node) : decode shown = .ok (.node node) := by
  have whole := represents.node_eq
  rw [represents.object, Node.decode] at whole
  rw [represents.object, decode_eq represents.known, whole]
  rfl

end Represents

theorem represents_echo (found : Echo) : Represents (echo found) (.echo found) := by
  refine ⟨rfl, rfl, ?_⟩
  exact .cons rfl (decode_location _) (.cons rfl (decode_str _) (.cons rfl (decode_bool _) .nil))

theorem represents_directive (found : Directive) :
    Represents (directive found) (.directive found) := by
  refine ⟨rfl, rfl, ?_⟩
  refine .cons rfl (decode_location _) (.cons rfl (decode_str _) (.cons rfl (decode_str _) ?_))
  refine .cons rfl (decode_option decode_str _) (.cons rfl (decode_pairing _) ?_)
  refine .cons rfl (decode_option decode_str _) ?_
  refine .cons rfl (decode_option decode_closeKind _) (.cons rfl (decode_bool _) ?_)
  exact .cons rfl (decode_bool _) (.cons rfl (decode_bool _) (.cons rfl (decode_str _) .nil))

theorem represents_entry (found : Attribute) : Represents (entry found) (.attr found) := by
  have inside (found : Echo) := (represents_echo found).value_eq
  refine ⟨rfl, rfl, ?_⟩
  refine .cons rfl (decode_location _) (.cons rfl (decode_str _) ?_)
  refine .cons rfl (decode_option decode_str _) (.cons rfl (decode_attributeKind _) ?_)
  refine .cons rfl (decode_bool _) (.cons rfl (decode_option inside _) ?_)
  exact .cons rfl (decode_bool _) .nil

end Codec

namespace Node

open Codec

theorem decode_entries (markup : Markup) : Codec.decode (entries markup) = .ok markup.entryValues :=
  decode_list (fun entry => (represents_entry entry).value_eq) markup.attributes

/-- The children of a node, once they are read back. -/
theorem decode_children {children : List Node}
    (reads : decodeItems (encodeAll children) = .ok (children.map .node)) :
    Codec.decode (.arr (encodeAll children)) = .ok (.list (children.map .node)) := by
  rw [Codec.decode, reads]
  rfl

mutual

/-- The object of a node describes the node. -/
theorem represents (node : Node) : Represents node.encode node := by
  cases node with
  | text | comment =>
    exact ⟨rfl, rfl, .cons rfl (decode_location _) (.cons rfl (decode_str _) .nil)⟩
  | echo found => exact represents_echo found
  | region =>
    exact ⟨rfl, rfl, .cons rfl (decode_location _)
      (.cons rfl (decode_regionKind _) (.cons rfl (decode_str _) .nil))⟩
  | directive found => exact represents_directive found
  | block location opener family children closer indentsMiddles =>
    have below := decode_children (decodeItems_encodeAll children)
    have directive (found : Directive) := (represents_directive found).value_eq
    refine ⟨rfl, rfl, ?_⟩
    refine .cons rfl (decode_location _) (.cons rfl (directive _) (.cons rfl (decode_str _) ?_))
    refine .cons rfl below (.cons rfl (decode_option directive _) ?_)
    exact .cons rfl (decode_bool _) .nil
  | element markup void children =>
    have below := decode_children (decodeItems_encodeAll children)
    refine ⟨rfl, rfl, ?_⟩
    refine .cons rfl (decode_location _) (.cons rfl (decode_str _) ?_)
    refine .cons rfl (decode_entries markup) (.cons rfl below (.cons rfl (decode_bool _) ?_))
    refine .cons rfl (decode_bool _) (.cons rfl (decode_bool _) ?_)
    exact .cons rfl (decode_option decode_str _) .nil
  | component markup slots children =>
    have inSlots := decode_children (decodeItems_encodeAll slots)
    have below := decode_children (decodeItems_encodeAll children)
    refine ⟨rfl, rfl, ?_⟩
    refine .cons rfl (decode_location _) (.cons rfl (decode_str _) ?_)
    refine .cons rfl (decode_entries markup) (.cons rfl inSlots (.cons rfl below ?_))
    refine .cons rfl (decode_bool _) (.cons rfl (decode_bool _) ?_)
    exact .cons rfl (decode_option decode_str _) .nil
  | slot name markup children =>
    have below := decode_children (decodeItems_encodeAll children)
    refine ⟨rfl, rfl, ?_⟩
    refine .cons rfl (decode_location _) (.cons rfl (decode_str _) (.cons rfl (decode_str _) ?_))
    refine .cons rfl (decode_entries markup) (.cons rfl below (.cons rfl (decode_bool _) ?_))
    exact .cons rfl (decode_bool _) (.cons rfl (decode_option decode_str _) .nil)
  | endTag =>
    exact ⟨rfl, rfl, .cons rfl (decode_location _)
      (.cons rfl (decode_str _) (.cons rfl (decode_str _) .nil))⟩
  | attr found => exact represents_entry found
  | document location children diagnostics source =>
    have below := decode_children (decodeItems_encodeAll children)
    refine ⟨rfl, rfl, ?_⟩
    refine .cons rfl (decode_location _) (.cons rfl below ?_)
    exact .cons rfl (decode_list decode_diagnostic _) (.cons rfl (decode_str _) .nil)

/-- Nodes in a list are read back one by one. -/
theorem decodeItems_encodeAll (nodes : List Node) :
    decodeItems (encodeAll nodes) = .ok (nodes.map .node) := by
  cases nodes with
  | nil => rfl
  | cons node rest =>
    rw [encodeAll, decodeItems, (represents node).value_eq, decodeItems_encodeAll rest]
    rfl

end

end Node

end BladeTemplate
