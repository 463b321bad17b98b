import Mathlib.Logic.Relation
import BladeTemplate.Node.Codec
import BladeTemplate.Proofs.Decoding
import BladeTemplate.Proofs.ReadBack

/-!
# Saved trees survive edits

A saved tree may lose fields that hold their defaults and gain fields that its types do not have,
at any depth, and is still read as the same tree.

* `NodeType.default?` is the default of a field, as it is saved;
* `Json.Edit` is one edit of a value, and `Json.Alike` what an edit of an object may change;
* `build_of_like` says that a node is built from the fields that are there as if the fields with
  their defaults were there too;
* `Json.Edit.decode_eq` is the result for one edit, by induction on the place of the edit;
* `saved_trees_read_back` puts it together with the way through text.
-/

namespace BladeTemplate

/-! ## Defaults -/

/-- The fields that have a default, with the default as it is saved. -/
def NodeType.defaults (type : NodeType) : List (String × Json) :=
  match type.name with
  | "Echo" => [("raw", .bool false)]
  | "Directive" =>
    [("pairing", Codec.member "Pairing" "none"), ("family", .null), ("close_kind", .null),
      ("registered", .bool false), ("spaced_args", .bool false), ("orphan", .bool false),
      ("source", .str [])]
  | "Block" => [("closer", .null), ("indent_middles", .bool false)]
  | "Attribute" =>
    [("value", .null), ("kind", Codec.member "AttributeKind" "plain"),
      ("ambiguous", .bool false), ("echo", .null), ("comment", .bool false)]
  | "Element" =>
    [("self_closing", .bool false), ("void", .bool false), ("closed", .bool true),
      ("end_tag", .null)]
  | "Component" | "Slot" =>
    [("self_closing", .bool false), ("closed", .bool true), ("end_tag", .null)]
  | "Document" => [("diagnostics", .arr []), ("source", .str [])]
  | _ => []

/-- The default of a field, as it is saved. -/
def NodeType.default? (type : NodeType) (name : String) : Option Json :=
  (type.defaults.find? (·.1 = name)).map (·.2)

/-- The marks of an object are no fields of its type, and what has a default is one. -/
theorem NodeType.defaults_spec : ∀ type ∈ NodeType.all,
    "_enum" ∉ type.fieldNames ∧ "_type" ∉ type.fieldNames ∧
      ∀ default ∈ type.defaults, default.1 ∈ type.fieldNames := by
  decide

theorem NodeType.default?_mem {type : NodeType} (listed : type ∈ NodeType.all) {name : String}
    {shown : Json} (default : type.default? name = some shown) : name ∈ type.fieldNames := by
  obtain ⟨pair, found, rfl⟩ := Option.map_eq_some_iff.1 default
  have named := List.find?_some found
  rw [decide_eq_true_eq] at named
  exact named ▸ (defaults_spec type listed).2.2 pair (List.mem_of_find?_eq_some found)

namespace Fields

variable {α : Type} {type : NodeType} {whole kept : Fields}

/-- The same fields are there, except for some that hold their defaults. -/
def Like (type : NodeType) (whole kept : Fields) : Prop :=
  ∀ name, kept.value? name = whole.value? name ∨
    kept.value? name = none ∧ ∃ shown value, type.default? name = some shown ∧
      Codec.decode shown = .ok value ∧ whole.value? name = some value

namespace Like

theorem required (like : Like type whole kept) (name : String) (read : Value → Option α)
    (none : (type.default? name).isNone) : kept.required name read = whole.required name read := by
  obtain same | ⟨_, shown, _, default, _⟩ := like name
  · rw [Fields.required, Fields.required, same]
  · rw [default] at none
    cases none

theorem optional (like : Like type whole kept) (name : String) (read : Value → Option α)
    (default : α) (saved : ∃ shown value, type.default? name = some shown ∧
      Codec.decode shown = .ok value ∧ read value = some default) :
    kept.optional name read default = whole.optional name read default := by
  obtain same | ⟨missing, shown, value, saved', reads', present⟩ := like name
  · rw [Fields.optional, Fields.optional, same]
  · obtain ⟨shown, value, saved, reads, standard⟩ := saved
    rw [saved] at saved'
    cases saved'
    rw [reads] at reads'
    cases reads'
    rw [Fields.optional_eq present standard, Fields.optional, missing]

end Like

/-- A node is built as if the fields that have been left out held their defaults. -/
theorem build_of_like (listed : type ∈ NodeType.all) (like : Like type whole kept) :
    type.build kept = type.build whole := by
  simp only [NodeType.all, List.mem_cons, List.not_mem_nil, or_false] at listed
  -- a field without default is there, and a field with default holds it when it is missing
  rcases listed with rfl | rfl | rfl | rfl | rfl | rfl | rfl | rfl | rfl | rfl | rfl | rfl <;>
    simp (disch := with_unfolding_all first | decide | exact ⟨_, _, rfl, rfl, rfl⟩) only
      [NodeType.document, NodeType.text, NodeType.echo, NodeType.comment, NodeType.region,
        NodeType.directive, NodeType.block, NodeType.entry, NodeType.element, NodeType.component,
        NodeType.slot, NodeType.endTag, Fields.markup, like.required, like.optional]

end Fields

/-! ## Fields that are read -/

/-- Where a reading succeeds, its first step does. -/
theorem Except.exists_of_bind {ε α β : Type} {first : Except ε α} {next : α → Except ε β}
    {result : β} (reads : first >>= next = .ok result) :
    ∃ part, first = .ok part ∧ next part = .ok result := by
  cases first with
  | error error => cases reads
  | ok part => exact ⟨part, rfl, reads⟩

theorem Except.exists_of_map {ε α β : Type} {first : Except ε α} {wrap : α → β}
    {result : β} (reads : first.map wrap = .ok result) :
    ∃ part, first = .ok part ∧ wrap part = result := by
  cases first with
  | error error => cases reads
  | ok part => exact ⟨part, rfl, Except.ok.inj reads⟩

namespace Codec

variable {fields : List (Chars × Json)} {names : List String} {values : Fields}

/-- What a field is read as. -/
def part? (fields : List (Chars × Json)) (name : String) : Option Value :=
  (Json.field? fields name).bind fun shown => (decode shown).toOption

/-- Fields are read where they are asked for. -/
theorem value?_gather (gathered : gather (decodeFields fields) names = .ok values)
    (name : String) : values.value? name = if name ∈ names then part? fields name else none := by
  induction names generalizing values with
  | nil =>
    cases gathered
    rfl
  | cons first rest ih =>
    rw [gather, reading?_decodeFields] at gathered
    cases found : Json.field? fields first with
    | none =>
      rw [found] at gathered
      rw [ih gathered]
      by_cases same : name = first
      · subst same
        simp [part?, found]
      · simp [same]
    | some shown =>
      rw [found] at gathered
      obtain ⟨value, reads, gathered⟩ := Except.exists_of_bind gathered
      obtain ⟨more, later, gathered⟩ := Except.exists_of_bind gathered
      cases gathered
      by_cases same : first = name
      · subst same
        simp [Fields.value?, part?, found, reads, Except.toOption]
      · have other : Fields.value? ((first, value) :: more) name = more.value? name := by
          simp [Fields.value?, same]
        rw [other, ih later]
        simp [Ne.symm same]

/-- Fields can be read together when each can be read. -/
theorem gather_isOk : (∃ values, gather (decodeFields fields) names = .ok values) ↔
    ∀ name ∈ names, ∀ shown, Json.field? fields name = some shown →
      ∃ value, decode shown = .ok value := by
  induction names with
  | nil => simp [gather]
  | cons first rest ih =>
    rw [List.forall_mem_cons, ← ih, gather, reading?_decodeFields]
    cases found : Json.field? fields first with
    | none => simp
    | some shown =>
      cases reads : decode shown with
      | error error => simp [reads, bind, Except.bind]
      | ok value =>
        cases gather (decodeFields fields) rest with
        | error error => simp [reads, bind, Except.bind]
        | ok more => simp [reads, bind, Except.bind, pure, Except.pure]

end Codec

/-! ## Edits -/

/-- One edit of a saved value: a field that holds its default is left out, a field that the type
of a node does not have is added, or an edit is made inside a field or an item. -/
inductive Json.Edit : Json → Json → Prop
  | leaveOut {before after : List (Chars × Json)} {type : NodeType} {name : String}
      {shown : Json} :
      Codec.nodeObject? (before ++ (name.toList, shown) :: after) = some type →
      type.default? name = some shown →
      (∀ field ∈ before ++ after, field.1 ≠ name.toList) →
      Edit (.obj (before ++ (name.toList, shown) :: after)) (.obj (before ++ after))
  | add {before after : List (Chars × Json)} {type : NodeType} {name : Chars} {shown : Json} :
      Codec.nodeObject? (before ++ after) = some type → name ≠ "_type".toList →
      name ≠ "_enum".toList → (∀ field ∈ type.fieldNames, name ≠ field.toList) →
      Edit (.obj (before ++ after)) (.obj (before ++ (name, shown) :: after))
  | field {before after : List (Chars × Json)} {type : NodeType} {name : String}
      {old new : Json} :
      Codec.nodeObject? (before ++ (name.toList, old) :: after) = some type →
      name ∈ type.fieldNames → Edit old new →
      Edit (.obj (before ++ (name.toList, old) :: after))
        (.obj (before ++ (name.toList, new) :: after))
  | item {before after : List Json} {old new : Json} :
      Edit old new → Edit (.arr (before ++ old :: after)) (.arr (before ++ new :: after))

namespace Json

theorem field?_cons (field : Chars × Json) (rest : List (Chars × Json)) (name : String) :
    field? (field :: rest) name =
      (field? rest name).or (if field.1 = name.toList then some field.2 else none) := by
  unfold field?
  rw [List.reverse_cons, List.find?_append, Option.map_or]
  by_cases same : field.1 = name.toList <;> simp [same]

theorem field?_append (before after : List (Chars × Json)) (name : String) :
    field? (before ++ after) name = (field? after name).or (field? before name) := by
  unfold field?
  rw [List.reverse_append, List.find?_append, Option.map_or]

theorem field?_eq_none {fields : List (Chars × Json)} {name : String}
    (other : ∀ field ∈ fields, field.1 ≠ name.toList) : field? fields name = none := by
  unfold field?
  rw [List.find?_eq_none.2, Option.map_none]
  intro field member
  simpa using other field (List.mem_reverse.1 member)

/-- A field counts for its own name only. -/
theorem field?_other {before after : List (Chars × Json)} {field : Chars × Json} {name : String}
    (other : field.1 ≠ name.toList) :
    field? (before ++ field :: after) name = field? (before ++ after) name := by
  rw [field?_append, field?_append, field?_cons, if_neg other, Option.or_none]

/-- What may become of a field with the given default: it stays, it is edited and reads as before,
or it is left out when it holds the default. -/
inductive Kept (default : Option Json) : Option Json → Option Json → Prop
  | same (shown : Option Json) : Kept default shown shown
  | edited {old new : Json} :
      (∀ value, Codec.decode old = .ok value → Codec.decode new = .ok value) →
      Kept default (some old) (some new)
  | leftOut {shown : Json} : default = some shown → Kept default (some shown) none

namespace Kept

open Codec

variable {default old new : Option Json}

theorem readable (kept : Kept default old new)
    (reads : ∀ shown, old = some shown → ∃ value, decode shown = .ok value) (shown : Json)
    (found : new = some shown) : ∃ value, decode shown = .ok value := by
  cases kept with
  | same => exact reads shown found
  | edited again =>
    obtain ⟨value, read⟩ := reads _ rfl
    cases found
    exact ⟨value, again value read⟩
  | leftOut => cases found

theorem like (kept : Kept default old new)
    (reads : ∀ shown, old = some shown → ∃ value, decode shown = .ok value) :
    new.bind (fun shown => (decode shown).toOption) =
        old.bind (fun shown => (decode shown).toOption) ∨
      new.bind (fun shown => (decode shown).toOption) = none ∧
        ∃ shown value, default = some shown ∧ decode shown = .ok value ∧
          old.bind (fun shown => (decode shown).toOption) = some value := by
  cases kept with
  | same => exact .inl rfl
  | edited again =>
    obtain ⟨value, read⟩ := reads _ rfl
    left
    simp only [Option.bind_some, read, again value read]
  | leftOut standard =>
    obtain ⟨value, read⟩ := reads _ rfl
    exact .inr ⟨rfl, _, value, standard, read, by rw [Option.bind_some, read]; rfl⟩

end Kept

/-- Objects of one type whose fields are alike. -/
structure Alike (type : NodeType) (old new : List (Chars × Json)) : Prop where
  known : Codec.nodeObject? old = some type
  kept : Codec.nodeObject? new = some type
  fields : ∀ name ∈ type.fieldNames,
    Kept (type.default? name) (field? old name) (field? new name)

namespace Alike

open Codec

variable {type : NodeType} {old new : List (Chars × Json)}

/-- The type of an object stays when its two marks stay. -/
theorem of_fields (known : nodeObject? old = some type)
    (other : ∀ name, name ∉ type.fieldNames → name = "_type" ∨ name = "_enum" →
      field? new name = field? old name)
    (fields : ∀ name ∈ type.fieldNames,
      Kept (type.default? name) (field? old name) (field? new name)) : Alike type old new := by
  obtain ⟨_, listed, _, _⟩ := nodeObject?_spec known
  obtain ⟨vocabulary, typed, _⟩ := NodeType.defaults_spec type listed
  refine ⟨known, ?_, fields⟩
  rw [nodeObject?, other _ vocabulary (.inr rfl), other _ typed (.inl rfl)]
  exact known

/-- Objects that are alike describe the same node. -/
theorem nodeOf_eq (alike : Alike type old new) {node : Node}
    (built : nodeOf (decodeFields old) = .ok node) : nodeOf (decodeFields new) = .ok node := by
  obtain ⟨_, listed, _, _⟩ := nodeObject?_spec alike.known
  rw [Codec.nodeOf_eq alike.known] at built
  obtain ⟨whole, gathered, built⟩ := Except.exists_of_bind built
  have each := gather_isOk.1 ⟨whole, gathered⟩
  obtain ⟨left, regathered⟩ : ∃ left, gather (decodeFields new) type.fieldNames = .ok left :=
    gather_isOk.2 fun name member => (alike.fields name member).readable (each name member)
  have like : Fields.Like type whole left := by
    intro name
    rw [value?_gather gathered, value?_gather regathered]
    by_cases member : name ∈ type.fieldNames
    · rw [if_pos member, if_pos member]
      exact (alike.fields name member).like (each name member)
    · rw [if_neg member, if_neg member]
      exact .inl rfl
  rw [Codec.nodeOf_eq alike.kept, regathered]
  exact (Fields.build_of_like listed like).trans built

theorem decode_eq (alike : Alike type old new) {value : Value}
    (reads : decode (.obj old) = .ok value) : decode (.obj new) = .ok value := by
  rw [Codec.decode_eq alike.known] at reads
  rw [Codec.decode_eq alike.kept]
  obtain ⟨node, built, rfl⟩ := Except.exists_of_map reads
  rw [alike.nodeOf_eq built]
  rfl

variable {before after : List (Chars × Json)} {name : String} {shown : Json}

theorem of_leaveOut
    (known : nodeObject? (before ++ (name.toList, shown) :: after) = some type)
    (default : type.default? name = some shown)
    (single : ∀ field ∈ before ++ after, field.1 ≠ name.toList) :
    Alike type (before ++ (name.toList, shown) :: after) (before ++ after) := by
  have listed := (nodeObject?_spec known).2.1
  have declared := NodeType.default?_mem listed default
  have others (other : String) (different : other ≠ name) :
      field? (before ++ after) other =
        field? (before ++ (name.toList, shown) :: after) other :=
    (field?_other fun same => different (String.toList_inj.1 same).symm).symm
  refine of_fields known (fun other undeclared _ => others other ?_) fun other member => ?_
  · rintro rfl
    exact undeclared declared
  · by_cases same : other = name
    · subst same
      rw [List.forall_mem_append] at single
      rw [field?_eq_none (List.forall_mem_append.2 single), field?_append, field?_cons,
        field?_eq_none single.2, if_pos rfl, Option.none_or, Option.some_or]
      exact .leftOut default
    · rw [others other same]
      exact .same _

theorem of_add {key : Chars} (known : nodeObject? (before ++ after) = some type)
    (type' : key ≠ "_type".toList) (vocabulary : key ≠ "_enum".toList)
    (undeclared : ∀ field ∈ type.fieldNames, key ≠ field.toList) :
    Alike type (before ++ after) (before ++ (key, shown) :: after) := by
  refine of_fields known (fun other _ mark => field?_other ?_) fun other member => ?_
  · obtain rfl | rfl := mark
    · exact type'
    · exact vocabulary
  · rw [field?_other (undeclared other member)]
    exact .same _

theorem of_field {changed : Json}
    (known : nodeObject? (before ++ (name.toList, shown) :: after) = some type)
    (declared : name ∈ type.fieldNames)
    (again : ∀ value, decode shown = .ok value → decode changed = .ok value) :
    Alike type (before ++ (name.toList, shown) :: after)
      (before ++ (name.toList, changed) :: after) := by
  have others (other : String) (different : other ≠ name) :
      field? (before ++ (name.toList, changed) :: after) other =
        field? (before ++ (name.toList, shown) :: after) other := by
    have apart : name.toList ≠ other.toList := fun same =>
      different (String.toList_inj.1 same).symm
    rw [field?_other apart, field?_other apart]
  refine of_fields known (fun other undeclared _ => others other ?_) fun other member => ?_
  · rintro rfl
    exact undeclared declared
  · by_cases same : other = name
    · subst same
      rw [field?_append, field?_append, field?_cons, field?_cons, if_pos rfl, if_pos rfl]
      -- only the last field of a name counts
      cases field? after other with
      | none => exact .edited again
      | some last => exact .same _
    · rw [others other same]
      exact .same _

end Alike

open Codec

/-- A list is read as before when one item of it is. -/
theorem decodeItems_replace {old new : Json}
    (again : ∀ value, decode old = .ok value → decode new = .ok value)
    (before after : List Json) (values : List Value)
    (reads : decodeItems (before ++ old :: after) = .ok values) :
    decodeItems (before ++ new :: after) = .ok values := by
  induction before generalizing values with
  | nil =>
    obtain ⟨value, first, reads⟩ := Except.exists_of_bind reads
    rw [List.nil_append, decodeItems, again value first]
    exact reads
  | cons item rest ih =>
    obtain ⟨value, first, reads⟩ := Except.exists_of_bind reads
    obtain ⟨more, later, reads⟩ := Except.exists_of_bind reads
    rw [List.cons_append, decodeItems, first, ih more later]
    exact reads

namespace Edit

variable {old new : Json}

/-- An edited value is read as before, by induction on the place of the edit. -/
theorem decode_eq (edit : Edit old new) (value : Value) (reads : decode old = .ok value) :
    decode new = .ok value := by
  induction edit generalizing value with
  | leaveOut known default single => exact (Alike.of_leaveOut known default single).decode_eq reads
  | add known type vocabulary undeclared =>
    exact (Alike.of_add known type vocabulary undeclared).decode_eq reads
  | field known declared _ ih => exact (Alike.of_field known declared ih).decode_eq reads
  | item _ ih =>
    obtain ⟨values, items, rfl⟩ := Except.exists_of_map reads
    rw [decode, decodeItems_replace ih _ _ values items]
    rfl

/-- An edited object describes the same node. -/
theorem node_eq (edit : Edit old new) {node : Node} (reads : Node.decode old = .ok node) :
    Node.decode new = .ok node := by
  cases edit with
  | leaveOut known default single => exact (Alike.of_leaveOut known default single).nodeOf_eq reads
  | add known type vocabulary undeclared =>
    exact (Alike.of_add known type vocabulary undeclared).nodeOf_eq reads
  | field known declared inner =>
    exact (Alike.of_field known declared inner.decode_eq).nodeOf_eq reads
  | item => cases reads

end Edit

/-! ## Trees as values -/

theorem plain_option {α : Type} {encode : α → Json} (plain : ∀ part, (encode part).Plain)
    (part : Option α) : (Json.option encode part).Plain := by
  cases part with
  | none => trivial
  | some part => exact plain part

theorem plain_items {α : Type} {encode : α → Json} (plain : ∀ part, (encode part).Plain)
    (parts : List α) : PlainItems (parts.map encode) := by
  induction parts with
  | nil => trivial
  | cons part rest ih => exact ⟨plain part, ih⟩

theorem plain_location (place : Location) : (location place).Plain := by
  have number (part : Option Int) : (Json.option .int part).Plain := by cases part <;> trivial
  have name (part : Option String) : (Json.option .text part).Plain := by cases part <;> trivial
  exact ⟨trivial, trivial, number _, number _, trivial, trivial, trivial, name _, trivial⟩

theorem plain_str? (part : Option Chars) : (Json.option .str part).Plain := by
  cases part <;> trivial

theorem plain_member (vocabulary name : String) : (member vocabulary name).Plain :=
  ⟨trivial, trivial, trivial⟩

theorem plain_diagnostic (found : Diagnostic) : (diagnostic found).Plain :=
  ⟨trivial, plain_member _ _, trivial, trivial, trivial, plain_member _ _, trivial⟩

theorem plain_echo (found : Echo) : (echo found).Plain :=
  ⟨trivial, trivial, plain_location _, trivial, trivial⟩

theorem plain_directive (found : Directive) : (directive found).Plain :=
  ⟨trivial, plain_str? _, plain_option (fun _ => plain_member _ _) _, plain_str? _,
    plain_location _, trivial, trivial, plain_member _ _, trivial, trivial, trivial, trivial,
    trivial⟩

theorem plain_entry (found : Attribute) : (entry found).Plain :=
  ⟨trivial, trivial, trivial, plain_option plain_echo _, plain_member _ _, plain_location _,
    trivial, plain_str? _, trivial⟩

end Json

namespace Node

open Json Codec

mutual

/-- The object of a node is plain. -/
theorem plain_encode (node : Node) : node.encode.Plain := by
  cases node with
  | text => exact ⟨trivial, trivial, plain_location _, trivial⟩
  | echo found => exact plain_echo found
  | comment => exact ⟨trivial, trivial, plain_location _, trivial⟩
  | region => exact ⟨trivial, trivial, plain_member _ _, plain_location _, trivial⟩
  | directive found => exact plain_directive found
  | block location opener family children closer indentsMiddles =>
    exact ⟨trivial, plain_encodeAll children, plain_option plain_directive _, trivial, trivial,
      plain_location _, plain_directive _, trivial⟩
  | element markup void children =>
    exact ⟨trivial, plain_items plain_entry _, plain_encodeAll children, trivial, plain_str? _,
      plain_location _, trivial, trivial, trivial, trivial⟩
  | component markup slots children =>
    exact ⟨trivial, plain_items plain_entry _, plain_encodeAll children, trivial, plain_str? _,
      plain_location _, trivial, plain_encodeAll slots, trivial, trivial⟩
  | slot name markup children =>
    exact ⟨trivial, plain_items plain_entry _, plain_encodeAll children, trivial, plain_str? _,
      plain_location _, trivial, trivial, trivial, trivial⟩
  | endTag => exact ⟨trivial, trivial, plain_location _, trivial, trivial⟩
  | attr found => exact plain_entry found
  | document location children diagnostics source =>
    exact ⟨trivial, plain_encodeAll children, plain_items plain_diagnostic _, plain_location _,
      trivial, trivial⟩

theorem plain_encodeAll (nodes : List Node) : PlainItems (encodeAll nodes) := by
  cases nodes with
  | nil => trivial
  | cons node rest => exact ⟨plain_encode node, plain_encodeAll rest⟩

end

end Node

/-! ## Trees through text -/

namespace Document

/-- A template is read back from the text of its object once the text is read as the object. -/
theorem ofJson_toJson_of_read (document : Document) (indent : Option Nat)
    (reads : Json.read (document.toJson indent) = .ok document.toNode.encode) :
    ofJson (document.toJson indent) = .ok document := by
  rw [ofJson, reads]
  show Except.bind (Node.decode document.toNode.encode) ofNode = _
  rw [document.toNode.represents.node_eq]
  rfl

end Document

/-- A saved tree is read back as it was, also when it has been edited.

Every node is read back from its object. Every plain value is read back from its text, unless a
whole number in it has too many digits. A template is therefore read back from its text, and in any
case when its text is read as the object it was written from. Leaving out fields that hold their
defaults and adding fields that the types do not have changes nothing. -/
theorem saved_trees_read_back :
    (∀ node : Node, Node.decode node.encode = .ok node) ∧
      (∀ (value : Json) (indent : Option Nat), value.Plain →
        Json.read (value.write indent) = Json.checked value.longNumber? value) ∧
      (∀ (document : Document) (indent : Option Nat),
        document.toNode.encode.Plain ∧
          (Json.read (document.toJson indent) = .ok document.toNode.encode →
            Document.ofJson (document.toJson indent) = .ok document) ∧
          Document.ofJson (document.toJson indent) =
            match document.toNode.encode.longNumber? with
            | none => .ok document
            | some digits => .error (.unreadable (.longNumber digits))) ∧
      ∀ (node : Node) (edited : Json),
        Relation.ReflTransGen Json.Edit node.encode edited → Node.decode edited = .ok node := by
  refine ⟨fun node => node.represents.node_eq, fun value indent => Json.read_write indent,
    fun document indent => ⟨document.toNode.plain_encode,
      document.ofJson_toJson_of_read indent, ?_⟩, fun node edited edits => ?_⟩
  · have read := Json.read_write indent document.toNode.plain_encode
    cases long : document.toNode.encode.longNumber? with
    | none =>
      rw [long] at read
      exact document.ofJson_toJson_of_read indent read
    | some digits =>
      rw [long] at read
      rw [Document.ofJson, Document.toJson, read]
      rfl
  · induction edits with
    | refl => exact node.represents.node_eq
    | tail _ edit ih => exact edit.node_eq ih

/-- A text with characters of all kinds is read back, and an echo that lost its default and gained
a field. -/
theorem edited_echo_reads_back :
    let echo : Node := .echo ⟨⟨1, 0, 0, 7, none, none, none⟩, [' ', 'x', ' '], false⟩
    let edited : Json := .obj (("note".toList, .arr []) :: echo.encode.fields.take 3)
    let text : Json := .str ['a', '\n', Char.ofNat 0, Char.ofNat 0x1F600]
    Json.read (text.write (some 2)) = .ok text ∧
      Relation.ReflTransGen Json.Edit echo.encode edited ∧ Node.decode edited = .ok echo := by
  intro echo edited text
  let kept : List (Chars × Json) := echo.encode.fields.take 3
  have leaveOut : Json.Edit (.obj (kept ++ [("raw".toList, .bool false)])) (.obj (kept ++ [])) :=
    .leaveOut rfl rfl (by decide)
  have add : Json.Edit (.obj ([] ++ kept)) edited := .add rfl (by decide) (by decide) (by decide)
  have edits : Relation.ReflTransGen Json.Edit echo.encode edited := .tail (.single leaveOut) add
  exact ⟨saved_trees_read_back.2.1 text (some 2) trivial, edits,
    saved_trees_read_back.2.2.2 echo edited edits⟩

end BladeTemplate
