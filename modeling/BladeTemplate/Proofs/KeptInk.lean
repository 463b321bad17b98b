import BladeTemplate.Proofs.Inventions
import BladeTemplate.Proofs.Registration

/-!
# Ink that formatting keeps

A result that passed the check invents nothing, and when directives are spelled as registered it
holds every character of its template but for what stands between the names and the brackets of end
tags.

* `Node.mem_walk_of_mem_built` and `Node.whole_of_mem_builtAll` take facts about a tree to the nodes
  printed from their parts;
* `invents_nothing_of_accepted` says that an accepted result has no end tag that its template lacks;
* `format_keeps_ink` is the balance that is left.
-/

namespace BladeTemplate

open Text

/-! ## Nodes printed from their parts -/

namespace Node

variable {registry : Registry} {source : Chars}

mutual

/-- The nodes printed from their parts are among all nodes of a tree. -/
theorem mem_walk_of_mem_built : (node : Node) → ∀ part ∈ node.built, part ∈ node.walk
  | .text .. | .echo .. | .comment .. | .region .. | .directive .. | .endTag .. | .attr .. =>
    fun _ member => member
  | .block location opener family children none indentsMiddles => by
    intro part member
    rw [List.mem_singleton.1 member, walk]
    exact List.mem_cons_self
  | .block location opener family children (some last) indentsMiddles => by
    intro part member
    simp only [built, List.cons_append, List.mem_cons, List.mem_append, List.not_mem_nil,
      or_false] at member
    rcases member with rfl | rfl | inside | rfl
    · simp [walk]
    · simp [walk]
    · simp [walk, mem_walkAll_of_mem_builtAll children part inside]
    · simp [walk]
  | .element markup void children => by
    intro part member
    rw [built, List.mem_cons] at member
    rw [walk, List.mem_cons]
    rcases member with rfl | below
    · exact .inl rfl
    split at below
    · cases below
    · exact .inr (mem_walkAll_of_mem_builtAll children part below)
  | .component markup slots children => by
    intro part member
    rw [built, List.cons_append, List.mem_cons, List.mem_append] at member
    rw [walk, List.cons_append, List.mem_cons, List.mem_append]
    rcases member with rfl | inSlots | inRest
    · exact .inl rfl
    · exact .inr (.inl (mem_walkAll_of_mem_builtAll slots part inSlots))
    · exact .inr (.inr (mem_walkAll_of_mem_builtAll children part inRest))
  | .slot name markup children => by
    intro part member
    rw [built, List.mem_cons] at member
    rw [walk, List.mem_cons]
    rcases member with rfl | below
    · exact .inl rfl
    · exact .inr (mem_walkAll_of_mem_builtAll children part below)
  | .document location children diagnostics source => by
    intro part member
    rw [List.mem_singleton.1 member, walk]
    exact List.mem_cons_self

theorem mem_walkAll_of_mem_builtAll : (nodes : List Node) →
    ∀ part ∈ builtAll nodes, part ∈ walkAll nodes
  | [] => fun _ member => member
  | node :: rest => by
    intro part member
    rw [builtAll, List.mem_append] at member
    rw [walkAll, List.mem_append]
    rcases member with first | later
    · exact .inl (mem_walk_of_mem_built node part first)
    · exact .inr (mem_walkAll_of_mem_builtAll rest part later)

end

/-- The nodes printed from their parts are what the template holds at their locations. -/
theorem whole_of_mem_builtAll {nodes : List Node}
    (wholes : ∀ node ∈ nodes, node.Whole registry source) :
    ∀ part ∈ builtAll nodes, part.Whole registry source :=
  fun part member =>
    whole_of_mem_walkAll nodes wholes part (mem_walkAll_of_mem_builtAll nodes part member)

/-- No closing bracket is left out of an end tag: the tag ends at the first one. -/
theorem bracket_not_mem_dropped {node : Node} (whole : node.Whole registry source) :
    '>' ∉ node.dropped source := by
  have ofMarkup {markup : Markup} {void : Bool} {content children : List Node} {a b : Nat}
      (spans : markup.location.Spans a b) (shaped : markup.Shaped source void children a b)
      (perm : content.Perm children) : '>' ∉ markup.dropped source content := by
    cases shaped with
    | single _ _ _ _ _ noEnd => simp [Markup.dropped, noEnd]
    | unclosed _ _ _ _ _ noEnd => simp [Markup.dropped, noEnd]
    | closed inside opens _ _ laid ordered shape notInside _ _ endTag =>
      have ended := congrArg (List.count '>')
        (squeeze_endTag spans opens laid ordered shape endTag perm)
      have none := List.count_eq_zero.2 notInside
      rw [count_squeeze (by decide), shape] at ended
      simp only [List.count_append, none] at ended
      rw [← List.count_eq_zero]
      omega
  cases whole with
  | element spans shaped _ => exact ofMarkup spans shaped (.refl _)
  | slot spans shaped _ => exact ofMarkup spans shaped (.refl _)
  | @component _ children _ _ spans shaped _ =>
    exact ofMarkup spans shaped (List.filter_append_perm _ children)
  | _ => exact List.not_mem_nil

/-- What is left out of an end tag is ink. -/
theorem inked_of_mem_dropped {node : Node} {c : Char} (member : c ∈ node.dropped source) :
    Text.isBlank c = false := by
  have ofMarkup {markup : Markup} {content : List Node}
      (member : c ∈ markup.dropped source content) : Text.isBlank c = false := by
    unfold Markup.dropped at member
    split at member
    · cases member
    · have inInk := List.mem_of_mem_drop ((List.dropLast_sublist _).mem member)
      simpa using (List.mem_filter.1 inInk).2
  cases node with
  | element | slot | component => exact ofMarkup member
  | _ => cases member

theorem invented_of_not_invents {node : Node} (invents : node.invents = false) :
    node.invented = [] := by
  cases node with
  | element markup void children => simp [invented, invents]
  | _ => rfl

/-- An end tag that is in no template has a closing bracket. -/
theorem bracket_mem_invented {node : Node} (invented : node.invents = true) :
    '>' ∈ node.invented := by
  cases node with
  | element markup void children =>
    rw [Node.invented, if_pos invented]
    unfold squeeze Page.endTagText
    simp
    decide
  | _ => simp [invents] at invented

end Node

theorem Page.of_mem_respelled {page : Page} {node : Node} {directive : Directive}
    (member : directive ∈ page.respelled node) :
    node = .directive directive ∧ directive.registered = true := by
  unfold Page.respelled at member
  split at member
  · next found =>
    split at member
    · cases member
    next known =>
    split at member
    · cases member
    · rw [List.mem_singleton.1 member]
      simp only [Bool.or_eq_true, Bool.not_eq_true', not_or, Bool.not_eq_true,
        Bool.not_eq_false] at known
      exact ⟨rfl, known.2⟩
  · cases member

/-- Respelling changes no closing bracket. -/
theorem count_bracket_respelled {registry : Registry} {page : Page} {nodes : List Node}
    (wholes : ∀ node ∈ nodes, node.Whole registry page.source) :
    ((nodes.flatMap page.respelled).flatMap Directive.writtenName).count '>' =
      ((nodes.flatMap page.respelled).flatMap Directive.name).count '>' := by
  have each : ∀ directive ∈ nodes.flatMap page.respelled,
      directive.writtenName.count '>' = directive.name.count '>' := by
    intro directive member
    obtain ⟨node, inNodes, found⟩ := List.mem_flatMap.1 member
    obtain ⟨rfl, registered⟩ := Page.of_mem_respelled found
    cases wholes _ inNodes with
    | directive placed =>
      obtain ⟨descriptor, looked, named⟩ := placed.known registered
      rw [named, Registry.count_of_lookup looked (by decide)]
  rw [List.count_flatMap, List.count_flatMap]
  exact congrArg List.sum (List.map_congr_left each)

/-! ## Results that pass the check -/

/-- A tree that prints as the template it was read from invents nothing. -/
theorem invents_nothing_of_fixed {config : Config} (unsorted : config.sortAttributes = false)
    {dialect : Dialect} {file : Option String} {source : Chars} {document : Document}
    (parsed : (parse dialect file source).outcome = .ok document)
    (fixed : render config document = source) :
    (Node.builtAll document.children).countP Node.invents = 0 := by
  have wholes := Node.whole_of_mem_builtAll (whole_of_parse parsed).2
  have balanced := @balance_render config unsorted dialect file source document parsed '>' (by decide)
  unfold Balanced at balanced
  have dropped : ((Node.builtAll document.children).flatMap (Node.dropped source)).count '>' = 0 := by
    rw [List.count_eq_zero]
    intro member
    obtain ⟨node, inNodes, found⟩ := List.mem_flatMap.1 member
    exact Node.bracket_not_mem_dropped (wholes node inNodes) found
  rw [fixed, count_squeeze (by decide), dropped,
    @count_bracket_respelled dialect.registry ⟨config, source⟩ _ wholes] at balanced
  have invented : ((Node.builtAll document.children).flatMap Node.invented).count '>' = 0 := by
    omega
  rw [List.countP_eq_zero]
  intro node inNodes invents
  rw [List.count_eq_zero] at invented
  exact invented (List.mem_flatMap.2 ⟨node, inNodes, Node.bracket_mem_invented invents⟩)

/-- A result that passed the check has no end tag that its template lacks: the fingerprints of the
two trees tell of equally many, and the second tree prints as itself. -/
theorem invents_nothing_of_accepted {config : Config} (unsorted : config.sortAttributes = false)
    {file : Option String} {source : Chars} {document : Document}
    (parsed : (parse config.dialect file source).outcome = .ok document)
    (accepted :
      (Stability.check config config document file (render config document)).verdict = .ok ()) :
    (Node.builtAll document.children).countP Node.invents = 0 := by
  obtain ⟨again, reread, same, fixed⟩ := (Stability.check_accepts_iff _ _ _ _).1 accepted
  have first := watch_fingerprints config.sortAttributes (whole_of_parse parsed).2
  have second := watch_fingerprints config.sortAttributes (whole_of_parse reread).2
  rw [same, second] at first
  have counts := congrArg Mark.Watch.count first
  rw [← invents_nothing_of_fixed unsorted reread fixed]
  exact counts.symm

namespace Document

/-- Whether every registered directive of a template is spelled as registered. -/
def cased (document : Document) : Bool :=
  (Node.walkAll document.children).all fun node =>
    match node with
    | .directive directive => !directive.registered || directive.writtenName = directive.name
    | _ => true

/-- The ink that printing leaves out: what stands between the names and the brackets of the end tags
that are printed from their parts. -/
def lost (document : Document) : Chars :=
  (Node.builtAll document.children).flatMap (Node.dropped document.source)

/-- Directives that are spelled as registered keep their names. -/
theorem respelled_of_cased {document : Document} (cased : document.cased = true) (page : Page) :
    (((Node.builtAll document.children).flatMap page.respelled).flatMap Directive.writtenName) =
      (((Node.builtAll document.children).flatMap page.respelled).flatMap Directive.name) := by
  rw [List.flatMap_def, List.flatMap_def]
  refine congrArg List.flatten (List.map_congr_left ?_)
  intro directive member
  obtain ⟨node, inNodes, found⟩ := List.mem_flatMap.1 member
  obtain ⟨rfl, registered⟩ := Page.of_mem_respelled found
  have inTree := Node.mem_walkAll_of_mem_builtAll document.children _ inNodes
  have spelled := List.all_eq_true.1 cased _ inTree
  simpa [registered] using spelled

end Document

/-- Whether the registered directives of a template, if it can be read, are spelled as
registered. -/
def Config.spells (config : Config) (file : Option String) (source : Chars) : Bool :=
  match (parse config.dialect file source).outcome with
  | .ok document => document.cased
  | .error _ => true

/-- A result that passed the check holds the ink of its template, but for what its end tags hold
after their names: nothing else goes, and nothing is new. So the two have the same ink exactly when
no end tag holds more than its name. -/
theorem format_keeps_ink (config : Config) (file : Option String) (source : Chars)
    (guarded : config.checkIdempotence = true) (unsorted : config.sortAttributes = false)
    (spelled : config.spells file source = true)
    (passed : (format config file source).failed = false) :
    ∃ document, (parse config.dialect file source).outcome = .ok document ∧
      (squeeze source).Perm (squeeze (format config file source).text ++ document.lost) ∧
      ((squeeze (format config file source).text).Perm (squeeze source) ↔ document.lost = []) := by
  rcases format_cases config file source with ⟨error, _, outcome⟩ |
    ⟨document, violation, _, _, _, outcome⟩ | ⟨document, parsed, checked, outcome⟩
  · rw [outcome, failed_fallback] at passed
    cases passed
  · rw [outcome, failed_fallback] at passed
    cases passed
  have cased : document.cased = true := by
    rw [Config.spells, parsed] at spelled
    exact spelled
  -- The guard has accepted the result, so no end tag was invented.
  have nothingNew : (Node.builtAll document.children).flatMap Node.invented = [] := by
    have none := List.countP_eq_zero.1
      (invents_nothing_of_accepted unsorted parsed (checked guarded))
    rw [List.flatMap_eq_nil_iff]
    intro node member
    exact Node.invented_of_not_invents (by simpa using none node member)
  have kept : (squeeze source).Perm (squeeze (render config document) ++ document.lost) := by
    rw [List.perm_iff_count]
    intro c
    rw [List.count_append]
    -- White space is on neither side; every other character is balanced.
    cases blank : isBlank c with
    | true =>
      have squeezed (text : Chars) : (squeeze text).count c = 0 := by
        rw [List.count_eq_zero]
        intro member
        simpa [blank] using (List.mem_filter.1 member).2
      have lost : document.lost.count c = 0 := by
        rw [List.count_eq_zero]
        intro member
        obtain ⟨node, _, found⟩ := List.mem_flatMap.1 member
        rw [Node.inked_of_mem_dropped found] at blank
        cases blank
      rw [squeezed, squeezed, lost]
    | false =>
      have balanced := balance_render unsorted parsed blank
      unfold Balanced at balanced
      rw [nothingNew, Document.respelled_of_cased cased] at balanced
      rw [count_squeeze blank source]
      unfold Document.lost
      rw [source_of_parse parsed]
      simp only [List.count_nil] at balanced
      omega
  have printed : (format config file source).text = render config document := by rw [outcome]
  rw [printed]
  refine ⟨document, parsed, kept, ?_⟩
  constructor
  · intro same
    have lengths := (kept.symm.trans same.symm).length_eq
    rw [List.length_append] at lengths
    exact List.eq_nil_of_length_eq_zero (by omega)
  · intro nothing
    rw [nothing, List.append_nil] at kept
    exact kept.symm

/-- The word after the name in the end tag of `<div>x</div foo>` is lost, and the result passes. -/
theorem format_keeps_ink_endTag :
    Config.spells {} none "<div>\nx\n</div foo>\n".toList = true ∧
    (format {} none "<div>\nx\n</div foo>\n".toList).failed = false ∧
    (format {} none "<div>\nx\n</div foo>\n".toList).text = "<div>\n    x\n</div>\n".toList ∧
    ∃ document, (parse (Config.dialect {}) none "<div>\nx\n</div foo>\n".toList).outcome =
        .ok document ∧
      (squeeze "<div>\nx\n</div foo>\n".toList).Perm
        (squeeze (format {} none "<div>\nx\n</div foo>\n".toList).text ++ document.lost) ∧
      ((squeeze (format {} none "<div>\nx\n</div foo>\n".toList).text).Perm
        (squeeze "<div>\nx\n</div foo>\n".toList) ↔ document.lost = []) := by
  have spelled : Config.spells {} none "<div>\nx\n</div foo>\n".toList = true := by decide +kernel
  have passed : (format {} none "<div>\nx\n</div foo>\n".toList).failed = false := by
    decide +kernel
  exact ⟨spelled, passed, by decide +kernel, format_keeps_ink {} none _ rfl rfl spelled passed⟩

end BladeTemplate
