import BladeTemplate.Proofs.Fallback
import BladeTemplate.Proofs.Notes
import BladeTemplate.Proofs.Positions
import BladeTemplate.Proofs.Simulation
import Mathlib.Data.List.Pairwise

/-!
# Markup never influences pairing

The directives of a tree are paired as if no markup stood around them. What they come to is read off
the tree by their positions in the template, and is what the machine on families gives for the calls
alone.

* `Document.pairings` reads off a tree what each of its directives came to, position by position;
* `pairings_of_parse` is the result for one template, `same_pairings` for two with the same
  directives.
-/

namespace BladeTemplate

open Text PairingMachine

/-- What each directive of a template came to, in the order of the template, and what is said about
those that are unmatched. Openers are known by their position among the directives. -/
structure Pairings where
  occurrences : List (Occurrence Nat)
  messages : List String
  deriving DecidableEq, Repr

/-- The pairings of a tree. -/
def Document.pairings (document : Document) : Pairings :=
  let found := (document.toNode.walk.flatMap Node.occurrences).mergeSort fun first second =>
    first.1.offset ≤ second.1.offset
  let position (location : Location) := (found.map (·.1)).idxOf location
  { occurrences := found.map fun fact => fact.2.map position
    messages :=
      (document.diagnostics.filter (·.code = .unmatchedDirective)).map (·.message) }

/-- The pairings that the machine on families gives, knowing nothing but the directives. -/
def Pairings.ofCalls (registry : Registry) (calls : List Call) : Pairings :=
  let entries := (PairingMachine.run registry ((List.range calls.length).zip calls)).mergeSort
    fun first second => first.label ≤ second.label
  { occurrences := entries.map (·.occurrence)
    messages := entries.filterMap (·.complaint) }

/-! ## Whole trees -/

/-- A list that is sorted is what sorting gives, in whatever order its members come. -/
theorem mergeSort_of_perm {α : Type} {le : α → α → Bool}
    (trans : ∀ a b c, le a b = true → le b c = true → le a c = true)
    (total : ∀ a b, (le a b || le b a) = true) {found sorted : List α}
    (perm : found.Perm sorted)
    (ordered : sorted.Pairwise fun a b => le a b = true ∧ le b a = false) :
    found.mergeSort le = sorted := by
  have merged := (List.mergeSort_perm found le).trans perm
  refine List.Perm.eq_of_pairwise ?_ (List.pairwise_mergeSort trans total found)
    (ordered.imp And.left) merged
  intro a b inMerged inSorted ab ba
  by_cases same : a = b
  · exact same
  · let Apart (x y : α) : Prop :=
      (le x y = true ∧ le y x = false) ∨ (le y x = true ∧ le x y = false)
    have symmetric : Std.Symm Apart := ⟨fun _ _ => Or.symm⟩
    have apart : sorted.Pairwise Apart := ordered.imp Or.inl
    have either := apart.forall (merged.mem_iff.1 inMerged) inSorted same
    simp [Apart, ab, ba] at either

/-- The same for sorting by a number. -/
theorem mergeSort_by {α : Type} (key : α → Int) {found sorted : List α} (perm : found.Perm sorted)
    (ordered : sorted.Pairwise fun a b => key a < key b) :
    found.mergeSort (fun a b => decide (key a ≤ key b)) = sorted := by
  refine mergeSort_of_perm ?_ ?_ perm (ordered.imp fun less => ?_)
  · simp only [decide_eq_true_eq]
    omega
  · simp only [Bool.or_eq_true, decide_eq_true_eq]
    omega
  · simp only [decide_eq_true_eq, decide_eq_false_iff_not]
    omega

/-- One of two diagnostics stands strictly before the other. -/
theorem Diagnostic.notAfter_of_before {a b : Diagnostic}
    (before : a.line < b.line ∨ (a.line = b.line ∧ a.column < b.column)) :
    a.notAfter b = true ∧ b.notAfter a = false := by
  simp only [notAfter, Bool.or_eq_true, Bool.and_eq_true, decide_eq_true_eq, Bool.or_eq_false_iff,
    Bool.and_eq_false_iff, decide_eq_false_iff_not]
  omega

/-- Positions among distinct things. -/
theorem map_idxOf {α : Type} [DecidableEq α] {xs : List α} (distinct : xs.Nodup) :
    xs.map xs.idxOf = List.range xs.length := by
  refine List.ext_getElem (by simp) ?_
  intro n bound _
  rw [List.getElem_map, List.getElem_range]
  exact distinct.idxOf_getElem n (by simpa using bound)

/-- Nothing that the reader reports is about unmatched directives. -/
theorem filter_scan (dialect : Dialect) (source : Chars)
    (read : (scan dialect source).fault = none) :
    (scan dialect source).diagnostics.filter (·.code = .unmatchedDirective) = [] := by
  refine List.filter_eq_nil_iff.2 fun diagnostic member => ?_
  have noticed := List.mem_map_of_mem (f := Diagnostic.notice) member
  rw [notices_scan dialect source read] at noticed
  obtain ⟨note, _, reported⟩ := List.mem_flatMap.1 noticed
  have code : diagnostic.notice.code = .unknownDirective ∨
      diagnostic.notice.code = .ambiguousAttribute := by
    cases note with
    | directive line column name arguments =>
      simp only [Note.report] at reported
      split at reported
      · rw [List.mem_singleton.1 reported]
        exact .inl rfl
      · cases reported
    | ambiguous line column =>
      rw [List.mem_singleton.1 reported]
      exact .inr rfl
  have same : diagnostic.code = diagnostic.notice.code := rfl
  rcases code with unknown | ambiguous
  · simp [same, unknown]
  · simp [same, ambiguous]

/-- The call of a note that is about a directive. -/
def Note.call? : Note → Option Call
  | .directive _ _ name arguments => some ⟨name, arguments⟩
  | .ambiguous _ _ => none

theorem Call.ofTokens_eq (registry : Registry) (tokens : List Token) :
    (Note.ofTokens registry tokens).filterMap Note.call? = ofTokens tokens := by
  induction tokens with
  | nil => rfl
  | cons token rest ih =>
    rw [Note.ofTokens, List.filterMap_append, ih, ofTokens]
    unfold Note.ofToken
    split
    · next kind =>
      rw [if_pos kind]
      rfl
    · next kind =>
      have other : token.kind ≠ .directiveName := by simp [kind]
      rw [if_neg other]
      split <;> rfl
    · next other _ =>
      rw [if_neg other]
      rfl

theorem Item.calls_eq (items : List Item) :
    (items.flatMap Item.notes).filterMap Note.call? = (items.filterMap Item.call?).map (·.2) := by
  induction items with
  | nil => rfl
  | cons item rest ih =>
    rw [List.flatMap_cons, List.filterMap_append, ih]
    cases item with
    | directive read => rfl
    | startTag kind markup =>
      have none : (markup.attributes.flatMap Attribute.notes).filterMap Note.call? = [] := by
        rw [List.filterMap_eq_nil_iff]
        intro note member
        obtain ⟨entry, _, inEntry⟩ := List.mem_flatMap.1 member
        unfold Attribute.notes at inEntry
        split at inEntry
        · rw [List.mem_singleton.1 inEntry]
          rfl
        · cases inEntry
      rw [Item.notes, none]
      rfl
    | _ => rfl

/-- The calls of a template are those among its tokens, and its directives stand in their order. -/
theorem calls_of_scan (dialect : Dialect) (file : Option String) (source : Chars)
    (read : (scan dialect source).fault = none) {calls : List (Location × Call)}
    (items : (Item.ofTokens ⟨dialect.registry, file, source⟩ (scan dialect source).tokens).filterMap
      Item.call? = calls) :
    calls.map (·.2) = Call.ofTokens (scan dialect source).tokens ∧
      (calls.map (·.1)).Pairwise Location.Precedes := by
  subst items
  refine ⟨?_, ?_⟩
  · rw [← Item.calls_eq, notes_ofTokens dialect file source read, Call.ofTokens_eq]
  · have locations (items : List Item) : (items.filterMap Item.call?).map (·.1) =
        (items.filterMap Item.directive?).map (·.location) := by
      rw [List.map_filterMap, List.map_filterMap]
      congr 1
      funext item
      cases item <;> rfl
    rw [locations, List.pairwise_map]
    exact directives_precede dialect file source read

/-- The directives of a tree, and those that are settled when its items have been matched. -/
theorem occurrences_toNode (document : Document) :
    (document.toNode.walk.flatMap Node.occurrences).Perm
      ((Node.parts document.children).flatMap Node.occurrences ++
        document.children.flatMap (Node.standing none)) := by
  rw [Node.flatMap_parts fun _ _ => rfl, Document.toNode, Node.walk, List.flatMap_cons]
  exact List.perm_append_comm

section run

variable {registry : Registry} {calls : List (Location × Call)} {entries : List (Entry Location)}

/-- The settled directives in the order of the template. -/
theorem exists_entries_inOrder (registry : Registry)
    (precede : (calls.map (·.1)).Pairwise Location.Precedes) :
    ∃ entries : List (Entry Location), entries.Perm (run registry calls) ∧
      entries.map (·.label) = calls.map (·.1) := by
  refine ⟨_, List.mergeSort_perm _ fun a b => decide (a.label.offset ≤ b.label.offset), ?_⟩
  rw [List.map_mergeSort (s := fun a b : Location => decide (a.offset ≤ b.offset))
    (fun _ _ _ _ => rfl)]
  exact mergeSort_by (·.offset) (labels_run registry calls)
    (precede.imp fun before => before.offset)

/-- The machine gives the same entries when the directives are known by their positions. -/
theorem run_positions (precede : (calls.map (·.1)).Pairwise Location.Precedes)
    (perm : entries.Perm (run registry calls))
    (labels : entries.map (·.label) = calls.map (·.1)) :
    (run registry ((List.range calls.length).zip (calls.map (·.2)))).mergeSort
      (fun first second => decide (first.label ≤ second.label)) =
      entries.map (Entry.map (calls.map (·.1)).idxOf) := by
  have distinct : (calls.map (·.1)).Nodup := by
    refine precede.imp fun before same => ?_
    rw [same] at before
    exact Int.lt_irrefl _ before.offset
  let position := (calls.map (·.1)).idxOf
  have positions : (calls.map (·.1)).map position = List.range calls.length := by
    rw [map_idxOf distinct, List.length_map]
  have numbered : run registry ((List.range calls.length).zip (calls.map (·.2))) =
      (run registry calls).map (Entry.map position) := by
    rw [run_map, ← positions, List.map_map, List.zip_map']
    rfl
  have ranked : (entries.map (Entry.map position)).Pairwise fun first second =>
      (first.label : Int) < second.label := by
    have increasing : (entries.map fun entry => position entry.label).Pairwise (· < ·) := by
      have same : (entries.map fun entry => position entry.label) = List.range calls.length := by
        rw [← positions, ← labels, List.map_map]
        rfl
      rw [same]
      exact List.pairwise_lt_range
    rw [List.pairwise_map] at increasing ⊢
    exact increasing.imp Int.ofNat_lt.2
  rw [numbered]
  have merged := mergeSort_by (fun entry : Entry Nat => (entry.label : Int))
    (perm.symm.map (Entry.map position)) ranked
  simpa only [Int.ofNat_le] using merged

/-- What is said about unmatched directives is said in their order. -/
theorem complaints_inOrder {diagnostics : List Diagnostic}
    (inOrder : entries.Pairwise fun a b => a.label.Precedes b.label)
    (sorted : diagnostics.Pairwise fun a b => a.notAfter b = true)
    (complaints : (diagnostics.filter (·.code = .unmatchedDirective)).Perm
      (entries.filterMap Entry.diagnostic?)) :
    diagnostics.filter (·.code = .unmatchedDirective) = entries.filterMap Entry.diagnostic? := by
  rw [← List.mergeSort_of_pairwise (sorted.filter _)]
  refine mergeSort_of_perm Diagnostic.notAfter_trans Diagnostic.notAfter_total complaints
    (inOrder.filterMap _ ?_)
  intro first second before one isOne other isOther
  obtain ⟨_, _, rfl⟩ := Option.map_eq_some_iff.1 isOne
  obtain ⟨_, _, rfl⟩ := Option.map_eq_some_iff.1 isOther
  exact Diagnostic.notAfter_of_before before.position

/-- The pairings of a tree whose directives came to what the machine says. -/
theorem pairings_eq {document : Document}
    (precede : (calls.map (·.1)).Pairwise Location.Precedes)
    (facts : (document.toNode.walk.flatMap Node.occurrences).Perm
      ((run registry calls).map Entry.fact))
    (sorted : document.diagnostics.Pairwise fun a b => a.notAfter b = true)
    (complaints : (document.diagnostics.filter (·.code = .unmatchedDirective)).Perm
      ((run registry calls).filterMap Entry.diagnostic?)) :
    document.pairings = .ofCalls registry (calls.map (·.2)) := by
  obtain ⟨entries, perm, labels⟩ := exists_entries_inOrder registry precede
  have inOrder := precede
  rw [← labels, List.pairwise_map] at inOrder
  have found : (document.toNode.walk.flatMap Node.occurrences).mergeSort
      (fun first second => decide (first.1.offset ≤ second.1.offset)) =
      entries.map Entry.fact :=
    mergeSort_by (·.1.offset) (facts.trans (perm.symm.map _))
      (List.pairwise_map.2 (inOrder.imp fun before => before.offset))
  have expected := run_positions precede perm labels
  have said := complaints_inOrder inOrder sorted (complaints.trans (perm.symm.filterMap _))
  unfold Document.pairings Pairings.ofCalls
  simp only [List.length_map, found, expected, said, List.map_map, List.map_filterMap,
    List.filterMap_map]
  congr 1
  · refine List.map_congr_left fun entry _ => ?_
    show entry.occurrence.map _ = entry.occurrence.map (calls.map (·.1)).idxOf
    rw [show entries.map ((·.1) ∘ Entry.fact) = calls.map (·.1) from labels]
  · congr 1
    funext entry
    cases complaint : entry.complaint <;>
      simp [Entry.diagnostic?, Entry.map, complaint, Diagnostic.warning, Diagnostic.placed]

end run

/-- The directives of every template that can be read come to what the machine on families says,
whatever stands around them. -/
theorem pairings_of_parse (dialect : Dialect) (file : Option String) (source : Chars)
    (read : (scan dialect source).fault = none) :
    ∃ document, (parse dialect file source).outcome = .ok document ∧
      document.pairings =
        .ofCalls dialect.registry (Call.ofTokens (scan dialect source).tokens) := by
  obtain ⟨document, parsed⟩ := parse_of_read file read
  have sorted := pairwise_parse parsed
  refine ⟨document, parsed, ?_⟩
  obtain ⟨calls, precede⟩ := calls_of_scan dialect file source read rfl
  have gains := Builder.gains_build dialect.registry
    (Item.unsettled_of_mem ⟨dialect.registry, file, source⟩ (scan dialect source).tokens)
  have reported := filter_scan dialect source read
  have frames := Builder.frames_build dialect.registry
    (Item.ofTokens ⟨dialect.registry, file, source⟩ (scan dialect source).tokens)
  unfold parse at parsed
  simp only [read, Except.ok.injEq] at parsed
  subst parsed
  rw [← calls]
  refine pairings_eq precede ?_ sorted ?_
  · refine (occurrences_toNode _).trans ?_
    have settled := gains.occurrences
    unfold FrameStack.occurrences FrameStack.finished at settled
    rw [frames] at settled
    simpa [Body.children, Node.parts, Node.walkAll] using settled
  · refine ((List.mergeSort_perm _ _).filter _).trans ?_
    rw [List.filter_append, reported, List.append_nil]
    exact .of_eq gains.complaints

/-- Two templates with the same directives have the same pairings, those of the machine on families,
whatever text, echoes, tags, comments and regions stand around the directives. -/
theorem same_pairings (first second : Dialect) (registry : first.registry = second.registry)
    (file other : Option String) (source twin : Chars)
    (read : (scan first source).fault = none) (readTwin : (scan second twin).fault = none)
    (calls : Call.ofTokens (scan first source).tokens = Call.ofTokens (scan second twin).tokens) :
    ∃ document image, (parse first file source).outcome = .ok document ∧
      (parse second other twin).outcome = .ok image ∧ document.pairings = image.pairings ∧
      document.pairings = .ofCalls first.registry (Call.ofTokens (scan first source).tokens) := by
  obtain ⟨document, parsed, pairings⟩ := pairings_of_parse first file source read
  obtain ⟨image, parsedTwin, same⟩ := pairings_of_parse second other twin readTwin
  refine ⟨document, image, parsed, parsedTwin, ?_, pairings⟩
  rw [pairings, same, registry, calls]

/-- Elements that are left open, end tags that close nothing and a void tag, and the same directives
with nothing around them. -/
theorem same_pairings_without_markup :
    let source := "@if($a)<div>@foreach($b)<br></p>@else</div>{{ $c }}@endif<li>@else".toList
    let twin := "@if ($a) @foreach ($b) @else @endif @else".toList
    let dialect := Config.dialect {}
    (scan dialect source).fault = none ∧ (scan dialect twin).fault = none ∧
    Call.ofTokens (scan dialect source).tokens = Call.ofTokens (scan dialect twin).tokens ∧
    ∃ document image, (parse dialect none source).outcome = .ok document ∧
      (parse dialect none twin).outcome = .ok image ∧ document.pairings = image.pairings ∧
      document.pairings =
        .ofCalls dialect.registry (Call.ofTokens (scan dialect source).tokens) := by
  intro source twin dialect
  have read : (scan dialect source).fault = none := by decide +kernel
  have readTwin : (scan dialect twin).fault = none := by decide +kernel
  have calls : Call.ofTokens (scan dialect source).tokens =
      Call.ofTokens (scan dialect twin).tokens := by decide +kernel
  exact ⟨read, readTwin, calls,
    same_pairings dialect dialect rfl none none source twin read readTwin calls⟩

end BladeTemplate
