import BladeTemplate.Proofs.Composed
import BladeTemplate.Proofs.Verdict

/-!
# The canonical layout of drafts

Formatting a draft gives its canonical layout: every construct on lines of its own, indented by its
depth, with as many blank lines between the items of a scope as are kept.

* `Draft.tidy_tidy` says that the canonical layout is its own canonical layout;
* `parse_draft` is the tree of a draft, whatever its layout;
* `format_canonical_layout` is the result. It has one exception: lines between dashes at the start
  of a template can be front matter, which is kept as it is.
-/

namespace BladeTemplate

open Text

/-! ## The canonical layout as a draft -/

namespace Config

/-- Of the blank lines that were kept all are kept. -/
theorem kept_kept (config : Config) (opened : Bool) (passed : Nat) :
    config.kept opened (config.kept opened passed) = config.kept opened passed := by
  unfold kept
  cases opened with
  | false => rfl
  | true =>
    simp only [if_true]
    omega

end Config

namespace Draft

variable {config : Config} {depth : Nat} {opened : Bool}

theorem tidy_spaced (count passed : Nat) (draft : Draft) :
    (spaced count draft).tidy config depth opened passed =
      draft.tidy config depth opened (passed + count) := by
  induction count generalizing passed with
  | zero => rfl
  | succ count ih =>
    rw [spaced, tidy, ih]
    congr 1
    omega

/-- The canonical layout is its own canonical layout. -/
theorem tidy_tidy (draft : Draft) (passed : Nat) :
    (draft.tidy config depth opened passed).tidy config depth opened 0 =
      draft.tidy config depth opened passed := by
  induction draft generalizing depth opened passed with
  | done => rfl
  | blank space rest ih => exact ih (passed + 1)
  | text margin phrase rest ih =>
    simp only [tidy, tidy_spaced, Nat.zero_add, config.kept_kept, ih]
  | echo margin braced rest ih =>
    simp only [tidy, tidy_spaced, Nat.zero_add, config.kept_kept, ih]
    rfl
  | otherwise margin rest ih => simp only [tidy, ih]
  | element start tag inside stop rest ihInside ih =>
    simp only [tidy, tidy_spaced, Nat.zero_add, config.kept_kept, ihInside, ih]
  | block start opening inside stop rest ihInside ih =>
    simp only [tidy, tidy_spaced, Nat.zero_add, config.kept_kept, ihInside, ih]
    rfl

theorem filled_spaced (count : Nat) (draft : Draft) :
    (spaced count draft).filled = draft.filled := by
  induction count with
  | zero => rfl
  | succ count ih => exact ih

theorem placed_spaced (branches : Bool) (count : Nat) (draft : Draft) :
    (spaced count draft).placed branches = draft.placed branches := by
  induction count with
  | zero => rfl
  | succ count ih => exact ih

theorem filled_tidy (draft : Draft) (passed : Nat) :
    (draft.tidy config depth opened passed).filled = draft.filled := by
  induction draft generalizing passed with
  | blank space rest ih => exact ih (passed + 1)
  | done | otherwise => rfl
  | text | echo | element | block =>
    rw [tidy, filled_spaced]
    rfl

theorem placed_tidy (draft : Draft) (branches : Bool) (passed : Nat) :
    (draft.tidy config depth opened passed).placed branches = draft.placed branches := by
  induction draft generalizing branches depth opened passed with
  | done => rfl
  | blank space rest ih => exact ih branches (passed + 1)
  | text _ _ _ ih | echo _ _ _ ih =>
    rw [tidy, placed_spaced]
    exact ih branches 0
  | otherwise _ _ ih => rw [tidy, placed, placed, ih]
  | element _ _ _ _ _ ihInside ih =>
    rw [tidy, placed_spaced, placed, placed, filled_tidy, ihInside, ih]
  | block _ _ _ _ _ ihInside ih =>
    rw [tidy, placed_spaced, placed, placed, ihInside, ih]
    rfl

/-- The flow of the template. -/
theorem text_flow_source (draft : Draft) : (draft.flow none []).text = draft.source :=
  draft.text_flow none []

/-- The flow of the canonical text. -/
theorem text_flow_canonical (config : Config) (draft : Draft) :
    ((draft.tidy config 0 false 0).flow (some .none) []).text = draft.canonical config := by
  rw [text_flow]
  simp [finish, Space.none, canonical]

end Draft

/-! ## Reading -/

namespace Flow

/-- A flow that something may follow is also one that ends the template. -/
theorem Readable.unfollowed {flow : Flow} {fresh : Bool} (readable : flow.Readable fresh true) :
    flow.Readable fresh false := by
  induction flow generalizing fresh with
  | plain gap => exact ⟨readable.plain, readable.starts, by simp, by simp⟩
  | echo gap braced rest ih | otherwise gap rest ih => exact ⟨readable.1, ih readable.2⟩
  | element gap tag inside rest _ ih | block gap opening inside rest _ ih =>
    exact ⟨readable.1, readable.2.1, ih readable.2.2⟩

end Flow

/-- The tree of a draft is the one of its flow, and prints as the canonical layout. -/
theorem parse_draft (config : Config) (structural : config.activeRegistry.Structural)
    (file : Option String) {draft : Draft} (placed : draft.placed false = true)
    (final : Option Space)
    (noFrontMatter : config.frontMatter = true →
      Lookahead.frontMatterLength (draft.flow final []).text = none) :
    ∃ document, (parse config.dialect file (draft.flow final []).text).outcome = .ok document ∧
      document.diagnostics = [] ∧ (draft.flow final []).Builds document.children ∧
      render config document = draft.canonical config := by
  have readable : (draft.flow final []).Readable true false := by
    have known := draft.readable_flow .start final
    cases final with
    | none => exact known
    | some lead => exact known.unfollowed
  obtain ⟨document, parsed, quiet, builds⟩ := @exists_parse config.dialect structural file _ readable
    (Draft.branched_flow placed final []) noFrontMatter
  have whole := (whole_of_parse parsed).2
  rw [← source_of_parse parsed] at whole
  exact ⟨document, parsed, quiet, builds, render_draft config placed builds whole⟩

/-! ## Formatting -/

theorem Document.map_fingerprints (document : Document) (sort : Bool) :
    (document.fingerprints sort).map (·.2) =
      (Node.outline sort document.children).map Mark.join := by
  simp [fingerprints, Node.outline, Node.fingerprint, Function.comp_def]

/-- The canonical layout is stable: it reads back as a tree with the same outline, which prints as
itself. -/
theorem check_canonical (config : Config) (structural : config.activeRegistry.Structural)
    (file : Option String) {draft : Draft} (placed : draft.placed false = true)
    {document : Document} (builds : (draft.flow none []).Builds document.children)
    (noFrontMatter : config.frontMatter = true →
      Lookahead.frontMatterLength (draft.canonical config) = none) :
    (Stability.check config config document file (draft.canonical config)).verdict = .ok () := by
  rw [← draft.text_flow_canonical config] at noFrontMatter
  obtain ⟨again, parsed, _, buildsAgain, rendered⟩ := parse_draft config structural file
    ((draft.placed_tidy false 0).trans placed) (some .none) noFrontMatter
  rw [draft.text_flow_canonical config] at parsed
  refine (Stability.check_accepts_iff config document file _).2 ⟨again, parsed, ?_, ?_⟩
  · rw [document.map_fingerprints, again.map_fingerprints, builds.outline, buildsAgain.outline,
      draft.outline_tidy config .start .start rfl 0 false 0 none (some .none)]
  · rw [rendered, Draft.canonical, Draft.tidy_tidy, Draft.canonical]

/-- A draft is formatted to its canonical layout, without a diagnostic. If front matter is kept,
neither the template nor, as far as it is read back, its canonical layout may start with any. -/
theorem format_canonical_layout (config : Config) (file : Option String) (draft : Draft)
    (placed : draft.placed false = true) (structural : config.activeRegistry.Structural)
    (noFrontMatter : config.frontMatter = true →
      Lookahead.frontMatterLength draft.source = none ∧
        (config.checkIdempotence = true →
          Lookahead.frontMatterLength (draft.canonical config) = none)) :
    format config file draft.source =
      ⟨draft.canonical config, [], draft.canonical config ≠ draft.source⟩ := by
  obtain ⟨document, parsed, quiet, builds, rendered⟩ := parse_draft config structural file placed none
    fun kept => draft.text_flow_source ▸ (noFrontMatter kept).1
  rw [draft.text_flow_source] at parsed
  have same {other : Document}
      (found : (parse config.dialect file draft.source).outcome = .ok other) : document = other := by
    rw [parsed] at found
    injection found
  rcases format_cases config file draft.source with ⟨error, failed, _⟩ |
    ⟨other, violation, found, guarded, refused, _⟩ | ⟨other, found, _, formatted⟩
  · rw [parsed] at failed
    cases failed
  · obtain rfl := same found
    -- The guard does not refuse what is stable.
    have accepted := check_canonical config structural file placed builds fun kept =>
      (noFrontMatter kept).2 guarded
    rw [rendered, accepted] at refused
    cases refused
  · obtain rfl := same found
    rw [formatted, rendered, quiet]

/-- The built-in registry has the directives of drafts. -/
theorem Registry.structural_builtin : Registry.builtin.Structural := by
  refine ⟨?_, ?_, ?_⟩
  · intro keyword
    cases keyword <;> decide +kernel
  · intro keyword
    cases keyword <;> decide +kernel
  · decide +kernel

/-- A block with two branches, in a layout of its own. -/
def Draft.greeting : Draft :=
  .block ⟨⟨['\t'], forall_of_all (by decide)⟩, .one⟩
    ⟨.condition, [], "$a".toList, by simp, by decide, forall_of_all (by decide)⟩
    (.blank .none
      (.element ⟨.none, .none⟩
        ⟨['p'], forall_of_all (by decide), by decide, by decide +kernel, by decide +kernel⟩
        (.echo ⟨.one, .none⟩
          ⟨.none, "$b".toList, .one, by decide, by decide, forall_of_all (by decide), by decide⟩
          (.blank .one (.blank .none (.text ⟨.none, .one⟩
            ⟨"Hello there".toList, by decide, by decide, forall_of_all (by decide)⟩ .done))))
        ⟨.one, .none⟩
        (.otherwise ⟨.none, .none⟩ (.blank .one .done))))
    ⟨.one, .none⟩ .done

theorem format_canonical_layout_greeting :
    format .default none
        "\t@if($a) \n\n<p>\n {{$b }}\n \n\nHello there \n </p>\n@else\n \n @endif".toList =
      ⟨"@if ($a)\n    <p>\n        {{ $b }}\n\n        Hello there\n    </p>\n@else\n@endif\n".toList,
        [], true⟩ := by
  have source : Draft.greeting.source =
      "\t@if($a) \n\n<p>\n {{$b }}\n \n\nHello there \n </p>\n@else\n \n @endif".toList := by
    decide +kernel
  have canonical : Draft.greeting.canonical .default =
      "@if ($a)\n    <p>\n        {{ $b }}\n\n        Hello there\n    </p>\n@else\n@endif\n".toList := by
    decide +kernel
  have formatted := format_canonical_layout .default none Draft.greeting (by decide)
    Registry.structural_builtin (by decide +kernel)
  rw [canonical, source] at formatted
  exact formatted.trans (by decide)

/-- Lines that are front matter only once they are laid out. -/
def Draft.dashes : Draft :=
  .text ⟨.one, .none⟩ ⟨"---".toList, by decide, by decide, forall_of_all (by decide)⟩
    (.text ⟨.none, .none⟩ ⟨"a".toList, by decide, by decide, forall_of_all (by decide)⟩
      (.text ⟨.none, .none⟩ ⟨"---".toList, by decide, by decide, forall_of_all (by decide)⟩ .done))

/-- A draft that would become front matter is refused, and one whose directives are not registered
is not laid out. -/
theorem format_draft_exceptions :
    Draft.dashes.placed false = true ∧ Draft.dashes.source = " ---\na\n---".toList ∧
      Draft.dashes.canonical .default = "---\na\n---\n".toList ∧
      (format .default none Draft.dashes.source).text = Draft.dashes.source ∧
      (format .default none Draft.dashes.source).failed = true ∧
      Draft.greeting.placed false = true ∧
      (format { registry := some ⟨[.opener "panel"]⟩ } none Draft.greeting.source).text ≠
        Draft.greeting.canonical { registry := some ⟨[.opener "panel"]⟩ } := by
  decide +kernel

end BladeTemplate
