import BladeTemplate.Format

/-!
# Printing does not depend on the check

Whether results are checked is no matter of layout: a page under a configuration that leaves results
unchecked is laid out and printed like any other.

* `Page.isInline_unchecked` carries this through the layout decisions;
* `Page.print_unchecked` carries it through printing;
* `render_unchecked` is the statement for whole templates.
-/

namespace BladeTemplate

/-- The same configuration with results left unchecked. -/
def Config.unchecked (config : Config) : Config :=
  { config with checkIdempotence := false }

namespace Page

/-- The same page under a configuration that leaves results unchecked. -/
def unchecked (page : Page) : Page :=
  { page with config := page.config.unchecked }

mutual

theorem isInline_unchecked (page : Page) (level : Nat) :
    (node : Node) → page.unchecked.isInline level node = page.isInline level node
  | .text .. | .echo .. | .comment .. | .region .. | .endTag .. | .directive .. => by
    simp only [isInline]
  | .attr .. | .document .. => by
    simp only [isInline]
    rfl
  | .block _ _ _ children _ _ => by
    simp only [isInline, allInline_unchecked page level children]
    rfl
  | .element _ _ children => by
    simp only [isInline, allInline_unchecked page level children]
    rfl
  | .component _ slots children => by
    simp only [isInline, allInline_unchecked page level slots,
      allInline_unchecked page level children]
    rfl
  | .slot _ _ children => by
    simp only [isInline, allInline_unchecked page level children]
    rfl

theorem allInline_unchecked (page : Page) (level : Nat) :
    (nodes : List Node) → page.unchecked.allInline level nodes = page.allInline level nodes
  | [] => rfl
  | node :: rest => by
    rw [allInline, allInline, isInline_unchecked page level node,
      allInline_unchecked page level rest]

end

theorem printLabels_unchecked (page : Page) (inBranch : Bool) (pieces : List Piece) (out : Lines) :
    page.unchecked.printLabels inBranch pieces out = page.printLabels inBranch pieces out := by
  induction pieces generalizing inBranch out with
  | nil => rfl
  | cons piece rest ih =>
    unfold printLabels
    split
    · exact ih _ _
    · exact ih _ _

theorem printBlock_unchecked (page : Page) : page.unchecked.printBlock = page.printBlock := by
  funext inline opener closer indentsMiddles pieces out
  unfold printBlock
  simp only [printLabels_unchecked]
  rfl

theorem printMarkup_unchecked (page : Page) : page.unchecked.printMarkup = page.printMarkup := by
  funext markup void slots children out
  unfold printMarkup
  simp only [allInline_unchecked]
  rfl

mutual

theorem print_unchecked (page : Page) :
    (node : Node) → page.unchecked.print node = page.print node
  | .text .. | .echo .. | .comment .. | .region .. | .endTag .. => by
    simp only [print]
  | .directive .. | .attr .. | .document .. => by
    simp only [print]
    rfl
  | .block _ _ _ children _ _ => by
    funext out
    simp only [print, pieces_unchecked page children, isInline_unchecked, printBlock_unchecked]
    rfl
  | .element _ _ children => by
    funext out
    simp only [print, pieces_unchecked page children, printMarkup_unchecked]
    rfl
  | .component _ slots children => by
    simp only [print, pieces_unchecked page slots, pieces_unchecked page children,
      printMarkup_unchecked]
  | .slot _ _ children => by
    simp only [print, pieces_unchecked page children, printMarkup_unchecked]

theorem pieces_unchecked (page : Page) :
    (nodes : List Node) → page.unchecked.pieces nodes = page.pieces nodes
  | [] => rfl
  | node :: rest => by
    rw [pieces, pieces, print_unchecked page node, pieces_unchecked page rest]

end

end Page

/-- A template prints the same whether or not its result is to be checked. -/
theorem render_unchecked (config : Config) (document : Document) :
    render config.unchecked document = render config document := by
  unfold render
  simp only
  rw [show (⟨config.unchecked, document.source⟩ : Page) =
    (⟨config, document.source⟩ : Page).unchecked from rfl, Page.pieces_unchecked]
  rfl

end BladeTemplate
