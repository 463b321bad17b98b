import BladeTemplate.Fingerprint
import BladeTemplate.Layout.Print
import BladeTemplate.Tree.Build

/-!
# Stability of results

A result is accepted only if formatting it again would change nothing: it can be read, its tree
has the structure of the template's, and printing that tree gives the result back.
-/

namespace BladeTemplate

namespace Config

/-- How templates are read under a configuration. -/
def dialect (config : Config) : Dialect :=
  ⟨config.activeRegistry, config.frontMatter, config.reportUnknownDirectives⟩

/-- How a result is read back: with the registry of `config`, if it has entries, and everything
else as the surrounding configuration `ambient` says. -/
def recheckDialect (ambient config : Config) : Dialect :=
  { ambient.dialect with registry := firstRegistry [config.registry, ambient.registry] }

end Config

namespace Stability

/-- Compare the top-level fingerprints of a template with those of its result, one by one. `last`
is the line of the last construct compared. -/
def compare (last : Int) : List (Int × Fingerprint) → List (Int × Fingerprint) →
    Except Violation Unit
  | [], [] => .ok ()
  | [], _ :: _ => .error ⟨Instability.extraNodes.reason, some last⟩
  | (line, _) :: _, [] => .error ⟨Instability.missingNode.reason, some line⟩
  | (line, expected) :: before, (_, found) :: after =>
    if found = expected then compare line before after
    else .error ⟨Instability.changedNode.reason, some line⟩

/-- Number of the first line in which two lists of lines differ, counted from `number`. -/
def firstDifference (number : Nat) : List Chars → List Chars → Nat
  | a :: as, b :: bs => if a = b then firstDifference (number + 1) as bs else number
  | _, _ => number

/-- What a check yields: the verdict, and the events on the way. -/
structure Check where
  verdict : Except Violation Unit
  events : List Event

/-- Check that `formatted`, the result for a template, is stable. -/
def check (ambient config : Config) (document : Document) (file : Option String)
    (formatted : Chars) : Check :=
  let second := parse (ambient.recheckDialect config) file formatted
  match second.outcome with
  | .error error => ⟨.error ⟨(Instability.unreadable error.text).reason, error.line⟩, second.events⟩
  | .ok again =>
    let sort := config.sortAttributes
    match compare 1 (document.fingerprints sort) (again.fingerprints sort) with
    | .error violation => ⟨.error violation, second.events⟩
    | .ok () =>
      let repeated := render config again
      if repeated = formatted then
        ⟨.ok (), second.events ++ [.stable again.children.length]⟩
      else
        let line := firstDifference 1 (Text.splitLines formatted) (Text.splitLines repeated)
        ⟨.error ⟨(Instability.changedLine line).reason, some line⟩, second.events⟩

end Stability
end BladeTemplate
