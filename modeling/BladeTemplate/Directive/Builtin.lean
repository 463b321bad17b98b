import BladeTemplate.Directive.Registry

/-!
# Built-in directives

The table of the directives known from the start: control structures, loops, template
inheritance, stacks, authorization, components and the block directives of live components.
-/

namespace BladeTemplate

namespace Descriptor

/-- Directives whose argument list is set off by a space. -/
def spacedNames : List String :=
  ["if", "elseif", "unless", "for", "foreach", "forelse", "while"]

/-- A directive that opens a block of its own family. -/
def opener (name : String) : Descriptor where
  name := name.toList
  pairing := .opens
  family := some name.toList
  spacedArguments := name ∈ spacedNames

/-- A directive that closes a family. -/
def closer (name family : String) (kind : CloseKind := .finish) : Descriptor where
  name := name.toList
  pairing := .closes
  family := some family.toList
  acceptsArguments := false
  closeKind := some kind

/-- A directive that separates branches of the given families. -/
def separator (name : String) (families : List String) : Descriptor where
  name := name.toList
  pairing := .middle
  middleOf := families.map String.toList
  spacedArguments := name ∈ spacedNames

/-- A directive that stands alone. -/
def leaf (name : String) : Descriptor where
  name := name.toList

/-- The same directive without an argument list. -/
def bare (descriptor : Descriptor) : Descriptor :=
  { descriptor with acceptsArguments := false }

/-- An opener and the closer named after it. -/
def pair (name : String) : List Descriptor :=
  [opener name, closer ("end" ++ name) name]

/-- An opener without argument list and the closer named after it. -/
def barePair (name : String) : List Descriptor :=
  [(opener name).bare, closer ("end" ++ name) name]

end Descriptor

namespace Registry

open Descriptor

/-- Families whose branches a plain `@else` may separate. -/
def conditionalFamilies : List String :=
  ["if", "unless", "isset", "empty", "auth", "guest", "can", "cannot", "canany", "env",
    "production", "session", "error"]

def conditionals : List Descriptor :=
  pair "if" ++ [separator "elseif" ["if"], (separator "else" conditionalFamilies).bare] ++
    pair "unless" ++ pair "isset" ++
    pair "auth" ++ [separator "elseauth" ["auth"]] ++
    pair "guest" ++ [separator "elseguest" ["guest"]] ++
    pair "can" ++ [separator "elsecan" ["can"]] ++
    pair "cannot" ++ [separator "elsecannot" ["cannot"]] ++
    pair "canany" ++ [separator "elsecanany" ["canany"]] ++
    pair "env" ++ barePair "production" ++ pair "session" ++ pair "error" ++
    [{ opener "hasSection" with family := some "if".toList },
      { opener "sectionMissing" with family := some "if".toList },
      { opener "switch" with indentsMiddles := true }, closer "endswitch" "switch",
      separator "case" ["switch"], (separator "default" ["switch"]).bare]

/-- Loops. Without arguments `@empty` separates the body of a `@forelse` from its fallback; with
arguments it opens a block. -/
def loops : List Descriptor :=
  pair "foreach" ++ pair "forelse" ++
    [{ separator "empty" ["forelse"] with argumentsFamily := some "empty".toList },
      closer "endempty" "empty"] ++
    pair "for" ++ pair "while" ++
    [{ leaf "break" with allowsInlineCondition := true, bareMiddleOf := some "switch".toList },
      { leaf "continue" with allowsInlineCondition := true }]

/-- Template inheritance and stacks. -/
def inheritance : List Descriptor :=
  [{ opener "section" with inlineArity := 2 }, closer "endsection" "section",
      closer "show" "section" .display, closer "overwrite" "section" .overwrite,
      closer "stop" "section" .stop, closer "append" "section" .append,
      leaf "extends", leaf "extendsFirst", leaf "yield", (leaf "parent").bare, leaf "include",
      leaf "includeIf", leaf "includeWhen", leaf "includeUnless", leaf "includeFirst",
      leaf "includeIsolated", leaf "each"] ++
    pair "push" ++ pair "prepend" ++
    [opener "pushOnce", closer "endPushOnce" "pushOnce",
      opener "prependOnce", closer "endPrependOnce" "prependOnce",
      opener "pushIf", closer "endPushIf" "pushIf"] ++
    barePair "once" ++ [leaf "stack"]

/-- Components in directive form, fragments, live-component blocks, and the two directives whose
bodies are kept as they are. -/
def components : List Descriptor :=
  pair "component" ++
    [opener "componentFirst", closer "endComponentFirst" "componentFirst",
      { opener "slot" with inlineArity := 2 }, closer "endslot" "slot"] ++
    pair "fragment" ++ pair "teleport" ++ pair "persist" ++ barePair "script" ++
    barePair "assets" ++
    [{ opener "php" with inlineArity := 1, keepsBody := true }, closer "endphp" "php",
      { (opener "verbatim").bare with keepsBody := true }, closer "endverbatim" "verbatim"]

def standalones : List Descriptor :=
  [(leaf "csrf").bare, leaf "method", leaf "json", leaf "js", leaf "class", leaf "style",
    leaf "checked", leaf "selected", leaf "disabled", leaf "readonly", leaf "required",
    leaf "props", leaf "aware", leaf "inject", leaf "use", leaf "lang", leaf "choice",
    leaf "dump", leaf "dd", leaf "unset", leaf "vite", (leaf "viteReactRefresh").bare,
    leaf "livewire", (leaf "livewireStyles").bare, (leaf "livewireScripts").bare,
    (leaf "livewireScriptConfig").bare, leaf "entangle", leaf "this"]

/-- The registry of the built-in directives. -/
def builtin : Registry :=
  ⟨conditionals ++ loops ++ inheritance ++ components ++ standalones⟩

end Registry
end BladeTemplate
