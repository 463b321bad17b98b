import BladeTemplate.Format

/-!
# The active configuration

Reading a template and checking a result use the active configuration. Whoever asks for one of them
makes the configuration that is meant the active one for as long as the work lasts; afterwards the
configuration from before is active again, also when the work has failed.

* `Setup` is a configuration as a caller gives it;
* `Ambient` is work that may use and replace the active configuration, and may fail;
* `Ambient.within` does work under a configuration;
* `Ambient.format`, `Ambient.parse`, `Ambient.render` and the definitions of `Formatter` are what a
  caller can ask for.
-/

namespace BladeTemplate

/-- A configuration as a caller gives it: options, a registry, both or neither. -/
structure Setup where
  options : Option Options := none
  registry : Option Registry := none

/-- The configuration meant: the active one if nothing is given. -/
def Setup.resolve (setup : Setup) (active : Config) : Except ConfigError Config :=
  match setup.options, setup.registry with
  | none, none => .ok active
  | options, registry => Config.ofOptions (options.getD []) registry

/-- Why a step fails. -/
inductive SessionError where
  | config (error : ConfigError)
  | lex (error : LexError)

/-- Work that may use and replace the active configuration, and may fail. What failing work has
done to the active configuration stays done. -/
abbrev Ambient (α : Type) := EStateM SessionError Config α

namespace Ambient

variable {α : Type}

/-- Work under a configuration. The configuration from before is active again afterwards, whether
the work fails or not. -/
def within (config : Config) (work : Ambient α) : Ambient α := do
  let previous ← get
  set config
  try work finally set previous

/-- The configuration that a caller means. -/
def meant (setup : Setup) : Ambient Config := do
  match setup.resolve (← get) with
  | .ok config => return config
  | .error error => throw (.config error)

/-- Read a template as the active configuration says. -/
def readTemplate (file : Option String) (source : Chars) : Ambient Document := do
  let active ← get
  match (BladeTemplate.parse active.dialect file source).outcome with
  | .ok document => return document
  | .error error => throw (.lex error)

/-- Format a template with a configuration. The printer and the check use the configuration given;
the template and its result are read as the active one says. -/
def formatWith (config : Config) (file : Option String) (source : Chars) : Ambient Outcome := do
  let reading := BladeTemplate.parse (← get).dialect file source
  match reading.outcome with
  | .error error => return (Format.unreadable file source error reading.events).outcome
  | .ok document =>
    let formatted := BladeTemplate.render config document
    if config.checkIdempotence then
      let check := Stability.check (← get) config document file formatted
      match check.verdict with
      | .error violation =>
        return (Format.unstable file document violation (reading.events ++ check.events)).outcome
      | .ok () =>
        return (Format.accepted file document formatted (reading.events ++ check.events)).outcome
    else return (Format.accepted file document formatted reading.events).outcome

def format (setup : Setup) (file : Option String) (source : Chars) : Ambient Outcome := do
  let config ← meant setup
  within config (formatWith config file source)

def parse (setup : Setup) (file : Option String) (source : Chars) : Ambient Document := do
  let config ← meant setup
  within config (readTemplate file source)

/-- Print a template under the configuration given, else under the active one. -/
def render (given : Option Config) (document : Document) : Ambient Chars := do
  let config := given.getD (← get)
  within config (return BladeTemplate.render config document)

end Ambient

/-- A formatter keeps the configuration that was meant when it was made. -/
structure Formatter where
  config : Config := .default

namespace Formatter

open Ambient

def make (setup : Setup) : Ambient Formatter := do
  return ⟨← meant setup⟩

def call (formatter : Formatter) (file : Option String) (source : Chars) : Ambient Outcome :=
  within formatter.config (formatWith formatter.config file source)

def callMany (formatter : Formatter) (file : Option String) (sources : List Chars) :
    Ambient (List Outcome) :=
  within formatter.config (sources.mapM (formatWith formatter.config file))

def parse (formatter : Formatter) (file : Option String) (source : Chars) : Ambient Document :=
  within formatter.config (readTemplate file source)

def render (formatter : Formatter) (document : Document) : Ambient Chars :=
  Ambient.render (some formatter.config) document

end Formatter
end BladeTemplate
