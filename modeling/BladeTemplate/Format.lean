import BladeTemplate.Stability

/-!
# Formatting

`format` reads a template, prints it in canonical form, and checks that the result is stable. A
template that cannot be read, or whose result is not stable, is returned as it was, with an error
among the diagnostics; nothing else is ever refused.
-/

namespace BladeTemplate

/-- The outcome of formatting a template. -/
structure Outcome where
  text : Chars
  diagnostics : List Diagnostic
  changed : Bool
  deriving DecidableEq, Repr

/-- Whether the template was returned as it was because of an error. -/
def Outcome.failed (outcome : Outcome) : Bool :=
  outcome.diagnostics.any (·.severity = .error)

/-- An outcome and the events on the way to it. -/
structure FormatRun where
  outcome : Outcome
  events : List Event

namespace Format

/-- The name a template goes by in events. -/
def nameOf (file : Option String) : String :=
  let name := file.getD ""
  if name.isEmpty then "<string>" else name

/-- The outcome of a template that is returned as it was. -/
def fallback (source : Chars) (line column : Option Int) (message : String)
    (code : DiagnosticCode) (recovered : List Diagnostic) : Outcome where
  text := source
  diagnostics :=
    Diagnostic.sort (recovered ++ [⟨line.getD 0, column.getD 0, .error, message, code⟩])
  changed := false

/-- The run of a template that cannot be read. -/
def unreadable (file : Option String) (source : Chars) (error : LexError) (events : List Event) :
    FormatRun where
  outcome := fallback source error.line error.column error.text .lexError []
  events := events ++ [.notFormatted (nameOf file) error.message]

/-- The run of a template whose result is not stable. -/
def unstable (file : Option String) (document : Document) (violation : Violation)
    (events : List Event) : FormatRun where
  outcome :=
    fallback document.source violation.line (some 1) violation.message .idempotenceViolation
      document.diagnostics
  events := events ++ [.notFormatted (nameOf file) violation.message]

/-- The run of a template with an acceptable result. -/
def accepted (file : Option String) (document : Document) (formatted : Chars)
    (events : List Event) : FormatRun where
  outcome := ⟨formatted, document.diagnostics, formatted ≠ document.source⟩
  events := events ++ [.formatted (nameOf file) document.diagnostics.length]

/-- Format a template, and tell what happened on the way. -/
def run (config : Config) (file : Option String) (source : Chars) : FormatRun :=
  let first := parse config.dialect file source
  match first.outcome with
  | .error error => unreadable file source error first.events
  | .ok document =>
    let formatted := render config document
    if config.checkIdempotence then
      let check := Stability.check config config document file formatted
      match check.verdict with
      | .error violation => unstable file document violation (first.events ++ check.events)
      | .ok () => accepted file document formatted (first.events ++ check.events)
    else accepted file document formatted first.events

end Format

def format (config : Config) (file : Option String) (source : Chars) : Outcome :=
  (Format.run config file source).outcome

/-- Format several templates under one configuration. -/
def formatMany (config : Config) (file : Option String) (sources : List Chars) : List Outcome :=
  sources.map (format config file)

end BladeTemplate
