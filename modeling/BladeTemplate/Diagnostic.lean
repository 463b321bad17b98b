import BladeTemplate.Location
import BladeTemplate.Text.Quoted

/-!
# Diagnostics

A diagnostic is a positioned message about a template. Most of them report a recovery; only the
two error codes go with a template that is left as it was.

* `UnknownName` is the error of reading a name outside a fixed vocabulary;
* `Diagnostic.sort` orders diagnostics by position and keeps the order of equal positions.
-/

namespace BladeTemplate

/-- A name outside the vocabulary `vocabulary`. -/
structure UnknownName where
  vocabulary : String
  shown : Chars
  deriving DecidableEq, Repr

namespace UnknownName

/-- The error for a text that names nothing in a vocabulary. -/
def ofText (vocabulary : String) (text : Chars) : UnknownName :=
  ⟨vocabulary, Text.quoted text⟩

def message (error : UnknownName) : String :=
  let shown := String.ofList error.shown
  let vocabulary := error.vocabulary
  s!"{shown} is not a valid {vocabulary}"

end UnknownName

/-- The member of a vocabulary with the given name. -/
def nameIn {α : Type} (vocabulary : String) (members : List α) (name : α → String) (text : Chars) :
    Except UnknownName α :=
  match members.find? (fun member => (name member).toList = text) with
  | some member => .ok member
  | none => .error (.ofText vocabulary text)

/-- How serious a diagnostic is. -/
inductive Severity where
  | error
  | warning
  | info
  deriving DecidableEq, Repr

namespace Severity

def all : List Severity := [.error, .warning, .info]

def name : Severity → String
  | .error => "error"
  | .warning => "warning"
  | .info => "info"

def named (text : Chars) : Except UnknownName Severity :=
  nameIn "Severity" all name text

end Severity

/-- What a diagnostic is about. -/
inductive DiagnosticCode where
  | lexError
  | idempotenceViolation
  | unmatchedDirective
  | unknownDirective
  | ambiguousAttribute
  | unclosedElement
  | strayEndTag
  deriving DecidableEq, Repr

namespace DiagnosticCode

def all : List DiagnosticCode :=
  [.lexError, .idempotenceViolation, .unmatchedDirective, .unknownDirective, .ambiguousAttribute,
    .unclosedElement, .strayEndTag]

def name : DiagnosticCode → String
  | .lexError => "lex-error"
  | .idempotenceViolation => "idempotence-violation"
  | .unmatchedDirective => "unmatched-directive"
  | .unknownDirective => "unknown-directive"
  | .ambiguousAttribute => "ambiguous-attribute"
  | .unclosedElement => "unclosed-element"
  | .strayEndTag => "stray-end-tag"

def named (text : Chars) : Except UnknownName DiagnosticCode :=
  nameIn "DiagnosticCode" all name text

end DiagnosticCode

/-- A positioned message about a template; line and column are zero when unknown. -/
structure Diagnostic where
  line : Int
  column : Int
  severity : Severity
  message : String
  code : DiagnosticCode
  deriving DecidableEq, Repr

namespace Diagnostic

/-- A diagnostic at the start of a location. -/
def placed (location : Location) (severity : Severity) (code : DiagnosticCode) (message : String) :
    Diagnostic :=
  ⟨location.line, location.column, severity, message, code⟩

/-- A warning at the start of a location. -/
def warning (location : Location) (code : DiagnosticCode) (message : String) : Diagnostic :=
  .placed location .warning code message

/-- A piece of information at the start of a location. -/
def info (location : Location) (code : DiagnosticCode) (message : String) : Diagnostic :=
  .placed location .info code message

/-- The diagnostic as it is shown to users. -/
def display (diagnostic : Diagnostic) : String :=
  let line := diagnostic.line
  let column := diagnostic.column
  let severity := diagnostic.severity.name
  let code := diagnostic.code.name
  let message := diagnostic.message
  s!"{line}:{column} {severity}[{code}] {message}"

/-- Whether one diagnostic stands no later than another. -/
def notAfter (a b : Diagnostic) : Bool :=
  a.line < b.line || (a.line = b.line && a.column ≤ b.column)

/-- The diagnostics by position; those at one position keep their order. -/
def sort (diagnostics : List Diagnostic) : List Diagnostic :=
  diagnostics.mergeSort notAfter

end Diagnostic
end BladeTemplate
