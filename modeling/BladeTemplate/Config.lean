import BladeTemplate.Directive.Builtin
import BladeTemplate.Json.Value

/-!
# Configuration

A `Config` holds the options of one formatting run; its numbers are in range by construction.
`Config.ofOptions` reads it from an options object, in which every option has a spelling with
underscores and one in camel case, unknown options are passed over, and the last of several
spellings counts.
-/

namespace BladeTemplate

/-- How closing directives are written: as registered, or exactly as in the template. -/
inductive ClosingStyle where
  | canonical
  | asWritten
  deriving DecidableEq, Repr

namespace ClosingStyle

def all : List ClosingStyle := [.canonical, .asWritten]

def name : ClosingStyle → String
  | .canonical => "canonical"
  | .asWritten => "as_written"

/-- The style with the given name, in any case and with dashes for underscores. -/
def named (text : Chars) : Except UnknownName ClosingStyle :=
  nameIn "ClosingStyle" all name (Text.lower (text.map fun c => if c = '-' then '_' else c))

end ClosingStyle

/-- The options of a formatting run. Start tags longer than `maxLineLength` have one attribute per
line; no more than `preserveBlankLines` are kept in a row; without a registry the built-in one is
used. -/
structure Config where
  indentSize : Nat := 4
  useTabs : Bool := false
  maxLineLength : Nat := 120
  sortAttributes : Bool := false
  preserveBlankLines : Nat := 1
  closingStyle : ClosingStyle := .canonical
  checkIdempotence : Bool := true
  frontMatter : Bool := true
  reportUnknownDirectives : Bool := false
  registry : Option Registry := none
  indentSize_pos : 0 < indentSize := by decide
  maxLineLength_pos : 0 < maxLineLength := by decide
  deriving DecidableEq

namespace Config

/-- The configuration in force when nothing is configured. -/
def default : Config := {}

/-- The text of one level of indentation. -/
def indentUnit (config : Config) : Chars :=
  if config.useTabs then ['\t'] else List.replicate config.indentSize ' '

theorem eq_of_mem_indentUnit (config : Config) {c : Char} (member : c ∈ config.indentUnit) :
    c = ' ' ∨ c = '\t' := by
  unfold indentUnit at member
  split at member
  · exact .inr (List.mem_singleton.1 member)
  · exact .inl (List.eq_of_mem_replicate member)

/-- The first registry in the list that has entries, or the built-in one. -/
def firstRegistry : List (Option Registry) → Registry
  | [] => .builtin
  | some registry :: rest => if registry.size = 0 then firstRegistry rest else registry
  | none :: rest => firstRegistry rest

/-- The registry in use: an empty one counts as none. -/
def activeRegistry (config : Config) : Registry :=
  firstRegistry [config.registry]

end Config

/-- The names of the options that an options object may hold. -/
inductive OptionName where
  | indentSize
  | useTabs
  | maxLineLength
  | sortAttributes
  | preserveBlankLines
  | closingStyle
  | checkIdempotence
  | frontMatter
  | reportUnknownDirectives
  deriving DecidableEq, Repr

namespace OptionName

def all : List OptionName :=
  [.indentSize, .useTabs, .maxLineLength, .sortAttributes, .preserveBlankLines, .closingStyle,
    .checkIdempotence, .frontMatter, .reportUnknownDirectives]

/-- The spelling of an option with underscores. -/
def snake : OptionName → String
  | .indentSize => "indent_size"
  | .useTabs => "use_tabs"
  | .maxLineLength => "max_line_length"
  | .sortAttributes => "sort_attributes"
  | .preserveBlankLines => "preserve_blank_lines"
  | .closingStyle => "directive_closing_style"
  | .checkIdempotence => "check_idempotence"
  | .frontMatter => "front_matter"
  | .reportUnknownDirectives => "report_unknown_directives"

/-- The spelling of an option in camel case. -/
def camel : OptionName → String
  | .indentSize => "indentSize"
  | .useTabs => "useTabs"
  | .maxLineLength => "maxLineLength"
  | .sortAttributes => "sortAttributes"
  | .preserveBlankLines => "preserveBlankLines"
  | .closingStyle => "directiveClosingStyle"
  | .checkIdempotence => "checkIdempotence"
  | .frontMatter => "frontMatter"
  | .reportUnknownDirectives => "reportUnknownDirectives"

/-- Whether `key` spells the option. -/
def spelledBy (name : OptionName) (key : Chars) : Bool :=
  key = name.snake.toList || key = name.camel.toList

end OptionName

/-- Why an options object is refused: a number is out of range, the closing style has an unknown
name, or a value is of the wrong kind. -/
inductive ConfigError where
  | notPositive (name : OptionName) (value : Int)
  | negative (name : OptionName) (value : Int)
  | unknownStyle (error : UnknownName)
  | wrongKind (name : OptionName)
  deriving DecidableEq, Repr

def ConfigError.message : ConfigError → String
  | .notPositive name value =>
    let name := name.snake
    s!"{name} must be positive, got {value}"
  | .negative name value =>
    let name := name.snake
    s!"{name} must not be negative, got {value}"
  | .unknownStyle error => error.message
  | .wrongKind name =>
    let name := name.snake
    s!"{name} has a value of the wrong kind"

abbrev Options := List (Chars × Json)

namespace Options

/-- The value given for an option, under whichever spelling came last. -/
def value? (options : Options) (name : OptionName) : Option Json :=
  (options.reverse.find? fun option => name.spelledBy option.1).map (·.2)

/-- A whole number, or the default when none is given. -/
def int (options : Options) (name : OptionName) (default : Int) : Except ConfigError Int :=
  match options.value? name with
  | none => .ok default
  | some (.int value) => .ok value
  | some _ => .error (.wrongKind name)

/-- A flag, or the default when none is given. -/
def flag (options : Options) (name : OptionName) (default : Bool) : Except ConfigError Bool :=
  match options.value? name with
  | none => .ok default
  | some (.bool value) => .ok value
  | some _ => .error (.wrongKind name)

/-- The closing style, or the canonical one when none is given. -/
def closingStyle (options : Options) : Except ConfigError ClosingStyle :=
  match options.value? .closingStyle with
  | none => .ok .canonical
  | some (.str text) => (ClosingStyle.named text).mapError .unknownStyle
  | some _ => .error (.wrongKind .closingStyle)

end Options

/-- A number known to be positive. -/
def positive (name : OptionName) (value : Int) : Except ConfigError { n : Nat // 0 < n } :=
  if h : 0 < value.toNat then .ok ⟨value.toNat, h⟩ else .error (.notPositive name value)

/-- Read a configuration from an options object. An unknown closing style is reported before any
number out of range. -/
def Config.ofOptions (options : Options) (registry : Option Registry := none) :
    Except ConfigError Config := do
  let closingStyle ← options.closingStyle
  let indentSize ← options.int .indentSize 4
  let maxLineLength ← options.int .maxLineLength 120
  let preserveBlankLines ← options.int .preserveBlankLines 1
  let useTabs ← options.flag .useTabs false
  let sortAttributes ← options.flag .sortAttributes false
  let checkIdempotence ← options.flag .checkIdempotence true
  let frontMatter ← options.flag .frontMatter true
  let reportUnknownDirectives ← options.flag .reportUnknownDirectives false
  let ⟨indentSize, indentSize_pos⟩ ← positive .indentSize indentSize
  let ⟨maxLineLength, maxLineLength_pos⟩ ← positive .maxLineLength maxLineLength
  if preserveBlankLines < 0 then throw (.negative .preserveBlankLines preserveBlankLines)
  return {
    indentSize, useTabs, maxLineLength, sortAttributes, closingStyle, checkIdempotence,
    frontMatter, reportUnknownDirectives, registry, indentSize_pos, maxLineLength_pos
    preserveBlankLines := preserveBlankLines.toNat }

end BladeTemplate
