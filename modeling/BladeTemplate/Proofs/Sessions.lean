import BladeTemplate.Session
import BladeTemplate.Proofs.AnyFile

/-!
# What a session's answers depend on

Work done with a configuration of its own gives the same result whatever configuration is active,
and whatever it does, the configuration from before is active again afterwards.

* `Setup.of` gives a configuration the way a caller gives it;
* `Ambient.Returns` says of work that its result has nothing to do with the active configuration,
  and that this is the same afterwards; `Ambient.returns_within` is why;
* `Session.perform_format` and the lemmas after it say once what each step does;
* `Command.Nested` are steps in which every scope that is entered is left again, and
  `Session.saved_reach` says what such steps leave as it was;
* `Session.formatters_reach` says how long a formatter stays;
* `Session.Answers` is what the steps answer that ask for work, and `session_answers` is the result
  for every session.
-/

namespace BladeTemplate

/-! ## Configurations as a caller gives them -/

namespace Config

/-- The value of an option in an options object. -/
def value (config : Config) : OptionName → Json
  | .indentSize => .int config.indentSize
  | .useTabs => .bool config.useTabs
  | .maxLineLength => .int config.maxLineLength
  | .sortAttributes => .bool config.sortAttributes
  | .preserveBlankLines => .int config.preserveBlankLines
  | .closingStyle => .str config.closingStyle.name.toList
  | .checkIdempotence => .bool config.checkIdempotence
  | .frontMatter => .bool config.frontMatter
  | .reportUnknownDirectives => .bool config.reportUnknownDirectives

/-- The options object that spells out every option. -/
def written (config : Config) : Options :=
  OptionName.all.map fun name => (name.snake.toList, config.value name)

theorem value?_written (config : Config) (name : OptionName) :
    config.written.value? name = some (config.value name) := by
  cases name <;> rfl

theorem named_closingStyle (style : ClosingStyle) :
    ClosingStyle.named style.name.toList = .ok style := by
  cases style <;> decide +kernel

theorem ofOptions_written (config : Config) :
    ofOptions config.written config.registry = .ok config := by
  obtain ⟨indentSize, useTabs, maxLineLength, sortAttributes, preserveBlankLines, closingStyle,
    checkIdempotence, frontMatter, reportUnknownDirectives, registry, indentSize_pos,
    maxLineLength_pos⟩ := config
  simp [ofOptions, Options.closingStyle, Options.int, Options.flag, value?_written, value,
    named_closingStyle, positive, indentSize_pos, maxLineLength_pos, bind, Except.bind,
    Except.mapError, pure, Except.pure]

end Config

namespace Setup

/-- The setup that means the configuration. -/
def of (config : Config) : Setup :=
  ⟨some config.written, config.registry⟩

/-- Whether anything is given, so that the active configuration is not meant. -/
def explicit (setup : Setup) : Bool :=
  setup.options.isSome || setup.registry.isSome

theorem resolve_of (config active : Config) : (of config).resolve active = .ok config :=
  config.ofOptions_written

theorem resolve_explicit {setup : Setup} (given : setup.explicit = true) (active other : Config) :
    setup.resolve active = setup.resolve other := by
  obtain ⟨options, registry⟩ := setup
  cases options with
  | some options => rfl
  | none =>
    cases registry with
    | some registry => rfl
    | none => cases given

/-- Whether the setup means a configuration, rather than being refused. -/
def valid (setup : Setup) : Bool :=
  (setup.resolve .default).isOk

/-- Whether a setup is refused has nothing to do with the active configuration. -/
theorem isOk_resolve (setup : Setup) (active : Config) :
    (setup.resolve active).isOk = setup.valid := by
  cases given : setup.explicit with
  | true => rw [valid, resolve_explicit given .default active]
  | false =>
    obtain ⟨options, registry⟩ := setup
    cases options with
    | some options => cases given
    | none =>
      cases registry with
      | some registry => cases given
      | none => rfl

end Setup

/-! ## Work that leaves the active configuration alone -/

namespace Ambient

variable {α β : Type}

/-- The end of work that has not changed the active configuration. -/
def ended (result : Except SessionError α) (active : Config) :
    EStateM.Result SessionError Config α :=
  match result with
  | .ok value => .ok value active
  | .error error => .error error active

/-- What work comes to under the active configuration. -/
def answer (work : Ambient α) (active : Config) : Except SessionError α :=
  match work.run active with
  | .ok value _ => .ok value
  | .error error _ => .error error

/-- The work leaves the active configuration as it was and comes to the same result under every
one. -/
def Returns (work : Ambient α) (result : Except SessionError α) : Prop :=
  ∀ active, work.run active = ended result active

@[simp]
theorem answer_of_run {work : Ambient α} {result : Except SessionError α} {active : Config}
    (run : work.run active = ended result active) : work.answer active = result := by
  unfold answer
  rw [run]
  cases result <;> rfl

theorem run_get (active : Config) :
    (get : Ambient Config).run active = ended (.ok active) active := rfl

/-- Work done one after the other comes to the result of the second, unless the first fails. -/
theorem run_bind {work : Ambient α} {result : Except SessionError α} {active : Config}
    (next : α → Ambient β) : work.run active = ended result active →
    (work >>= next).run active =
      match result with
      | .ok value => (next value).run active
      | .error error => .error error active := by
  intro run
  have first : work active = ended result active := run
  change EStateM.bind work next active = _
  unfold EStateM.bind
  rw [first]
  cases result <;> rfl

/-- Under a configuration of its own the work comes to what it comes to there, and what was active
is active again: whatever the work does to the active configuration, whether it fails or not. -/
theorem returns_within (config : Config) (work : Ambient α) :
    (within config work).Returns (work.answer config) := by
  intro active
  have unfolded : (within config work).run active =
      (EStateM.map (·.1) (tryFinally' work fun _ => (set active : Ambient Unit))) config := rfl
  rw [unfolded]
  unfold answer EStateM.run EStateM.map
  simp only [tryFinally']
  cases work config <;> rfl

theorem run_meant (setup : Setup) (active : Config) :
    (meant setup).run active = ended ((setup.resolve active).mapError .config) active := by
  unfold meant
  rw [run_bind _ (run_get active)]
  simp only
  cases setup.resolve active <;> rfl

/-! ## Reading, printing and formatting -/

theorem run_readTemplate (file : Option String) (source : Chars) (active : Config) :
    (readTemplate file source).run active =
      ended ((BladeTemplate.parse active.dialect file source).outcome.mapError .lex) active := by
  unfold readTemplate
  rw [run_bind _ (run_get active)]
  simp only
  cases (BladeTemplate.parse active.dialect file source).outcome <;> rfl

/-- While its own configuration is active, formatting comes to the outcome under it. -/
theorem run_formatWith (config : Config) (file : Option String) (source : Chars) :
    (formatWith config file source).run config =
      ended (.ok (BladeTemplate.format config file source)) config := by
  unfold formatWith BladeTemplate.format Format.run
  rw [run_bind _ (run_get config)]
  cases parsed : (BladeTemplate.parse config.dialect file source).outcome with
  | error error =>
    simp only [parsed]
    rfl
  | ok document =>
    simp only [parsed]
    split
    · rw [run_bind _ (run_get config)]
      cases verdict : (Stability.check config config document file
          (BladeTemplate.render config document)).verdict <;> simp only [verdict] <;> rfl
    · rfl

/-- Several templates come to the outcomes they come to one by one. -/
theorem run_mapM_formatWith (config : Config) (file : Option String) (sources : List Chars) :
    (sources.mapM (formatWith config file)).run config =
      ended (.ok (formatMany config file sources)) config := by
  induction sources with
  | nil => rfl
  | cons source rest ih =>
    rw [List.mapM_cons, run_bind _ (run_formatWith config file source)]
    exact run_bind _ ih

/-! ## What a caller can ask for -/

/-- Work that is left to the configuration meant. -/
theorem run_meant_within (setup : Setup) (work : Config → Ambient α) (active : Config) :
    (meant setup >>= fun config => within config (work config)).run active =
      ended (((setup.resolve active).mapError .config).bind fun config =>
        (work config).answer config) active := by
  rw [run_bind _ (run_meant setup active)]
  cases setup.resolve active with
  | error error => rfl
  | ok config => exact returns_within config (work config) active

theorem run_format (setup : Setup) (file : Option String) (source : Chars) (active : Config) :
    (Ambient.format setup file source).run active =
      ended (((setup.resolve active).mapError .config).map fun config =>
        BladeTemplate.format config file source) active := by
  unfold Ambient.format
  rw [run_meant_within]
  cases setup.resolve active with
  | error error => rfl
  | ok config =>
    exact congrArg (ended · active) (answer_of_run (run_formatWith config file source))

theorem run_parse (setup : Setup) (file : Option String) (source : Chars) (active : Config) :
    (Ambient.parse setup file source).run active =
      ended (((setup.resolve active).mapError .config).bind fun config =>
        (BladeTemplate.parse config.dialect file source).outcome.mapError .lex) active := by
  unfold Ambient.parse
  rw [run_meant_within]
  cases setup.resolve active with
  | error error => rfl
  | ok config =>
    exact congrArg (ended · active) (answer_of_run (run_readTemplate file source config))

theorem run_render (given : Option Config) (document : Document) (active : Config) :
    (Ambient.render given document).run active =
      ended (.ok (BladeTemplate.render (given.getD active) document)) active := by
  unfold Ambient.render
  rw [run_bind _ (run_get active)]
  exact returns_within _ _ active

end Ambient

namespace Formatter

open Ambient

variable (formatter : Formatter)

theorem returns_call (file : Option String) (source : Chars) :
    (formatter.call file source).Returns
      (.ok (BladeTemplate.format formatter.config file source)) := by
  have returns := returns_within formatter.config (formatWith formatter.config file source)
  rwa [answer_of_run (run_formatWith formatter.config file source)] at returns

theorem returns_callMany (file : Option String) (sources : List Chars) :
    (formatter.callMany file sources).Returns
      (.ok (sources.map (BladeTemplate.format formatter.config file))) := by
  have returns := returns_within formatter.config (sources.mapM (formatWith formatter.config file))
  rwa [answer_of_run (run_mapM_formatWith formatter.config file sources)] at returns

theorem returns_parse (file : Option String) (source : Chars) :
    (formatter.parse file source).Returns
      ((BladeTemplate.parse formatter.config.dialect file source).outcome.mapError .lex) := by
  have returns := returns_within formatter.config (readTemplate file source)
  rwa [answer_of_run (run_readTemplate file source formatter.config)] at returns

theorem returns_render (document : Document) :
    (formatter.render document).Returns (.ok (BladeTemplate.render formatter.config document)) :=
  run_render (some formatter.config) document

end Formatter

/-! ## Steps of a session -/

namespace Command

/-- Whether a step is there to change the active configuration. -/
def replaces : Command → Bool
  | .set .. | .reset | .enter .. | .leave => true
  | _ => false

/-- Whether a step has a configuration of its own: options or a registry that are given, or those
of the formatter. -/
def explicit : Command → Bool
  | .format setup _ _ | .parse setup _ _ | .makeFormatter setup _ => setup.explicit
  | .call .. | .callMany .. | .callRender .. => true
  | _ => false

/-- Whether a step makes the formatter of a slot. -/
def makes (slot : Nat) : Command → Bool
  | .makeFormatter _ other => other = slot
  | _ => false

/-- Whether a step opens a scope. One with options that are refused opens none. -/
def opens : Command → Bool
  | .enter setup => setup.valid
  | _ => false

/-- Steps in which every scope that is opened is left again. -/
inductive Nested : List Command → Prop
  | nil : Nested []
  | step {command : Command} {rest : List Command} : command.opens = false → command ≠ .leave →
      Nested rest → Nested (command :: rest)
  | scope {setup : Setup} {inner rest : List Command} : setup.valid = true → Nested inner →
      Nested rest → Nested (.enter setup :: (inner ++ .leave :: rest))

end Command

namespace Session

open Ambient

variable (session : Session)

/-- A step that answers with the result of work which leaves the active configuration alone, and
keeps nothing of it. -/
theorem perform_of_run {α : Type} {command : Command} {work : Ambient α}
    {result : Except SessionError α} {reply : α → Reply}
    (asks : session.work command = work >>= fun value => pure (reply value, session))
    (run : work.run session.active = ended result session.active) :
    session.perform command = (result.map reply, session) := by
  unfold perform
  rw [asks, run_bind _ run]
  cases result <;> rfl

theorem perform_format (setup : Setup) (file : Option String) (source : Chars) :
    session.perform (.format setup file source) =
      ((((setup.resolve session.active).mapError .config).map fun config =>
        BladeTemplate.format config file source).map .outcome, session) :=
  session.perform_of_run rfl (run_format setup file source session.active)

theorem perform_parse (setup : Setup) (file : Option String) (source : Chars) :
    session.perform (.parse setup file source) =
      ((((setup.resolve session.active).mapError .config).bind fun config =>
        (BladeTemplate.parse config.dialect file source).outcome.mapError .lex).map parsed,
        session) :=
  session.perform_of_run rfl (run_parse setup file source session.active)

/-- Reading, then printing what was read. -/
theorem run_parse_render {α : Type} {read : Ambient α} {result : Except SessionError α}
    {print : α → Ambient Chars} {text : α → Chars} {active : Config}
    (reads : read.run active = ended result active)
    (prints : ∀ value, (print value).run active = ended (.ok (text value)) active) :
    (read >>= print).run active = ended (result.map text) active := by
  rw [run_bind _ reads]
  cases result with
  | error error => rfl
  | ok value => exact prints value

theorem perform_render (setup : Setup) (file : Option String) (source : Chars) :
    session.perform (.render setup file source) =
      (((((setup.resolve session.active).mapError .config).bind fun config =>
        (BladeTemplate.parse config.dialect file source).outcome.mapError .lex).map
          (BladeTemplate.render session.active)).map .text, session) :=
  session.perform_of_run (bind_assoc _ _ _).symm
    (run_parse_render (run_parse setup file source session.active)
      fun document => run_render none document session.active)

theorem perform_call (file : Option String) (source : Chars) (slot : Nat) :
    session.perform (.call file source slot) =
      (.ok (.outcome (BladeTemplate.format (session.formatters slot).config file source)),
        session) :=
  session.perform_of_run rfl ((session.formatters slot).returns_call file source session.active)

theorem perform_callMany (file : Option String) (sources : List Chars) (slot : Nat) :
    session.perform (.callMany file sources slot) =
      (.ok (.outcomes (sources.map (BladeTemplate.format (session.formatters slot).config file))),
        session) :=
  session.perform_of_run rfl
    ((session.formatters slot).returns_callMany file sources session.active)

theorem perform_callRender (file : Option String) (source : Chars) (slot : Nat) :
    session.perform (.callRender file source slot) =
      ((((BladeTemplate.parse (session.formatters slot).config.dialect file source).outcome.mapError
        .lex).map (BladeTemplate.render (session.formatters slot).config)).map .text, session) :=
  session.perform_of_run (bind_assoc _ _ _).symm
    (run_parse_render ((session.formatters slot).returns_parse file source session.active)
      fun document => (session.formatters slot).returns_render document session.active)

theorem perform_leave :
    session.perform .leave =
      match session.saved with
      | [] => (.ok (.config session.active), session)
      | previous :: outer =>
        (.ok (.config previous), { session with active := previous, saved := outer }) := by
  obtain ⟨active, saved, formatters⟩ := session
  cases saved <;> rfl

/-- A step that begins by working out which configuration is meant: when it is refused, nothing
has happened. -/
theorem perform_of_meant {command : Command} {setup : Setup}
    {work : Config → Ambient (Reply × Session)} {reply : Config → Reply} (kept : Config → Session)
    (after : Config → Config) (asks : session.work command = meant setup >>= work)
    (run : ∀ config, (work config).run session.active =
      .ok (reply config, kept config) (after config)) :
    session.perform command =
      match setup.resolve session.active with
      | .ok config => (.ok (reply config), { kept config with active := after config })
      | .error error => (.error (.config error), session) := by
  unfold perform
  rw [asks, run_bind _ (run_meant setup session.active)]
  cases setup.resolve session.active with
  | error error => rfl
  | ok config => simp only [Except.mapError, run]

theorem perform_set (setup : Setup) :
    session.perform (.set setup) =
      match setup.resolve session.active with
      | .ok config => (.ok (.config config), { session with active := config })
      | .error error => (.error (.config error), session) :=
  session.perform_of_meant (fun _ => session) id rfl fun _ => rfl

theorem perform_enter (setup : Setup) :
    session.perform (.enter setup) =
      match setup.resolve session.active with
      | .ok config =>
        (.ok (.config config),
          { session with active := config, saved := session.active :: session.saved })
      | .error error => (.error (.config error), session) :=
  session.perform_of_meant (fun _ => { session with saved := session.active :: session.saved }) id
    rfl fun _ => rfl

theorem perform_makeFormatter (setup : Setup) (slot : Nat) :
    session.perform (.makeFormatter setup slot) =
      match setup.resolve session.active with
      | .ok config => (.ok (.config config), session.keep slot ⟨config⟩)
      | .error error => (.error (.config error), session) :=
  session.perform_of_meant (fun config => session.keep slot ⟨config⟩) (fun _ => session.active)
    (bind_assoc _ _ _) fun _ => rfl

/-! ## What steps leave as it was -/

variable {session}

@[simp]
theorem formatters_keep (slot : Nat) (formatter : Formatter) :
    (session.keep slot formatter).formatters slot = formatter :=
  if_pos rfl

theorem formatters_keep_of_ne {slot other : Nat} (formatter : Formatter) (apart : slot ≠ other) :
    (session.keep other formatter).formatters slot = session.formatters slot :=
  if_neg apart

/-- A step that is not there to change the active configuration leaves it as it was. -/
theorem active_perform {command : Command} (keeps : command.replaces = false) :
    (session.perform command).2.active = session.active := by
  cases command with
  | set | reset | enter | leave => cases keeps
  | get => rfl
  | makeFormatter setup slot =>
    rw [perform_makeFormatter]
    cases setup.resolve session.active <;> rfl
  | format => rw [perform_format]
  | parse => rw [perform_parse]
  | render => rw [perform_render]
  | call => rw [perform_call]
  | callMany => rw [perform_callMany]
  | callRender => rw [perform_callRender]

/-- Only entering and leaving change what is to be restored. -/
theorem saved_perform {command : Command} (inside : command.opens = false)
    (stays : command ≠ .leave) : (session.perform command).2.saved = session.saved := by
  cases command with
  | leave => exact absurd rfl stays
  | reset | get => rfl
  | set setup =>
    rw [perform_set]
    cases setup.resolve session.active <;> rfl
  | enter setup =>
    have refused := (setup.isOk_resolve session.active).trans inside
    rw [perform_enter]
    cases found : setup.resolve session.active with
    | error error => rfl
    | ok config =>
      rw [found] at refused
      cases refused
  | makeFormatter setup slot =>
    rw [perform_makeFormatter]
    cases setup.resolve session.active <;> rfl
  | format => rw [perform_format]
  | parse => rw [perform_parse]
  | render => rw [perform_render]
  | call => rw [perform_call]
  | callMany => rw [perform_callMany]
  | callRender => rw [perform_callRender]

/-- A formatter stays until another is made in its slot. -/
theorem formatters_perform {command : Command} {slot : Nat}
    (keeps : command.makes slot = false) :
    (session.perform command).2.formatters slot = session.formatters slot := by
  cases command with
  | makeFormatter setup other =>
    have apart : slot ≠ other := by simpa [Command.makes, eq_comm] using keeps
    rw [perform_makeFormatter]
    cases setup.resolve session.active with
    | error error => rfl
    | ok config => exact formatters_keep_of_ne ⟨config⟩ apart
  | reset | get => rfl
  | set setup =>
    rw [perform_set]
    cases setup.resolve session.active <;> rfl
  | enter setup =>
    rw [perform_enter]
    cases setup.resolve session.active <;> rfl
  | leave =>
    rw [perform_leave]
    cases session.saved <;> rfl
  | format => rw [perform_format]
  | parse => rw [perform_parse]
  | render => rw [perform_render]
  | call => rw [perform_call]
  | callMany => rw [perform_callMany]
  | callRender => rw [perform_callRender]

/-- The session that steps lead to. -/
def reach (session : Session) (steps : List Command) : Session :=
  (session.run steps).2

@[simp]
theorem reach_nil : session.reach [] = session := rfl

@[simp]
theorem reach_cons (command : Command) (rest : List Command) :
    session.reach (command :: rest) = (session.perform command).2.reach rest := rfl

@[simp]
theorem reach_append (first second : List Command) :
    session.reach (first ++ second) = (session.reach first).reach second := by
  induction first generalizing session with
  | nil => rfl
  | cons command rest ih => simp only [List.cons_append, reach_cons, ih]

theorem formatters_reach {steps : List Command} {slot : Nat}
    (kept : ∀ step ∈ steps, step.makes slot = false) :
    (session.reach steps).formatters slot = session.formatters slot := by
  induction steps generalizing session with
  | nil => rfl
  | cons command rest ih =>
    rw [reach_cons, ih fun step member => kept step (List.mem_cons_of_mem _ member),
      formatters_perform (kept command List.mem_cons_self)]

/-- A formatter that has been made is kept with the configuration that was answered. -/
theorem formatters_made {setup : Setup} {slot : Nat} {captured : Config}
    (made : (session.perform (.makeFormatter setup slot)).1 = .ok (.config captured)) :
    (session.perform (.makeFormatter setup slot)).2.formatters slot = ⟨captured⟩ := by
  rw [perform_makeFormatter] at made ⊢
  cases found : setup.resolve session.active with
  | error error =>
    rw [found] at made
    cases made
  | ok config =>
    rw [found] at made
    cases made
    exact formatters_keep slot ⟨captured⟩

/-- Leaving a scope restores what was saved by entering it, if everything entered in between has
been left. -/
theorem perform_leave_of_saved {inside : Session}
    (saved : inside.saved = session.active :: session.saved) :
    inside.perform .leave =
      (.ok (.config session.active),
        { inside with active := session.active, saved := session.saved }) := by
  rw [perform_leave, saved]

theorem saved_enter {setup : Setup} (valid : setup.valid = true) :
    (session.perform (.enter setup)).2.saved = session.active :: session.saved := by
  have accepted := (setup.isOk_resolve session.active).trans valid
  rw [perform_enter]
  cases found : setup.resolve session.active with
  | ok config => rfl
  | error error =>
    rw [found] at accepted
    cases accepted

/-- Steps that leave every scope they open keep what is to be restored. -/
theorem saved_reach {steps : List Command} (nested : Command.Nested steps) :
    (session.reach steps).saved = session.saved := by
  induction nested generalizing session with
  | nil => rfl
  | step inside stays _ ih => rw [reach_cons, ih, saved_perform inside stays]
  | @scope setup inner rest valid _ _ inner_ih rest_ih =>
    have saved : ((session.perform (.enter setup)).2.reach inner).saved =
        session.active :: session.saved := by rw [inner_ih, saved_enter valid]
    rw [reach_cons, reach_append, reach_cons, rest_ih, perform_leave_of_saved saved]

/-- A step with a configuration of its own answers the same whatever is active. -/
theorem answer_explicit {command : Command} (explicit : command.explicit = true)
    (other : Config) :
    (session.perform command).1 = ({ session with active := other }.perform command).1 := by
  have meant {setup : Setup} (given : setup.explicit = true) :=
    Setup.resolve_explicit given session.active other
  cases command with
  | format setup file source => rw [perform_format, perform_format, meant explicit]
  | parse setup file source => rw [perform_parse, perform_parse, meant explicit]
  | makeFormatter setup slot =>
    rw [perform_makeFormatter, perform_makeFormatter, meant explicit]
    cases setup.resolve other <;> rfl
  | call => rw [perform_call, perform_call]
  | callMany => rw [perform_callMany, perform_callMany]
  | callRender => rw [perform_callRender, perform_callRender]
  | _ => cases explicit

/-- What the steps answer that ask for work: each comes to the result of that work under the
configuration meant, which for a formatter is its own, and leaves the session as it was. -/
structure Answers (session : Session) : Prop where
  format (setup : Setup) (file : Option String) (source : Chars) :
    session.perform (.format setup file source) =
      ((((setup.resolve session.active).mapError .config).map fun config =>
        BladeTemplate.format config file source).map .outcome, session)
  parse (setup : Setup) (file : Option String) (source : Chars) :
    session.perform (.parse setup file source) =
      ((((setup.resolve session.active).mapError .config).bind fun config =>
        (BladeTemplate.parse config.dialect file source).outcome.mapError .lex).map parsed,
        session)
  render (setup : Setup) (file : Option String) (source : Chars) :
    session.perform (.render setup file source) =
      (((((setup.resolve session.active).mapError .config).bind fun config =>
        (BladeTemplate.parse config.dialect file source).outcome.mapError .lex).map
          (BladeTemplate.render session.active)).map .text, session)
  call (file : Option String) (source : Chars) (slot : Nat) :
    session.perform (.call file source slot) =
      (.ok (.outcome (BladeTemplate.format (session.formatters slot).config file source)),
        session)
  callMany (file : Option String) (sources : List Chars) (slot : Nat) :
    session.perform (.callMany file sources slot) =
      (.ok (.outcomes (sources.map (BladeTemplate.format (session.formatters slot).config file))),
        session)
  callRender (file : Option String) (source : Chars) (slot : Nat) :
    session.perform (.callRender file source slot) =
      ((((BladeTemplate.parse (session.formatters slot).config.dialect file source).outcome.mapError
        .lex).map (BladeTemplate.render (session.formatters slot).config)).map .text, session)

theorem answers (session : Session) : session.Answers where
  format := session.perform_format
  parse := session.perform_parse
  render := session.perform_render
  call := session.perform_call
  callMany := session.perform_callMany
  callRender := session.perform_callRender

end Session

/-! ## Answers -/

/-- Whatever steps a session has made: the steps that ask for work answer with its result; work with
a configuration of its own comes to the same under any other active one; every formatter formats,
reads and prints with the configuration it was made with, however many others there are; formatting
comes to the same for every file; and the active configuration is the same after a step that is not
there to change it, and the one from before the matching enter after a leave. -/
theorem session_answers (start : Session) (steps : List Command) :
    let session := start.reach steps
    session.Answers ∧
    (∀ command : Command, command.explicit = true → ∀ other,
      (session.perform command).1 = ({ session with active := other }.perform command).1) ∧
    (∀ (formatter : Formatter) (file : Option String),
      (∀ source, (formatter.call file source).Returns
        (.ok (format formatter.config file source))) ∧
      (∀ sources, (formatter.callMany file sources).Returns
        (.ok (sources.map (format formatter.config file)))) ∧
      (∀ source, (formatter.parse file source).Returns
        ((parse formatter.config.dialect file source).outcome.mapError .lex)) ∧
      (∀ document, (formatter.render document).Returns
        (.ok (render formatter.config document)))) ∧
    (∀ (setup : Setup) (slot : Nat) (captured : Config) (between : List Command),
      (session.perform (.makeFormatter setup slot)).1 = .ok (.config captured) →
      (∀ step ∈ between, step.makes slot = false) →
      let later := (session.perform (.makeFormatter setup slot)).2.reach between
      (later.formatters slot).config = captured ∧
        (∀ file source, later.perform (.call file source slot) =
          later.perform (.format (.of captured) file source)) ∧
        (∀ file sources, later.perform (.callMany file sources slot) =
          (.ok (.outcomes (sources.map (format captured file))), later)) ∧
        ∀ file source, later.perform (.callRender file source slot) =
          ((((parse captured.dialect file source).outcome.mapError .lex).map
            (render captured)).map .text, later)) ∧
    (∀ (setup : Setup) (file other : Option String) (slot : Nat),
      (∀ source, session.perform (.format setup file source) =
        session.perform (.format setup other source)) ∧
      (∀ source, session.perform (.call file source slot) =
        session.perform (.call other source slot)) ∧
      (∀ sources, session.perform (.callMany file sources slot) =
        session.perform (.callMany other sources slot))) ∧
    (∀ command : Command, command.replaces = false →
      (session.perform command).2.active = session.active) ∧
    (∀ (setup : Setup) (inner : List Command), setup.valid = true → Command.Nested inner →
      let inside := session.reach (.enter setup :: inner)
      (inside.perform .leave).1 = .ok (.config session.active) ∧
        (inside.perform .leave).2.active = session.active) := by
  intro session
  have anyFile (config : Config) (file other : Option String) :
      format config file = format config other :=
    funext fun source => format_inFile config other source
  refine ⟨session.answers, fun _ explicit => Session.answer_explicit explicit, ?_, ?_, ?_,
    fun _ => Session.active_perform, ?_⟩
  · intro formatter file
    exact ⟨formatter.returns_call file, formatter.returns_callMany file,
      formatter.returns_parse file, formatter.returns_render⟩
  · intro setup slot captured between made kept later
    have holds : later.formatters slot = ⟨captured⟩ :=
      (Session.formatters_reach kept).trans (Session.formatters_made made)
    refine ⟨by rw [holds], fun file source => ?_, fun file sources => ?_, fun file source => ?_⟩
    · rw [Session.perform_call, Session.perform_format, Setup.resolve_of, holds]
      rfl
    · rw [Session.perform_callMany, holds]
    · rw [Session.perform_callRender, holds]
  · intro setup file other slot
    refine ⟨fun source => ?_, fun source => ?_, fun sources => ?_⟩
    · simp only [Session.perform_format, anyFile _ file other]
    · simp only [Session.perform_call, anyFile _ file other]
    · simp only [Session.perform_callMany, anyFile _ file other]
  · intro setup inner valid nested inside
    have saved : inside.saved = session.active :: session.saved := by
      rw [show inside = (session.perform (.enter setup)).2.reach inner from rfl,
        Session.saved_reach nested, Session.saved_enter valid]
    rw [Session.perform_leave_of_saved saved]
    exact ⟨rfl, rfl⟩

/-- A session that indents with tabs, makes a formatter of that and another one beside it, and
enters a scope in which the active configuration is replaced twice more. -/
theorem session_answers_scopes :
    let session := ({} : Session).reach [.set ⟨some [("use_tabs".toList, .bool true)], none⟩]
    let narrow : Setup := ⟨some [("indent_size".toList, .int 2)], none⟩
    let later := (session.perform (.makeFormatter {} 0)).2.reach [.reset, .makeFormatter narrow 1]
    let inside := session.reach [.enter narrow, .reset, .enter {}, .leave]
    (session.perform (.call none "<p>".toList 0)).1 =
        ({ session with active := .default }.perform (.call none "<p>".toList 0)).1 ∧
      (∀ file source, later.perform (.call file source 0) =
        later.perform (.format (.of session.active) file source)) ∧
      (session.perform .get).2.active = session.active ∧
      (inside.perform .leave).2.active = session.active := by
  intro session narrow later inside
  obtain ⟨_, answers, _, formatter, _, keeps, leaves⟩ :=
    session_answers {} [.set ⟨some [("use_tabs".toList, .bool true)], none⟩]
  have made : (session.perform (.makeFormatter {} 0)).1 = .ok (.config session.active) := by
    rw [Session.perform_makeFormatter]
    rfl
  have nested : Command.Nested [.reset, .enter {}, .leave] :=
    .step rfl nofun (.scope rfl .nil .nil)
  have kept : ∀ step ∈ [Command.reset, .makeFormatter narrow 1], step.makes 0 = false := by
    simp [Command.makes]
  exact ⟨answers _ rfl .default, (formatter {} 0 _ _ made kept).2.1, keeps .get rfl,
    (leaves narrow _ (by decide +kernel) nested).2⟩

end BladeTemplate
