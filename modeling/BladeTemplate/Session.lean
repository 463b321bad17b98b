import BladeTemplate.Ambient

/-!
# Sessions

A session has an active configuration, which is used wherever none is given. It can be set, reset,
or replaced for a while; whatever happens in between, leaving restores the configuration from
before the matching enter. Any number of formatters can be kept, each with the configuration it was
made with.

* `Command` is one step of a session;
* `Session.perform` carries it out and answers.
-/

namespace BladeTemplate

/-- One step of a session. `leave` restores the configuration from before the innermost `enter`.
Formatters are kept in numbered slots; a step that does not say which one means slot zero. -/
inductive Command where
  | set (setup : Setup)
  | reset
  | get
  | enter (setup : Setup)
  | leave
  | format (setup : Setup) (file : Option String) (source : Chars)
  | parse (setup : Setup) (file : Option String) (source : Chars)
  | render (setup : Setup) (file : Option String) (source : Chars)
  | makeFormatter (setup : Setup) (slot : Nat := 0)
  | call (file : Option String) (source : Chars) (slot : Nat := 0)
  | callMany (file : Option String) (sources : List Chars) (slot : Nat := 0)
  | callRender (file : Option String) (source : Chars) (slot : Nat := 0)

/-- What a step answers. Of a tree it is the number of nodes and the diagnostics. -/
inductive Reply where
  | config (config : Config)
  | outcome (outcome : Outcome)
  | outcomes (outcomes : List Outcome)
  | parsed (nodes : Nat) (diagnostics : List Diagnostic)
  | text (text : Chars)

/-- The state of a session: the active configuration, those to restore, innermost first, and the
formatters that have been made, by slot. -/
structure Session where
  active : Config := .default
  saved : List Config := []
  formatters : Nat → Formatter := fun _ => {}

namespace Session

/-- What is answered about a tree. -/
def parsed (document : Document) : Reply :=
  .parsed document.toNode.walk.length document.diagnostics

/-- Keep a formatter in a slot. -/
def keep (session : Session) (slot : Nat) (formatter : Formatter) : Session :=
  { session with
    formatters := fun other => if other = slot then formatter else session.formatters other }

/-- The work of a step: its answer, and the session as far as the active configuration is not
concerned. -/
def work (session : Session) : Command → Ambient (Reply × Session)
  | .set setup => do
    set (← Ambient.meant setup)
    return (.config (← get), session)
  | .reset => do
    set Config.default
    return (.config (← get), session)
  | .get => return (.config (← get), session)
  | .enter setup => do
    let config ← Ambient.meant setup
    let previous ← get
    set config
    return (.config (← get), { session with saved := previous :: session.saved })
  | .leave => do
    match session.saved with
    | [] => return (.config (← get), session)
    | previous :: outer =>
      set previous
      return (.config (← get), { session with saved := outer })
  | .format setup file source => do
    return (.outcome (← Ambient.format setup file source), session)
  | .parse setup file source => do
    return (parsed (← Ambient.parse setup file source), session)
  | .render setup file source => do
    let document ← Ambient.parse setup file source
    return (.text (← Ambient.render none document), session)
  | .makeFormatter setup slot => do
    let formatter ← Formatter.make setup
    return (.config formatter.config, session.keep slot formatter)
  | .call file source slot => do
    return (.outcome (← (session.formatters slot).call file source), session)
  | .callMany file sources slot => do
    return (.outcomes (← (session.formatters slot).callMany file sources), session)
  | .callRender file source slot => do
    let document ← (session.formatters slot).parse file source
    return (.text (← (session.formatters slot).render document), session)

def perform (session : Session) (command : Command) : Except SessionError Reply × Session :=
  match (session.work command).run session.active with
  | .ok (reply, next) active => (.ok reply, { next with active })
  | .error error active => (.error error, { session with active })

def run (session : Session) : List Command → List (Except SessionError Reply) × Session
  | [] => ([], session)
  | command :: rest =>
    let (reply, next) := session.perform command
    let (replies, last) := next.run rest
    (reply :: replies, last)

end Session
end BladeTemplate
