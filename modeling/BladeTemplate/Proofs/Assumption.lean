import BladeTemplate.Proofs.Frames
import BladeTemplate.Proofs.Registration
import BladeTemplate.Proofs.Verdict

/-!
# What matching relies on

Matching takes some things for granted: an opener or closer has a family, the frame to be closed is
there and of the right kind, the tokens end with one for the end of the template, and the kind of
an attribute token is one of the known kinds. Here the same work is done with each of these checked
where it is used, so that a broken assumption is an answer of its own.

* `Assumption` lists what can be broken;
* `Builder.tryBuild`, `tryParse` and `tryFormat` do the work with the checks;
* `tryFormat_eq` says that under a registry built by registration no assumption is ever broken.
-/

namespace BladeTemplate

/-- What is taken for granted while a template is matched: openers and closers have families, there
is a frame to be taken off and it is of the kind that is closed, there is a last token, and the kind
of an attribute is known. -/
inductive Assumption where
  | openerFamily
  | closerFamily
  | openFrame
  | elementFrame
  | blockFrame
  | lastToken
  | attributeKind (error : UnknownName)

/-! ## Matching with the checks -/

namespace Builder

/-- Give up the innermost frame, if there is one. -/
def tryAbandon (builder : Builder) (cause : Option Directive) : Except Assumption Builder :=
  if builder.stack.frames.isEmpty then .error .openFrame else .ok (builder.abandon cause)

/-- Give up the innermost `count` frames, if there are as many. -/
def tryAbandonMany (builder : Builder) (cause : Option Directive) :
    Nat → Except Assumption Builder
  | 0 => .ok builder
  | count + 1 => do
    let next ← builder.tryAbandon cause
    next.tryAbandonMany cause count

/-- Close the innermost frame, if it is an element. -/
def tryCloseElement (builder : Builder) (location : Location) (name : Chars) :
    Except Assumption Builder :=
  match builder.stack.frames with
  | [] => .error .openFrame
  | frame :: _ =>
    if frame.isBlock then .error .elementFrame else .ok (builder.closeElement location name)

/-- Close the innermost frame, if it is a block of the closer's family. -/
def tryCloseBlock (builder : Builder) (closer : Directive) (family : Chars) :
    Except Assumption Builder :=
  match builder.stack.frames with
  | [] => .error .openFrame
  | frame :: _ =>
    if frame.family? = some family then .ok (builder.closeBlock closer) else .error .blockFrame

def tryAddEndTag (builder : Builder) (location : Location) (content : Chars) :
    Except Assumption Builder :=
  match builder.stack.findElement (Tag.endTagName content) with
  | none => .ok (builder.addEndTag location content)
  | some above => do
    let inner ← builder.tryAbandonMany none above
    inner.tryCloseElement location (Tag.endTagName content)

def tryAddMiddle (builder : Builder) (directive : Directive) : Except Assumption Builder :=
  match directive.family, builder.stack.nearestBlock with
  | some _, some above => do
    let inner ← builder.tryAbandonMany (some directive) above
    return inner.append (.directive directive)
  | _, _ => .ok (builder.addMiddle directive)

def tryAddCloser (builder : Builder) (directive : Directive) (family : Chars) :
    Except Assumption Builder :=
  match builder.stack.findBlock family with
  | none => .ok (builder.addCloser directive family)
  | some above => do
    let inner ← builder.tryAbandonMany (some directive) above
    inner.tryCloseBlock directive family

def tryAddDirective (registry : Registry) (builder : Builder) (directive : Directive) :
    Except Assumption Builder :=
  match registry.lookup directive.writtenName with
  | none => .ok (builder.addDirective registry directive)
  | some descriptor =>
    let settled := settle descriptor builder.stack.openFamily directive
    match settled.pairing, settled.family with
    | .opens, none => .error .openerFamily
    | .closes, none => .error .closerFamily
    | .closes, some family => builder.tryAddCloser settled family
    | .middle, _ => builder.tryAddMiddle settled
    | _, _ => .ok (builder.addDirective registry directive)

/-- Add one item. -/
def tryAdd (registry : Registry) (builder : Builder) : Item → Except Assumption Builder
  | .directive directive => builder.tryAddDirective registry directive
  | .endTag location content => builder.tryAddEndTag location content
  | item => .ok (builder.add registry item)

/-- Match the items of a template. -/
def tryBuild (registry : Registry) (items : List Item) : Except Assumption Builder := do
  let builder ← items.foldlM (tryAdd registry) {}
  builder.tryAbandonMany none builder.stack.frames.length

end Builder

/-- Find the kind of every attribute among the tokens by its name. -/
def checkKinds : List Token → Except Assumption Unit
  | [] => .ok ()
  | token :: rest =>
    match token.kind with
    | .attributeName kind => do
      let _ ← (AttributeKind.named kind.name.toList).mapError .attributeKind
      checkKinds rest
    | _ => checkKinds rest

def tryParse (dialect : Dialect) (file : Option String) (source : Chars) :
    Except Assumption Parse :=
  let scan := scan dialect source
  match scan.fault with
  | some _ => .ok (parse dialect file source)
  | none => do
    let _ ← checkKinds scan.tokens
    let _ ← Builder.tryBuild dialect.registry
      (Item.ofTokens ⟨dialect.registry, file, source⟩ scan.tokens)
    if scan.tokens.isEmpty then .error .lastToken else .ok (parse dialect file source)

/-- Format a template: the template is parsed, and so is its result when it is to be checked. -/
def tryFormat (config : Config) (file : Option String) (source : Chars) :
    Except Assumption Outcome := do
  let first ← tryParse config.dialect file source
  match first.outcome with
  | .ok document =>
    if config.checkIdempotence then
      let _ ← tryParse (config.recheckDialect config) file (render config document)
  | .error _ => pure ()
  return format config file source

/-! ## No assumption is broken -/

namespace Builder

theorem tryAbandonMany_eq (builder : Builder) (cause : Option Directive) (count : Nat)
    (enough : count ≤ builder.stack.openings.length) :
    builder.tryAbandonMany cause count = .ok (builder.abandonMany cause count) := by
  induction count generalizing builder with
  | zero => rfl
  | succ count ih =>
    have some : builder.stack.frames.isEmpty = false := by
      cases frames : builder.stack.frames with
      | nil => simp [FrameStack.openings, frames] at enough
      | cons frame outer => rfl
    have rest := ih (builder.abandon cause) (by
      rw [openings_abandon, List.length_tail]
      omega)
    simp [tryAbandonMany, tryAbandon, some, rest, abandonMany, bind, Except.bind]

theorem tryCloseElement_eq (builder : Builder) (location : Location) (name : Chars)
    {kind : TagKind} {markup : Markup} {outer : List Opened}
    (top : builder.stack.openings = .element kind markup :: outer) :
    builder.tryCloseElement location name = .ok (builder.closeElement location name) := by
  unfold tryCloseElement
  cases frames : builder.stack.frames with
  | nil => simp [FrameStack.openings, frames] at top
  | cons frame rest =>
    have opened : frame.opened = .element kind markup := by
      simp only [FrameStack.openings, frames, List.map_cons, List.cons.injEq] at top
      exact top.1
    simp [Frame.isBlock, Frame.family?, opened]

theorem tryCloseBlock_eq (builder : Builder) (closer : Directive) (family : Chars) {frame : Frame}
    {outer : List Opened} (top : builder.stack.openings = frame.opened :: outer)
    (same : frame.family? = some family) :
    builder.tryCloseBlock closer family = .ok (builder.closeBlock closer) := by
  unfold tryCloseBlock
  cases frames : builder.stack.frames with
  | nil => simp [FrameStack.openings, frames] at top
  | cons innermost rest =>
    have opened : innermost.opened = frame.opened := by
      simp only [FrameStack.openings, frames, List.map_cons, List.cons.injEq] at top
      exact top.1
    have found : innermost.family? = some family := by
      rw [← same]
      simp only [Frame.family?, opened]
    simp [found]

theorem tryAddEndTag_eq (builder : Builder) (location : Location) (content : Chars) :
    builder.tryAddEndTag location content = .ok (builder.addEndTag location content) := by
  unfold tryAddEndTag
  split
  · rfl
  · next above found =>
    obtain ⟨kind, markup, outer, top, _⟩ := openings_of_findElement found
    have left := openings_abandonMany builder none above
    rw [tryAbandonMany_eq builder none above (length_of_drop_cons top)]
    unfold addEndTag
    simp only [found]
    exact tryCloseElement_eq _ location _ (left.trans top)

theorem tryAddMiddle_eq (builder : Builder) (directive : Directive) :
    builder.tryAddMiddle directive = .ok (builder.addMiddle directive) := by
  unfold tryAddMiddle
  split
  · next family above hasFamily found =>
    obtain ⟨frame, outer, top, _⟩ := openings_of_findIdx found
    rw [tryAbandonMany_eq builder _ above (length_of_drop_cons top)]
    unfold addMiddle
    simp only [hasFamily, found]
    rfl
  · rfl

theorem tryAddCloser_eq (builder : Builder) (directive : Directive) (family : Chars) :
    builder.tryAddCloser directive family = .ok (builder.addCloser directive family) := by
  unfold tryAddCloser
  split
  · rfl
  · next above found =>
    obtain ⟨frame, outer, top, same⟩ := openings_of_findIdx found
    have left := openings_abandonMany builder (some directive) above
    rw [tryAbandonMany_eq builder _ above (length_of_drop_cons top)]
    unfold addCloser
    simp only [found]
    exact tryCloseBlock_eq _ directive family (left.trans top) (by simpa using same)

theorem tryAddDirective_eq {registry : Registry} (families : registry.HasFamilies)
    (builder : Builder) (directive : Directive) :
    builder.tryAddDirective registry directive = .ok (builder.addDirective registry directive) := by
  unfold tryAddDirective
  split
  · rfl
  · next descriptor found =>
    have settled : (settle descriptor builder.stack.openFamily directive).pairing = .opens ∨
        (settle descriptor builder.stack.openFamily directive).pairing = .closes →
        (settle descriptor builder.stack.openFamily directive).family.isSome = true :=
      Descriptor.family_of_resolve (families _ (Registry.mem_of_lookup found)) _ _
    simp only
    split
    · next opens missing =>
      rw [missing] at settled
      cases settled (.inl opens)
    · next closes missing =>
      rw [missing] at settled
      cases settled (.inr closes)
    · next family closes hasFamily =>
      rw [tryAddCloser_eq]
      simp [addDirective, found, closes, hasFamily]
    · next middle =>
      rw [tryAddMiddle_eq]
      simp [addDirective, found, middle]
    · rfl

theorem tryAdd_eq {registry : Registry} (families : registry.HasFamilies) (builder : Builder)
    (item : Item) : builder.tryAdd registry item = .ok (builder.add registry item) := by
  cases item with
  | directive directive => exact tryAddDirective_eq families builder directive
  | endTag location content => exact tryAddEndTag_eq builder location content
  | text | echo | comment | region | startTag => rfl

/-- Matching breaks no assumption, whatever the items. -/
theorem tryBuild_eq {registry : Registry} (families : registry.HasFamilies) (items : List Item) :
    tryBuild registry items = .ok (build registry items) := by
  have fold (builder : Builder) :
      items.foldlM (tryAdd registry) builder =
        (.ok (items.foldl (add registry) builder) : Except Assumption Builder) := by
    induction items generalizing builder with
    | nil => rfl
    | cons item rest ih =>
      rw [List.foldlM_cons, tryAdd_eq families]
      exact ih _
  unfold tryBuild
  rw [fold]
  exact tryAbandonMany_eq _ none _ (by simp [FrameStack.openings])

end Builder

theorem checkKinds_eq (tokens : List Token) : checkKinds tokens = .ok () := by
  have known (kind : AttributeKind) : AttributeKind.named kind.name.toList = .ok kind := by
    cases kind <;> rfl
  induction tokens with
  | nil => rfl
  | cons token rest ih =>
    unfold checkKinds
    split
    · rw [known]
      exact ih
    · exact ih

/-- A run that reads to the end has a token there. -/
theorem ScanState.tokens_ne_nil (dialect : Dialect) (s : ScanState)
    (read : (s.run dialect).fault = none) : (s.run dialect).tokens ≠ [] := by
  induction s using run_induction dialect with
  | ended s atEnd =>
    unfold finish at read ⊢
    split
    · simp
    · next open_ => simp [open_] at read
  | failed s fault ahead h => cases read
  | stepped s next ahead h ih =>
    intro none
    exact ih read (List.append_eq_nil_iff.1 none).2

theorem scan_tokens_ne_nil (dialect : Dialect) (source : Chars)
    (read : (scan dialect source).fault = none) : (scan dialect source).tokens ≠ [] := by
  unfold scan at read ⊢
  simp only at read ⊢
  split at read
  · simp [Scan.after, ScanState.take]
  · exact ScanState.tokens_ne_nil dialect _ read

theorem tryParse_eq {dialect : Dialect} (families : dialect.registry.HasFamilies)
    (file : Option String) (source : Chars) :
    tryParse dialect file source = .ok (parse dialect file source) := by
  unfold tryParse
  simp only
  split
  · rfl
  · next read =>
    rw [checkKinds_eq, Builder.tryBuild_eq families]
    have some := scan_tokens_ne_nil dialect source read
    simp [some, bind, Except.bind]

/-- Formatting breaks no assumption under a registry built by registration. -/
theorem tryFormat_eq (config : Config) (file : Option String) (source : Chars)
    (built : ∀ registry, config.registry = some registry → registry.Built) :
    tryFormat config file source = .ok (format config file source) := by
  have families : config.activeRegistry.HasFamilies := by
    refine (Config.built_firstRegistry ?_).hasFamilies
    intro registry member
    exact built registry (List.mem_singleton.1 member).symm
  have again := config.recheckDialect_self
  unfold tryFormat
  rw [tryParse_eq families]
  simp only [bind, Except.bind]
  split
  · split
    · rw [again, tryParse_eq families]
      rfl
    · rfl
  · rfl

end BladeTemplate
