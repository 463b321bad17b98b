import BladeTemplate.Proofs.Coverage
import BladeTemplate.Proofs.Positions
import Mathlib.Data.List.Induction

/-!
# Counted positions

Line and column are kept while reading and handed on from token to item to node. Wherever they come
out, they are what counting in the template gives: one more than the line feeds before an offset,
and one more than the characters since the last of them.

* `Position.counted` is the position of an offset by counting;
* `Location.Sited` says that a location has counted positions at both ends, and `Sited.spanTo` that
  joining locations keeps it so;
* `FrameStack.Sited` is the invariant of matching, and `sited_of_parse` what follows for whole
  trees.
-/

namespace BladeTemplate

open Text

namespace Position

/-- The position of an offset: its line is counted in line feeds before it, its column in characters
since the last of them. -/
def counted (source : Chars) (n : Nat) : Position where
  offset := n
  line := 1 + (source.take n).count '\n'
  column := 1 + ((source.take n).reverse.takeWhile (· ≠ '\n')).length

theorem advance_start (text : Chars) :
    start.advance text =
      ⟨text.length, 1 + text.count '\n',
        1 + (text.reverse.takeWhile (· ≠ '\n')).length⟩ := by
  induction text using List.reverseRecOn with
  | nil => rfl
  | append_singleton text c ih =>
    rw [advance_append, ih]
    show step _ c = _
    unfold step
    by_cases feed : c = '\n'
    · simp [feed, Nat.add_assoc]
    · simp [feed, Nat.add_comm 1, Nat.add_assoc]

/-- Moving over a template counts its lines and columns. -/
theorem ofOffset_eq_counted {source : Chars} {n : Nat} (bound : n ≤ source.length) :
    ofOffset source n = counted source n := by
  rw [ofOffset, advance_start, List.length_take, Nat.min_eq_left bound]
  rfl

end Position

/-! ## Locations -/

/-- Both ends of the location are offsets of the template, with their counted lines and columns. -/
def Location.Sited (file : Option String) (source : Chars) (location : Location) : Prop :=
  ∃ first last, first ≤ source.length ∧ last ≤ source.length ∧
    location = .between file (.counted source first) (.counted source last)

/-- The location is sited and ends behind the start of the template. -/
structure Location.Fixed (file : Option String) (source : Chars) (location : Location) : Prop where
  sited : location.Sited file source
  behind : 0 < location.endOffset

namespace Location

variable {file : Option String} {source : Chars} {first last : Location}

theorem orElseZero_eq_self {n other : Int} (zero : n = 0 → other = 0) : orElseZero n other = n := by
  unfold orElseZero
  split
  · next none => rw [zero none, none]
  · rfl

/-- From the start of one location to the end of another. Only an end at the start of the template
would be passed over for the start of its location. -/
theorem Sited.spanTo (one : first.Sited file source) (other : last.Sited file source)
    (ends : last.endOffset = 0 → last.offset = 0) : (first.spanTo last).Sited file source := by
  obtain ⟨a, _, boundA, _, rfl⟩ := one
  obtain ⟨c, d, _, boundD, rfl⟩ := other
  refine ⟨a, d, boundA, boundD, ?_⟩
  have line : ((Position.counted source d).line : Int) ≠ 0 := by
    simp only [Position.counted]
    omega
  have column : ((Position.counted source d).column : Int) ≠ 0 := by
    simp only [Position.counted]
    omega
  unfold Location.spanTo
  rw [orElseZero_eq_self ends]
  simp only [between, Option.getD_some]
  rw [orElseZero_eq_self (absurd · line), orElseZero_eq_self (absurd · column)]

theorem Fixed.spanTo (one : first.Sited file source) (other : last.Fixed file source) :
    (first.spanTo last).Fixed file source := by
  have behind := other.behind
  refine ⟨one.spanTo other.sited (by omega), ?_⟩
  show 0 < orElseZero last.endOffset last.offset
  rw [orElseZero_eq_self (by omega)]
  exact behind

end Location

/-! ## Tokens -/

/-- The token has counted positions at both ends, and stops no earlier than it starts. -/
structure Token.Counted (source : Chars) (token : Token) : Prop where
  start : token.start = .counted source token.start.offset
  stop : token.stop = .counted source token.stop.offset
  ordered : token.start.offset ≤ token.stop.offset
  bound : token.stop.offset ≤ source.length

theorem Token.Counted.sited {source : Chars} {token : Token} (counted : token.Counted source)
    (file : Option String) : (token.location file).Sited file source := by
  refine ⟨token.start.offset, token.stop.offset, ?_, counted.bound, ?_⟩
  · exact Nat.le_trans counted.ordered counted.bound
  · rw [← counted.start, ← counted.stop]
    rfl

/-- Every token of a template has counted positions. -/
theorem counted_scan (dialect : Dialect) (source : Chars) :
    ∀ token ∈ (scan dialect source).tokens, token.Counted source := by
  intro token member
  have covered := (Place.covers_of_reads (reads_scan dialect source)).covered
  obtain ⟨a, b, placed, _, bound⟩ := covered.placed token member
  have located := sited_scan dialect source token member
  have ordered : token.start.offset ≤ token.stop.offset := by
    rw [placed.start, placed.stop]
    exact placed.ordered
  have within : token.stop.offset ≤ source.length := by
    rw [placed.stop]
    exact bound
  refine ⟨?_, ?_, ordered, within⟩
  · exact located.start.trans (Position.ofOffset_eq_counted (Nat.le_trans ordered within))
  · exact located.stop.trans (Position.ofOffset_eq_counted within)

/-! ## Items -/

/-- The location of an entry of a start tag, and that of its echo. -/
def Attribute.locations (entry : Attribute) : List Location :=
  entry.location :: (entry.echo.map (·.location)).toList

namespace Item

/-- The span of an item. -/
def location : Item → Location
  | .text location _ | .comment location _ | .region location _ _ | .endTag location _ => location
  | .echo read => read.location
  | .directive read => read.location
  | .startTag _ markup => markup.location

/-- The entries of an item that is a start tag. -/
def attributes : Item → List Attribute
  | .startTag _ markup => markup.attributes
  | _ => []

/-- The location of an item is sited and ends behind the start of the template, and those of the
entries of a start tag are sited. -/
structure Sited (file : Option String) (source : Chars) (item : Item) : Prop where
  place : item.location.Fixed file source
  entries : ∀ location ∈ item.attributes.flatMap Attribute.locations, location.Sited file source

variable {origin : Origin} {rest : List Token}

theorem sited_span {first last : Token} (one : first.Counted origin.source)
    (other : last.Counted origin.source) :
    (span origin first last).Sited origin.file origin.source := by
  refine (one.sited origin.file).spanTo (other.sited origin.file) ?_
  intro zero
  have ordered := other.ordered
  have stop : (last.stop.offset : Int) = 0 := zero
  show (last.start.offset : Int) = 0
  omega

theorem mem_of_nextIs {kind : TokenKind} {token : Token} (found : nextIs kind rest = some token) :
    token ∈ rest := by
  unfold nextIs at found
  split at found
  · cases found
  · split at found
    · cases found
      exact List.mem_cons_self
    · cases found

theorem sited_readEcho (style : EchoStyle) {opening : Token}
    (first : opening.Counted origin.source) (later : ∀ token ∈ rest, token.Counted origin.source) :
    (readEcho origin style opening rest).1.location.Sited origin.file origin.source := by
  unfold readEcho
  split
  · next found => exact sited_span first (later _ (List.mem_of_mem_drop (mem_of_nextIs found)))
  · exact sited_span first first

theorem sited_readComment {opening : Token} (first : opening.Counted origin.source)
    (later : ∀ token ∈ rest, token.Counted origin.source) :
    (readComment origin opening rest).1.Sited origin.file origin.source := by
  unfold readComment
  split
  · next found => exact sited_span first (later _ (List.mem_of_mem_drop (mem_of_nextIs found)))
  · exact sited_span first first

theorem mem_of_readArguments {inside : Chars} {last : Token} {count : Nat}
    (found : readArguments rest = some (inside, last, count)) : last ∈ rest := by
  unfold readArguments at found
  split at found
  · cases found
  · split at found <;>
    · obtain ⟨closing, closes, same⟩ := Option.map_eq_some_iff.1 found
      cases same
      exact List.mem_of_mem_drop (mem_of_nextIs closes)

theorem sited_readDirective {name : Token} (first : name.Counted origin.source)
    (later : ∀ token ∈ rest, token.Counted origin.source) :
    (readDirective origin name rest).1.location.Sited origin.file origin.source := by
  unfold readDirective
  simp only
  split
  · next found => exact sited_span first (later _ (mem_of_readArguments found))
  · exact sited_span first first

theorem sited_readAttribute (kind : AttributeKind) {name : Token} {value : Option Token}
    (first : name.Counted origin.source)
    (last : ∀ token, value = some token → token.Counted origin.source) :
    ∀ location ∈ (readAttribute origin kind name value).locations,
      location.Sited origin.file origin.source := by
  refine List.forall_mem_singleton.2 (sited_span first ?_)
  cases value with
  | none => exact first
  | some token => exact last token rfl

theorem counted_drop {source : Chars} {first : Token}
    (counted : ∀ token ∈ first :: rest, token.Counted source) (count : Nat) :
    ∀ token ∈ rest.drop count, token.Counted source :=
  fun token member => counted token (List.mem_cons_of_mem _ (List.mem_of_mem_drop member))

/-- The entries of a start tag are sited, and its end is counted. -/
theorem sited_readEntries (tokens : List Token)
    (counted : ∀ token ∈ tokens, token.Counted origin.source) :
    (∀ location ∈ (readEntries origin tokens).1.flatMap Attribute.locations,
      location.Sited origin.file origin.source) ∧
    ∀ closing, (readEntries origin tokens).2.1 = some closing →
      closing.Counted origin.source := by
  fun_induction readEntries origin tokens with
  | case1 => simp
  | case2 token rest kind =>
    refine ⟨by simp, ?_⟩
    rintro closing ⟨⟩
    exact counted token List.mem_cons_self
  | case3 token rest kind nameKind value used later ih =>
    obtain ⟨entries, closes⟩ := ih (counted_drop counted used)
    refine ⟨?_, closes⟩
    rw [List.flatMap_cons, List.forall_mem_append]
    refine ⟨sited_readAttribute kind (counted token List.mem_cons_self) ?_, entries⟩
    intro last found
    exact counted last (List.mem_cons_of_mem _ (mem_of_nextIs found))
  | case4 token rest style openKind read later ih =>
    obtain ⟨entries, closes⟩ := ih (counted_drop counted read.2)
    rw [List.forall_mem_cons] at counted
    have echo := sited_readEcho style counted.1 counted.2
    refine ⟨?_, closes⟩
    rw [List.flatMap_cons, List.forall_mem_append]
    exact ⟨by simpa [Attribute.locations, echoEntry] using echo, entries⟩
  | case5 token rest openKind read later ih =>
    obtain ⟨entries, closes⟩ := ih (counted_drop counted read.2)
    rw [List.forall_mem_cons] at counted
    have comment := sited_readComment counted.1 counted.2
    refine ⟨?_, closes⟩
    rw [List.flatMap_cons, List.forall_mem_append]
    exact ⟨by simpa [Attribute.locations, commentEntry] using comment, entries⟩
  | case6 => simp

theorem sited_readStartTag {opening : Token} (first : opening.Counted origin.source)
    (later : ∀ token ∈ rest, token.Counted origin.source) :
    (readStartTag origin opening rest).1.location.Sited origin.file origin.source ∧
      ∀ location ∈ (readStartTag origin opening rest).1.attributes.flatMap Attribute.locations,
        location.Sited origin.file origin.source := by
  obtain ⟨entries, closes⟩ := sited_readEntries rest later
  refine ⟨sited_span first ?_, entries⟩
  cases found : (readEntries origin rest).2.1 with
  | none => exact first
  | some closing => exact closes closing found

/-- Items put together from counted tokens have sited locations. -/
theorem locations_ofTokens (tokens : List Token)
    (counted : ∀ token ∈ tokens, token.Counted origin.source) :
    ∀ item ∈ ofTokens origin tokens, item.location.Sited origin.file origin.source ∧
      ∀ location ∈ item.attributes.flatMap Attribute.locations,
        location.Sited origin.file origin.source := by
  fun_induction ofTokens origin tokens with
  | case1 | case2 => simp
  | case3 name rest kind read ih =>
    have behind := ih (counted_drop counted read.2)
    rw [List.forall_mem_cons] at counted
    exact List.forall_mem_cons.2
      ⟨⟨sited_readDirective counted.1 counted.2, by simp [attributes]⟩, behind⟩
  | case4 opening rest style kind read ih =>
    have behind := ih (counted_drop counted read.2)
    rw [List.forall_mem_cons] at counted
    exact List.forall_mem_cons.2
      ⟨⟨sited_readEcho style counted.1 counted.2, by simp [attributes]⟩, behind⟩
  | case5 opening rest kind read ih =>
    have behind := ih (counted_drop counted read.2)
    rw [List.forall_mem_cons] at counted
    exact List.forall_mem_cons.2
      ⟨⟨sited_readComment counted.1 counted.2, by simp [attributes]⟩, behind⟩
  | case6 opening rest kind openKind read ih =>
    have behind := ih (counted_drop counted read.2)
    rw [List.forall_mem_cons] at counted
    exact List.forall_mem_cons.2 ⟨sited_readStartTag counted.1 counted.2, behind⟩
  | case7 token rest _ _ ih | case8 token rest _ _ _ _ _ _ _ _ ih
  | case9 token rest _ _ _ _ _ _ _ ih =>
    rw [List.forall_mem_cons] at counted
    exact List.forall_mem_cons.2
      ⟨⟨counted.1.sited origin.file, by simp [attributes]⟩, ih counted.2⟩

/-- An item has a place of its own. -/
theorem Covers.spans {source : Chars} {item : Item} {a b : Nat}
    (covers : item.Covers source a b) : item.location.Spans a b ∧ a < b := by
  cases covers with
  | text spans some | comment spans some | region spans some => exact ⟨spans, some⟩
  | echo written => exact ⟨written.spans, written.nonempty⟩
  | directive written => exact ⟨written.spans, written.nonempty⟩
  | startTag _ spans opens => exact ⟨spans, opens.nonempty⟩
  | endTag _ spans shape =>
    have some : cut source a b ≠ [] := by
      rw [shape]
      exact List.cons_ne_nil _ _
    exact ⟨spans, lt_of_cut_ne_nil some⟩

/-- Items that tile a template end behind its start. -/
theorem behind_of_tiles {source : Chars} {items : List Item} {a b : Nat}
    (tiles : Tiles (Covers source) items a b) : ∀ item ∈ items, 0 < item.location.endOffset := by
  induction tiles with
  | nil => simp
  | cons covers _ ih =>
    obtain ⟨spans, some⟩ := covers.spans
    have ends := spans.endOffset
    exact List.forall_mem_cons.2 ⟨by omega, ih⟩

end Item

/-- The items of a template that reads without fault are sited. -/
theorem sited_items (dialect : Dialect) (file : Option String) (source : Chars)
    (read : (scan dialect source).fault = none) :
    ∀ item ∈ Item.ofTokens ⟨dialect.registry, file, source⟩ (scan dialect source).tokens,
      item.Sited file source := by
  intro item member
  obtain ⟨place, entries⟩ := @Item.locations_ofTokens ⟨dialect.registry, file, source⟩ _
    (counted_scan dialect source) item member
  exact ⟨⟨place, Item.behind_of_tiles (tiles_ofTokens dialect file source read) item member⟩,
    entries⟩

/-! ## Nodes -/

namespace Node

/-- The location of a node, and those of the entries of its start tag. -/
def locations (node : Node) : List Location :=
  node.location :: node.attributes.flatMap Attribute.locations

/-- The locations of a node and of all below it are sited. -/
def Sited (file : Option String) (source : Chars) (node : Node) : Prop :=
  ∀ part ∈ node.walk, ∀ location ∈ part.locations, location.Sited file source

variable {file : Option String} {source : Chars} {node : Node}

theorem sited_leaf (leaf : node.walk = [node]) (bare : node.attributes = [])
    (sited : node.location.Sited file source) : node.Sited file source := by
  unfold Sited locations
  rw [leaf, List.forall_mem_singleton, bare]
  exact List.forall_mem_singleton.2 sited

theorem sited_walkAll {nodes : List Node} (sited : ∀ node ∈ nodes, node.Sited file source) :
    ∀ part ∈ walkAll nodes, ∀ location ∈ part.locations, location.Sited file source := by
  intro part member
  rw [walkAll_eq, List.mem_flatMap] at member
  obtain ⟨node, inside, below⟩ := member
  exact sited node inside part below

/-- A block is sited if its opener, its children and its closer are. -/
theorem sited_blockNode {frame : Frame} {opener : Directive} (family : Chars)
    (indentsMiddles : Bool) {closer : Option Directive}
    (whole : (Builder.blockNode frame opener family indentsMiddles closer).location.Sited file
      source)
    (opens : opener.location.Sited file source)
    (children : ∀ node ∈ frame.body.children, node.Sited file source)
    (closes : ∀ last, closer = some last → last.location.Sited file source) :
    (Builder.blockNode frame opener family indentsMiddles closer).Sited file source := by
  intro part member
  unfold Builder.blockNode at member whole
  rw [walk, List.cons_append, List.cons_append, List.mem_cons, List.mem_cons, List.mem_append]
    at member
  rcases member with rfl | rfl | inside | last
  · exact List.forall_mem_singleton.2 whole
  · exact List.forall_mem_singleton.2 opens
  · exact sited_walkAll children part inside
  · obtain ⟨found, closing, rfl⟩ := Option.map_eq_some_iff.1 (Option.mem_toList.1 last)
    exact List.forall_mem_singleton.2 (closes found closing)

/-- Markup is sited if its start tag and its children are. -/
theorem sited_markupNode (kind : TagKind) {markup : Markup} (void : Bool) {children : List Node}
    (whole : markup.location.Sited file source)
    (entries : ∀ location ∈ markup.attributes.flatMap Attribute.locations,
      location.Sited file source)
    (below : ∀ node ∈ children, node.Sited file source) :
    (Builder.markupNode kind markup void children).Sited file source := by
  have kept (keep : Node → Bool) :
      ∀ node ∈ children.filter keep, node.Sited file source :=
    fun node member => below node (List.mem_filter.1 member).1
  intro part member
  cases kind with
  | element | slot =>
    rw [Builder.markupNode, walk, List.mem_cons] at member
    rcases member with rfl | inside
    · exact List.forall_mem_cons.2 ⟨whole, entries⟩
    · exact sited_walkAll below part inside
  | component =>
    rw [Builder.markupNode, walk, List.cons_append, List.mem_cons, List.mem_append] at member
    rcases member with rfl | slots | rest
    · exact List.forall_mem_cons.2 ⟨whole, entries⟩
    · exact sited_walkAll (kept _) part slots
    · exact sited_walkAll (kept _) part rest

theorem location_markupNode (kind : TagKind) (markup : Markup) (void : Bool)
    (children : List Node) :
    (Builder.markupNode kind markup void children).location = markup.location := by
  cases kind <;> rfl

end Node

/-! ## Matching -/

/-- The children so far are sited, and so is the last one added. -/
structure Body.Sited (file : Option String) (source : Chars) (body : Body) : Prop where
  children : ∀ node ∈ body.children, node.Sited file source
  last : ∀ location, body.last = some location → location.Fixed file source

/-- What opened a frame is sited. -/
def Opened.Sited (file : Option String) (source : Chars) : Opened → Prop
  | .block opener _ _ => opener.location.Sited file source
  | .element _ markup => ∀ location ∈ markup.attributes.flatMap Attribute.locations,
      location.Sited file source

/-- An open frame is sited: its start, what opened it, and its children so far. -/
structure Frame.Sited (file : Option String) (source : Chars) (frame : Frame) : Prop where
  start : frame.start.Fixed file source
  opened : frame.opened.Sited file source
  body : frame.body.Sited file source

/-- Everything in a tree under construction is sited. -/
structure FrameStack.Sited (file : Option String) (source : Chars) (stack : FrameStack) : Prop where
  root : stack.root.Sited file source
  frames : ∀ frame ∈ stack.frames, frame.Sited file source

section matching

variable {file : Option String} {source : Chars}

theorem Body.sited_empty : ({} : Body).Sited file source :=
  ⟨by simp [children], by simp⟩

theorem Body.Sited.append {body : Body} (sited : body.Sited file source) {node : Node}
    (known : node.Sited file source) (place : node.location.Fixed file source) :
    (body.append node).Sited file source := by
  have children := sited.children
  unfold Body.append
  split
  · next location content before head older joined =>
    -- The joined text runs from the start of the first to the end of the second.
    unfold Body.children at children
    rw [joined, List.reverse_cons, List.forall_mem_append, List.forall_mem_singleton] at children
    have first : before.Sited file source :=
      children.2 _ List.mem_cons_self _ List.mem_cons_self
    have both : (before.spanTo location).Fixed file source := .spanTo first place
    refine ⟨?_, ?_⟩
    · unfold Body.children
      rw [List.reverse_cons, List.forall_mem_append, List.forall_mem_singleton]
      exact ⟨children.1, Node.sited_leaf rfl rfl both.sited⟩
    · rintro found ⟨⟩
      exact place
  · refine ⟨?_, ?_⟩
    · unfold Body.children
      rw [List.reverse_cons, List.forall_mem_append, List.forall_mem_singleton]
      exact ⟨children, known⟩
    · rintro found ⟨⟩
      exact place

theorem Frame.Sited.last {frame : Frame} (sited : frame.Sited file source) :
    (frame.body.last.getD frame.start).Fixed file source := by
  cases found : frame.body.last with
  | none => exact sited.start
  | some location => exact sited.body.last location found

theorem FrameStack.Sited.append {stack : FrameStack} (sited : stack.Sited file source)
    {node : Node} (known : node.Sited file source) (place : node.location.Fixed file source) :
    (stack.append node).Sited file source := by
  unfold FrameStack.append
  split
  · exact ⟨sited.root.append known place, sited.frames⟩
  · next frame outer top =>
    have frames := sited.frames
    rw [top, List.forall_mem_cons] at frames
    obtain ⟨⟨start, opened, body⟩, outside⟩ := frames
    exact ⟨sited.root, List.forall_mem_cons.2 ⟨⟨start, opened, body.append known place⟩, outside⟩⟩

namespace Builder

variable {registry : Registry} {builder : Builder}

theorem sited_leaf (sited : builder.stack.Sited file source) {node : Node}
    (leaf : node.walk = [node]) (bare : node.attributes = [])
    (place : node.location.Fixed file source) : (builder.append node).stack.Sited file source :=
  sited.append (Node.sited_leaf leaf bare place.sited) place

theorem sited_pop (sited : builder.stack.Sited file source) {frame : Frame} {outer : List Frame}
    (top : builder.stack.frames = frame :: outer) :
    frame.Sited file source ∧ (builder.within outer).stack.Sited file source := by
  have frames := sited.frames
  rw [top, List.forall_mem_cons] at frames
  exact ⟨frames.1, sited.root, frames.2⟩

theorem sited_push (sited : builder.stack.Sited file source) {opened : Opened}
    {start : Location} (place : start.Fixed file source) (known : opened.Sited file source) :
    (builder.within (⟨opened, start, {}⟩ :: builder.stack.frames)).stack.Sited file source :=
  ⟨sited.root, List.forall_mem_cons.2 ⟨⟨place, known, Body.sited_empty⟩, sited.frames⟩⟩

/-- A block that ends at its closer, or where its last child does. -/
theorem sited_closeBlock (sited : builder.stack.Sited file source) {opener : Directive}
    {family : Chars} {indentsMiddles : Bool} {start : Location} {body : Body} {outer : List Frame}
    (top : builder.stack.frames = ⟨.block opener family indentsMiddles, start, body⟩ :: outer)
    {closer : Option Directive}
    (closes : ∀ last, closer = some last → last.location.Fixed file source) :
    ((builder.within outer).stack.append
      (blockNode ⟨.block opener family indentsMiddles, start, body⟩ opener family indentsMiddles
        closer)).Sited file source := by
  obtain ⟨frame, around⟩ := sited_pop sited top
  have last : ((closer.map (·.location)).getD (body.last.getD start)).Fixed file source := by
    cases closer with
    | none => exact frame.last
    | some found => exact closes found rfl
  have whole := Location.Fixed.spanTo frame.start.sited last
  exact around.append (Node.sited_blockNode family indentsMiddles whole.sited frame.opened
    frame.body.children fun found closing => (closes found closing).sited) whole

/-- Markup that ends at its end tag, or where its last child does. -/
theorem sited_closeMarkup (sited : builder.stack.Sited file source) {kind : TagKind}
    {opening markup : Markup} {start last : Location} {body : Body} {outer : List Frame}
    (top : builder.stack.frames = ⟨.element kind opening, start, body⟩ :: outer)
    (sameEntries : markup.attributes = opening.attributes)
    (place : markup.location = start.spanTo last) (ends : last.Fixed file source) :
    ((builder.within outer).stack.append (markupNode kind markup false body.children)).Sited file
      source := by
  obtain ⟨frame, around⟩ := sited_pop sited top
  have whole : markup.location.Fixed file source := by
    rw [place]
    exact .spanTo frame.start.sited ends
  refine around.append (Node.sited_markupNode kind false whole.sited ?_ frame.body.children) ?_
  · rw [sameEntries]
    exact frame.opened
  · rw [Node.location_markupNode]
    exact whole

theorem sited_abandon (sited : builder.stack.Sited file source) (cause : Option Directive) :
    (builder.abandon cause).stack.Sited file source := by
  cases frames : builder.stack.frames with
  | nil =>
    rw [abandon_root cause frames]
    exact sited
  | cons frame outer =>
    obtain ⟨opened, start, body⟩ := frame
    cases opened with
    | block opener family indentsMiddles =>
      rw [(abandon_block cause frames).1]
      exact sited_closeBlock sited frames (by simp)
    | element kind markup =>
      rw [(abandon_element cause frames).1]
      exact sited_closeMarkup sited frames rfl rfl (sited_pop sited frames).1.last

theorem sited_abandonMany (sited : builder.stack.Sited file source) (cause : Option Directive)
    (count : Nat) : (builder.abandonMany cause count).stack.Sited file source := by
  induction count generalizing builder with
  | zero => exact sited
  | succ count ih => exact ih (sited_abandon sited cause)

theorem Settles.fixed {written directive : Directive}
    (settles : Settles registry builder written directive)
    (place : written.location.Fixed file source) : directive.location.Fixed file source := by
  rw [settles.location]
  exact place

/-- Adding a sited item. -/
theorem sited_of_adds {item : Item} {next : Builder} (adds : Adds registry builder item next)
    (known : item.Sited file source) (sited : builder.stack.Sited file source) :
    next.stack.Sited file source := by
  have place := known.place
  cases adds with
  | text | echo | comment | region | unregistered => exact sited_leaf sited rfl rfl place
  | @single kind markup void _ =>
    refine sited.append (Node.sited_markupNode kind void place.sited known.entries (by simp)) ?_
    rw [Node.location_markupNode]
    exact place
  | startTag => exact sited_push sited place known.entries
  | strayEnd => exact sited_leaf (show (report _ _).stack.Sited file source from sited) rfl rfl place
  | endTag _ top => exact sited_closeMarkup (sited_abandonMany sited _ _) top rfl rfl place
  | opener indentsMiddles settles =>
    have opens := settles.fixed place
    exact sited_push sited opens opens.sited
  | closer settles _ _ _ top =>
    refine sited_closeBlock (sited_abandonMany sited _ _) top ?_
    rintro last ⟨⟩
    exact settles.fixed place
  | orphanCloser settles | orphanMiddle settles =>
    exact sited_leaf (show (report _ _).stack.Sited file source from sited) rfl rfl
      (settles.fixed place)
  | middle settles => exact sited_leaf (sited_abandonMany sited _ _) rfl rfl (settles.fixed place)
  | standalone settles => exact sited_leaf sited rfl rfl (settles.fixed place)

theorem sited_foldl {items : List Item} (known : ∀ item ∈ items, item.Sited file source)
    (sited : builder.stack.Sited file source) :
    (items.foldl (add registry) builder).stack.Sited file source := by
  induction items generalizing builder with
  | nil => exact sited
  | cons item rest ih =>
    rw [List.forall_mem_cons] at known
    exact ih known.2 (sited_of_adds (adds_add registry builder item) known.1 sited)

/-- Matching sited items gives a sited tree. -/
theorem sited_build (registry : Registry) {items : List Item}
    (known : ∀ item ∈ items, item.Sited file source) :
    (build registry items).stack.Sited file source := by
  have start : ({} : Builder).stack.Sited file source := ⟨Body.sited_empty, by simp⟩
  exact sited_abandonMany (sited_foldl known start) none _

end Builder

end matching

/-! ## Whole trees -/

/-- The last token of a template that reads without fault starts at the end of the template. -/
theorem stop_of_scan (dialect : Dialect) (source : Chars)
    (read : (scan dialect source).fault = none) :
    ((scan dialect source).tokens.getLast?.map (·.start)).getD .start =
      .counted source source.length := by
  have ended := (Place.covers_of_reads (reads_scan dialect source)).covered.ended
  rw [read] at ended
  obtain ⟨body, last, split, _, eof, rfl, _, placed⟩ := ended
  have counted := counted_scan dialect source eof (by simp [split])
  rw [split, List.getLast?_concat, Option.map_some, Option.getD_some, counted.start, placed.start]

/-- Every location in the tree of a template is sited. -/
theorem sited_of_parse {dialect : Dialect} {file : Option String} {source : Chars}
    {document : Document} (parsed : (parse dialect file source).outcome = .ok document) :
    document.toNode.Sited file source := by
  unfold parse at parsed
  simp only at parsed
  split at parsed
  · cases parsed
  · next read =>
    cases parsed
    have built := Builder.sited_build dialect.registry (sited_items dialect file source read)
    refine List.forall_mem_cons.2 ⟨List.forall_mem_singleton.2 ?_,
      Node.sited_walkAll built.root.children⟩
    refine ⟨0, source.length, Nat.zero_le _, Nat.le_refl _, ?_⟩
    simp only [Node.location, stop_of_scan dialect source read]
    rfl

end BladeTemplate
