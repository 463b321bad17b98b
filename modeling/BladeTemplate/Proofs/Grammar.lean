import BladeTemplate.Proofs.Search
import BladeTemplate.Proofs.Span

/-!
# The grammar of tokens

The tokens of a template follow a grammar, and the grammar covers the template: every token starts
where the one before it stops, but for white space and the equals sign inside a construct. A fault
cuts the tokens short, and those before it follow the grammar as far as they go.

* `InlineGap`, `TagGap` and `EqualsGap` are what may lie between two tokens;
* `Reads` is the grammar, from a place in the template on.
-/

namespace BladeTemplate

open Text Lookahead

/-- Where in a template the grammar goes on: at its start, where front matter may stand, between
constructs, at an argument list, inside the start tag of the given name or at a value in it, at the
body of an element that is not read as markup, or at the end tag behind it. -/
inductive Place where
  | start
  | content
  | arguments
  | tag (name : Chars)
  | value (name : Chars)
  | rawBody (name : Chars)
  | rawEnd

/-- Nothing but spaces from one offset to another. -/
structure InlineGap (source : Chars) (first last : Nat) : Prop where
  ordered : first ≤ last
  spaces : ∀ c ∈ cut source first last, isInlineSpace c = true

/-- Nothing but the white space of start tags from one offset to another. -/
structure TagGap (source : Chars) (first last : Nat) : Prop where
  ordered : first ≤ last
  spaces : ∀ c ∈ cut source first last, isTagSpace c = true

/-- An equals sign, with white space around it. -/
structure EqualsGap (source : Chars) (first last : Nat) : Prop where
  parts : ∃ sign, TagGap source first sign ∧ cut source sign (sign + 1) = ['='] ∧
    TagGap source (sign + 1) last

/-- Tokens that are a construct by themselves. -/
def TokenKind.isLeaf : TokenKind → Bool
  | .text | .markupComment | .declaration | .verbatim | .rawCode => true
  | _ => false

/-- The three tokens of an echo. -/
structure EchoAt (source : Chars) (style : EchoStyle) (opening content closing : Token)
    (first last : Nat) : Prop where
  openingKind : opening.kind = .echoOpen style
  contentKind : content.kind = .echoContent style
  closingKind : closing.kind = .echoClose style
  opener : opening.value = style.opener
  closer : closing.value = style.closer
  placed : ∃ a b, opening.At source first a ∧ content.At source a b ∧ closing.At source b last

/-- The three tokens of a template comment. -/
structure CommentAt (source : Chars) (opening content closing : Token) (first last : Nat) :
    Prop where
  openingKind : opening.kind = .commentOpen
  contentKind : content.kind = .commentContent
  closingKind : closing.kind = .commentClose
  opener : opening.value = commentOpener
  closer : closing.value = commentCloser
  placed : ∃ a b, opening.At source first a ∧ content.At source a b ∧ closing.At source b last

/-- The tokens from an offset on, at a place of the grammar: up to the end of the template or, in a
template with a fault, up to anywhere. -/
inductive Reads (source : Chars) (faulted : Bool) : Place → Nat → List Token → Prop
  | eof {n : Nat} {token : Token} : faulted = false → token.kind = .eof → token.At source n n →
      n = source.length → Reads source faulted .content n [token]
  | stop {place : Place} {n : Nat} : faulted = true → n ≤ source.length →
      Reads source faulted place n []
  | front {n m : Nat} {token : Token} {rest : List Token} : token.kind = .frontMatter →
      token.At source n m → n < m → Reads source faulted .content m rest →
      Reads source faulted .start n (token :: rest)
  | noFront {n : Nat} {tokens : List Token} : Reads source faulted .content n tokens →
      Reads source faulted .start n tokens
  | leaf {n m : Nat} {token : Token} {rest : List Token} : token.kind.isLeaf = true →
      token.At source n m → n < m → Reads source faulted .content m rest →
      Reads source faulted .content n (token :: rest)
  | endTag {n m : Nat} {token : Token} {kind : TagKind} {rest : List Token} (inside : Chars) :
      token.kind = .endTag kind → token.At source n m →
      token.value = ['<', '/'] ++ inside ++ ['>'] → '>' ∉ inside →
      Reads source faulted .content m rest → Reads source faulted .content n (token :: rest)
  | echo {n m : Nat} {style : EchoStyle} {opening content closing : Token} {rest : List Token} :
      EchoAt source style opening content closing n m → Reads source faulted .content m rest →
      Reads source faulted .content n (opening :: content :: closing :: rest)
  | comment {n m : Nat} {opening content closing : Token} {rest : List Token} :
      CommentAt source opening content closing n m → Reads source faulted .content m rest →
      Reads source faulted .content n (opening :: content :: closing :: rest)
  | directive {n m : Nat} {name : Token} {written : Chars} {rest : List Token} :
      name.kind = .directiveName → name.At source n m → name.value = '@' :: written →
      Reads source faulted .content m rest → Reads source faulted .content n (name :: rest)
  | directiveWith {n m k : Nat} {name : Token} {written : Chars} {rest : List Token} :
      name.kind = .directiveName → name.At source n m → name.value = '@' :: written →
      InlineGap source m k → Reads source faulted .arguments k rest →
      Reads source faulted .content n (name :: rest)
  | noArguments {n m k : Nat} {opening closing : Token} {rest : List Token} :
      opening.kind = .argumentsOpen → opening.At source n m → opening.value = ['('] →
      closing.kind = .argumentsClose → closing.At source m k → closing.value = [')'] →
      Reads source faulted .content k rest →
      Reads source faulted .arguments n (opening :: closing :: rest)
  | arguments {n m k l : Nat} {opening inside closing : Token} {rest : List Token} :
      opening.kind = .argumentsOpen → opening.At source n m → opening.value = ['('] →
      inside.kind = .arguments → inside.At source m k →
      closing.kind = .argumentsClose → closing.At source k l → closing.value = [')'] →
      Reads source faulted .content l rest →
      Reads source faulted .arguments n (opening :: inside :: closing :: rest)
  | tagOpen {n m : Nat} {opening : Token} {name : Chars} {rest : List Token} :
      opening.kind = .tagOpen (Tag.kindOf name) → opening.At source n m →
      opening.value = '<' :: name → name ≠ [] → (∀ c ∈ name, Tag.isNameChar c = true) →
      Reads source faulted (.tag name) m rest → Reads source faulted .content n (opening :: rest)
  | tagClose {n m k : Nat} {name : Chars} {closing : Token} {rest : List Token} :
      TagGap source n m → closing.kind = .tagClose → closing.At source m k →
      (closing.value = ['>'] ∧ Tag.isOneOf Tag.rawTextNames name = false ∨
        closing.value = ['/', '>']) →
      Reads source faulted .content k rest → Reads source faulted (.tag name) n (closing :: rest)
  | rawOpen {n m k : Nat} {name : Chars} {closing : Token} {rest : List Token} :
      TagGap source n m → closing.kind = .tagClose → closing.At source m k →
      closing.value = ['>'] → Tag.isOneOf Tag.rawTextNames name = true →
      Reads source faulted (.rawBody name) k rest →
      Reads source faulted (.tag name) n (closing :: rest)
  | rawText {n m : Nat} {name : Chars} {token : Token} {rest : List Token} :
      token.kind = .rawText (lower name) → token.At source n m → n < m →
      Reads source faulted .rawEnd m rest →
      Reads source faulted (.rawBody name) n (token :: rest)
  | noRawText {n : Nat} {name : Chars} {tokens : List Token} :
      Reads source faulted .rawEnd n tokens → Reads source faulted (.rawBody name) n tokens
  | rawEnd {n m : Nat} {token : Token} {kind : TagKind} {rest : List Token} (inside : Chars) :
      token.kind = .endTag kind → token.At source n m →
      token.value = ['<', '/'] ++ inside ++ ['>'] → '>' ∉ inside →
      Reads source faulted .content m rest → Reads source faulted .rawEnd n (token :: rest)
  | tagEcho {n m k : Nat} {name : Chars} {style : EchoStyle} {opening content closing : Token}
      {rest : List Token} : TagGap source n m →
      EchoAt source style opening content closing m k → Reads source faulted (.tag name) k rest →
      Reads source faulted (.tag name) n (opening :: content :: closing :: rest)
  | tagComment {n m k : Nat} {name : Chars} {opening content closing : Token}
      {rest : List Token} : TagGap source n m →
      CommentAt source opening content closing m k → Reads source faulted (.tag name) k rest →
      Reads source faulted (.tag name) n (opening :: content :: closing :: rest)
  | entry {n m k : Nat} {name : Chars} {entry : Token} {kind : AttributeKind}
      {rest : List Token} : TagGap source n m → entry.kind = .attributeName kind →
      entry.At source m k → Reads source faulted (.tag name) k rest →
      Reads source faulted (.tag name) n (entry :: rest)
  | entryWith {n m k l : Nat} {name : Chars} {entry : Token} {kind : AttributeKind}
      {rest : List Token} : TagGap source n m → entry.kind = .attributeName kind →
      entry.At source m k → EqualsGap source k l → Reads source faulted (.value name) l rest →
      Reads source faulted (.tag name) n (entry :: rest)
  | value {n m : Nat} {name : Chars} {token : Token} {rest : List Token} :
      token.kind = .attributeValue → token.At source n m → Reads source faulted (.tag name) m rest →
      Reads source faulted (.value name) n (token :: rest)

theorem TagGap.refl (source : Chars) (n : Nat) : TagGap source n n :=
  ⟨Nat.le_refl n, by simp⟩

theorem TagGap.trans {source : Chars} {a b c : Nat} (first : TagGap source a b)
    (second : TagGap source b c) : TagGap source a c := by
  refine ⟨Nat.le_trans first.ordered second.ordered, ?_⟩
  rw [← cut_append source first.ordered second.ordered]
  intro c member
  rcases List.mem_append.1 member with early | late
  · exact first.spaces c early
  · exact second.spaces c late

theorem EqualsGap.ordered {source : Chars} {m n : Nat} (gap : EqualsGap source m n) : m ≤ n := by
  obtain ⟨sign, before, _, after⟩ := gap.parts
  have first := before.ordered
  have last := after.ordered
  omega

/-- White space before the next part of a start tag belongs to the tag. -/
theorem Reads.after_gap {source name : Chars} {faulted : Bool} {n m : Nat} {tokens : List Token}
    (gap : TagGap source n m) (reads : Reads source faulted (.tag name) m tokens) :
    Reads source faulted (.tag name) n tokens := by
  cases reads with
  | stop cut bound => exact .stop cut (Nat.le_trans gap.ordered bound)
  | tagClose more kind placed value later =>
    exact .tagClose (gap.trans more) kind placed value later
  | rawOpen more kind placed value raw later =>
    exact .rawOpen (gap.trans more) kind placed value raw later
  | tagEcho more echo later => exact .tagEcho (gap.trans more) echo later
  | tagComment more comment later => exact .tagComment (gap.trans more) comment later
  | entry more kind placed later => exact .entry (gap.trans more) kind placed later
  | entryWith more kind placed equals later =>
    exact .entryWith (gap.trans more) kind placed equals later

end BladeTemplate
