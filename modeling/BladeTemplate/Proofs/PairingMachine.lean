import BladeTemplate.Proofs.Matching

/-!
# Pairing directives without markup

Directives can be paired knowing nothing of a template but its directives: a machine with a stack of
open families takes them one after the other. It is given labels for them, and answers with the
labels of openers.

* `Call` is a directive as the machine sees it;
* `PairingMachine.step` takes one directive, `PairingMachine.run` all of them;
* `run_map` says that the labels do not matter, and `labels_run` that every directive comes out
  once.
-/

namespace BladeTemplate

open Text

/-- A directive as it is called: its name as written, and the text between its parentheses. -/
structure Call where
  name : Chars
  arguments : Chars := []
  deriving DecidableEq, Repr

/-- The directives among tokens, each by its name and the text of its argument list. -/
def Call.ofTokens : List Token → List Call
  | [] => []
  | token :: rest =>
    if token.kind = .directiveName then
      ⟨token.value.drop 1, ((Item.readArguments rest).map (·.1)).getD []⟩ :: ofTokens rest
    else ofTokens rest

/-- What one occurrence of a directive comes to. Openers are known by labels; `block` is the opener
of the block that is closed or divided. -/
structure Occurrence (α : Type) where
  pairing : Pairing := .standalone
  family : Option Chars := none
  closeKind : Option CloseKind := none
  orphan : Bool := false
  block : Option α := none
  unclosed : Bool := false
  deriving DecidableEq, Repr

namespace PairingMachine

/-- A block that is open: its opener, and its family. -/
structure OpenBlock (α : Type) where
  label : α
  name : Chars
  family : Chars

/-- A directive whose part is settled, and what is said about it. -/
structure Entry (α : Type) where
  label : α
  occurrence : Occurrence α
  complaint : Option String := none

/-- The opener of a block that was closed. -/
def OpenBlock.closed {α : Type} (block : OpenBlock α) : Entry α :=
  ⟨block.label, { pairing := .opens, family := some block.family }, none⟩

/-- The opener of a block that ends, unclosed, at the directive of the given name or at the end. -/
def OpenBlock.unclosed {α : Type} (cause : Option Chars) (block : OpenBlock α) : Entry α :=
  ⟨block.label, { pairing := .opens, family := some block.family, unclosed := true },
    some (Builder.neverClosed block.name cause)⟩

/-- What is said about a middle or closer without a block. -/
def keptAsWritten (name : Chars) (why : String) : String :=
  let shown := String.ofList name
  s!"'@{shown}' {why}; kept as written"

/-- The role of a directive, from its arguments and the innermost open family. One that is not
registered stands alone. -/
def role {α : Type} (registry : Registry) (openFamily : Option Chars) (call : Call) :
    Occurrence α :=
  match registry.lookup call.name with
  | none => {}
  | some descriptor =>
    let count := countArguments (some ('(' :: call.arguments ++ [')']))
    let resolved := descriptor.resolve count openFamily
    { pairing := resolved.1
      family := resolved.2
      closeKind := if resolved.1 = .closes then descriptor.closeKind else none }

end PairingMachine

open PairingMachine in
/-- The open blocks, innermost first, and the directives whose part is settled. -/
structure PairingMachine (α : Type) where
  opened : List (OpenBlock α) := []
  entries : List (Entry α) := []

namespace PairingMachine

variable {α β : Type}

/-- The innermost open family. -/
def openFamily (machine : PairingMachine α) : Option Chars :=
  machine.opened.head?.map (·.family)

/-- Settle a directive without touching the open blocks. -/
def record (machine : PairingMachine α) (entry : Entry α) : PairingMachine α :=
  { machine with entries := machine.entries ++ [entry] }

/-- Take a directive whose role is known. An opener opens a block. A closer closes the innermost
block of its family and leaves the blocks opened after it unclosed. A middle belongs to the
innermost block. -/
def act (machine : PairingMachine α) (label : α) (name : Chars) (found : Occurrence α) :
    PairingMachine α :=
  match found.pairing, found.family with
  | .opens, some family => { machine with opened := ⟨label, name, family⟩ :: machine.opened }
  | .closes, some family =>
    match machine.opened.dropWhile (·.family ≠ family) with
    | [] =>
      let shown := String.ofList family
      machine.record ⟨label, { found with orphan := true },
        some (keptAsWritten name s!"has no open '{shown}' block")⟩
    | block :: outer =>
      let above := machine.opened.takeWhile (·.family ≠ family)
      { opened := outer
        entries := machine.entries ++ above.map (OpenBlock.unclosed (some name)) ++
          [block.closed, ⟨label, { found with block := some block.label }, none⟩] }
  | .middle, some _ =>
    machine.record ⟨label, { found with block := machine.opened.head?.map (·.label) }, none⟩
  | .middle, none =>
    machine.record ⟨label, { found with orphan := true },
      some (keptAsWritten name "outside of a matching block")⟩
  | _, _ => machine.record ⟨label, found, none⟩

def step (registry : Registry) (machine : PairingMachine α) (next : α × Call) : PairingMachine α :=
  machine.act next.1 next.2.name (role registry machine.openFamily next.2)

/-- Leave everything unclosed that is still open at the end. -/
def finish (machine : PairingMachine α) : PairingMachine α where
  entries := machine.entries ++ machine.opened.map (OpenBlock.unclosed none)

def run (registry : Registry) (calls : List (α × Call)) : List (Entry α) :=
  (calls.foldl (step registry) {}).finish.entries

end PairingMachine

/-! ## Other labels -/

def Occurrence.map {α β : Type} (f : α → β) (occurrence : Occurrence α) : Occurrence β :=
  { occurrence with block := occurrence.block.map f }

namespace PairingMachine

variable {α β : Type} (f : α → β)

def OpenBlock.map (block : OpenBlock α) : OpenBlock β :=
  { block with label := f block.label }

def Entry.map (entry : Entry α) : Entry β :=
  ⟨f entry.label, entry.occurrence.map f, entry.complaint⟩

def map (machine : PairingMachine α) : PairingMachine β :=
  ⟨machine.opened.map (OpenBlock.map f), machine.entries.map (Entry.map f)⟩

theorem openFamily_map (machine : PairingMachine α) :
    (machine.map f).openFamily = machine.openFamily := by
  cases opened : machine.opened <;> simp [openFamily, map, opened, OpenBlock.map]

theorem record_map (machine : PairingMachine α) (entry : Entry α) :
    (machine.record entry).map f = (machine.map f).record (entry.map f) := by
  simp [record, map]

theorem role_map (registry : Registry) (openFamily : Option Chars) (call : Call) :
    (role registry openFamily call : Occurrence α).map f = role registry openFamily call := by
  unfold role
  split <;> rfl

theorem act_map (machine : PairingMachine α) (label : α) (name : Chars) (found : Occurrence α) :
    (machine.act label name found).map f =
      (machine.map f).act (f label) name (found.map f) := by
  have same (family : Chars) :
      (fun block : OpenBlock β => decide (block.family ≠ family)) ∘ OpenBlock.map f =
        fun block => decide (block.family ≠ family) := rfl
  obtain ⟨pairing, family, closeKind, orphan, block, unclosed⟩ := found
  cases pairing with
  | standalone => exact record_map f machine _
  | opens =>
    cases family with
    | none => exact record_map f machine _
    | some family => rfl
  | middle =>
    cases family with
    | none => exact record_map f machine _
    | some family =>
      refine (record_map f machine _).trans ?_
      simp only [act, Occurrence.map, Entry.map, map, List.head?_map, Option.map_map]
      rfl
  | closes =>
    cases family with
    | none => exact record_map f machine _
    | some family =>
      simp only [act, Occurrence.map, map, List.dropWhile_map, List.takeWhile_map, same]
      cases found : machine.opened.dropWhile fun block => decide (block.family ≠ family) with
      | nil => exact record_map f machine _
      | cons closing outer =>
        simp only [List.map_cons, List.map_append, List.map_map, List.map_nil]
        rfl

theorem step_map (registry : Registry) (machine : PairingMachine α) (next : α × Call) :
    (machine.step registry next).map f = (machine.map f).step registry (f next.1, next.2) := by
  unfold step
  rw [act_map, role_map, openFamily_map]

/-- What the labels are does not matter. -/
theorem run_map (registry : Registry) (calls : List (α × Call)) :
    (run registry calls).map (Entry.map f) =
      run registry (calls.map fun next => (f next.1, next.2)) := by
  have folded (machine : PairingMachine α) : (calls.foldl (step registry) machine).map f =
      (calls.map fun next => (f next.1, next.2)).foldl (step registry) (machine.map f) := by
    induction calls generalizing machine with
    | nil => rfl
    | cons next rest ih => rw [List.foldl_cons, ih, step_map, List.map_cons, List.foldl_cons]
  have last (machine : PairingMachine α) :
      machine.finish.entries.map (Entry.map f) = (machine.map f).finish.entries := by
    simp only [finish, map, List.map_append, List.map_map]
    rfl
  unfold run
  rw [last, folded]
  rfl

/-! ## Every directive comes out once -/

/-- The labels of all directives taken so far. -/
def labels (machine : PairingMachine α) : List α :=
  machine.entries.map (·.label) ++ machine.opened.map (·.label)

theorem labels_record (machine : PairingMachine α) (entry : Entry α) :
    (machine.record entry).labels.Perm (machine.labels ++ [entry.label]) := by
  unfold labels record
  rw [List.map_append, List.append_assoc, List.append_assoc]
  exact List.perm_append_comm.append_left _

theorem labels_act (machine : PairingMachine α) (label : α) (name : Chars) (found : Occurrence α) :
    (machine.act label name found).labels.Perm (machine.labels ++ [label]) := by
  unfold act
  split
  · simp only [labels, List.map_cons, List.append_assoc]
    exact (List.perm_append_singleton label _).symm.append_left _
  · next family _ _ =>
    split
    · exact labels_record machine _
    · next block outer found =>
      -- What is above the block that closes goes from the open blocks to the settled directives.
      have parts := List.takeWhile_append_dropWhile
        (p := fun block : OpenBlock α => decide (block.family ≠ family)) (l := machine.opened)
      rw [found] at parts
      have split : machine.labels = machine.entries.map (·.label) ++
          ((machine.opened.takeWhile fun block => decide (block.family ≠ family)).map (·.label) ++
            block.label :: outer.map (·.label)) := by
        rw [labels, ← List.map_cons (f := fun block : OpenBlock α => block.label), ← List.map_append,
          parts]
      rw [split]
      simp only [labels, List.map_append, List.map_cons, List.map_map, List.map_nil,
        OpenBlock.closed, List.append_assoc, List.cons_append, List.nil_append]
      refine (List.Perm.append_left _ ?_).append_left _
      exact ((List.perm_append_singleton label _).symm).cons _
  · exact labels_record machine _
  · exact labels_record machine _
  · exact labels_record machine _

/-- Every directive comes out once. -/
theorem labels_run (registry : Registry) (calls : List (α × Call)) :
    ((run registry calls).map (·.label)).Perm (calls.map (·.1)) := by
  have folded (machine : PairingMachine α) :
      (calls.foldl (step registry) machine).labels.Perm (machine.labels ++ calls.map (·.1)) := by
    induction calls generalizing machine with
    | nil => simp
    | cons next rest ih =>
      refine (ih (machine.step registry next)).trans ?_
      refine ((labels_act machine next.1 _ _).append_right _).trans ?_
      rw [List.append_assoc]
      rfl
  have last (machine : PairingMachine α) :
      machine.finish.entries.map (·.label) = machine.labels := by
    simp only [finish, labels, List.map_append, List.map_map]
    rfl
  rw [run, last]
  exact folded {}

end PairingMachine

end BladeTemplate
