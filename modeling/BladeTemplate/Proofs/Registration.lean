import BladeTemplate.Config
import BladeTemplate.Proofs.Search
import Mathlib.Data.List.Nodup

/-!
# Registries built by registration

A registry comes about by registering descriptors one after another, from the empty registry or
from the built-in one. Whatever the history, an entry that opens or closes a block names its
family, so the role of an occurrence always comes with the family it needs.

* `Registry.Built` is the history of a registry;
* `Registry.Built.hasFamilies` is its invariant;
* `Registry.Built.distinct` says that no two entries differ in case only, so that an entry is
  found by every spelling of its name (`Registry.lookup_of_mem`);
* `Descriptor.family_of_resolve` carries it over to occurrences;
* `Registry.count_of_lookup` compares a registered name with the spelling it was found by.
-/

namespace BladeTemplate

namespace Registry

/-- Registries that registration leads to. -/
inductive Built : Registry → Prop
  | empty : Built .empty
  | builtin : Built .builtin
  | register {registry next : Registry} {descriptor : Descriptor} {replace : Bool} :
      Built registry → registry.register descriptor replace = .ok next → Built next

/-- Every entry that opens or closes a block names its family. -/
def HasFamilies (registry : Registry) : Prop :=
  ∀ descriptor ∈ registry.descriptors, lacksFamily descriptor = false

theorem hasFamilies_builtin : HasFamilies .builtin := by
  have checked : Registry.builtin.descriptors.all (!lacksFamily ·) = true := by decide
  intro descriptor member
  simpa using List.all_eq_true.1 checked descriptor member

/-- One registration: what was there before, less what it replaces, and the new entry. -/
theorem mem_register {registry next : Registry} {descriptor : Descriptor} {replace : Bool}
    (registered : registry.register descriptor replace = .ok next) :
    lacksFamily descriptor = false ∧
      ∀ entry ∈ next.descriptors, entry ∈ registry.descriptors ∨ entry = descriptor := by
  unfold register at registered
  split at registered
  · cases registered
  · next named =>
    refine ⟨by simpa using named, ?_⟩
    split at registered
    · cases registered
      intro entry member
      simpa using member
    · split at registered
      · cases registered
        intro entry member
        rcases List.mem_append.1 member with old | new
        · exact .inl (List.mem_of_mem_erase old)
        · exact .inr (List.mem_singleton.1 new)
      · cases registered

theorem Built.hasFamilies {registry : Registry} (built : Built registry) :
    registry.HasFamilies := by
  induction built with
  | empty =>
    intro descriptor member
    cases member
  | builtin => exact hasFamilies_builtin
  | register _ registered ih =>
    obtain ⟨named, entries⟩ := mem_register registered
    intro entry member
    rcases entries entry member with old | rfl
    · exact ih entry old
    · exact named

theorem mem_of_lookup {registry : Registry} {name : Chars} {descriptor : Descriptor}
    (found : registry.lookup name = some descriptor) : descriptor ∈ registry.descriptors := by
  unfold lookup at found
  rcases Option.or_eq_some_iff.1 found with exact | ⟨_, folded⟩
  · exact List.mem_of_find?_eq_some exact
  · exact List.mem_of_find?_eq_some folded

/-! ### Names that differ in case -/

theorem sameLetters_trans {a b name : Chars} (first : Text.sameLetters a name = true)
    (second : Text.sameLetters b name = true) : Text.sameLetters a b = true :=
  decide_eq_true ((of_decide_eq_true first).trans (of_decide_eq_true second).symm)

/-- No two registered names differ in case only. -/
def Distinct (registry : Registry) : Prop :=
  (registry.descriptors.map fun d => Text.lower d.name).Nodup

theorem distinct_builtin : Distinct .builtin := by
  -- Numbers are compared faster than texts.
  have numbers : ((Registry.builtin.descriptors.map fun d => Text.lower d.name).map fun name =>
      name.foldl (fun n c => 256 * n + c.toNat) 0).Nodup := by
    decide +kernel
  exact List.Nodup.of_map _ numbers

theorem Distinct.eq_of_sameLetters {registry : Registry} (distinct : registry.Distinct)
    {a b : Descriptor} (ha : a ∈ registry.descriptors) (hb : b ∈ registry.descriptors)
    (alike : Text.sameLetters a.name b.name = true) : a = b :=
  List.inj_on_of_nodup_map distinct ha hb (of_decide_eq_true alike)

/-- A name that no entry has can be added. -/
theorem Distinct.append {registry : Registry} (distinct : registry.Distinct)
    {descriptor : Descriptor}
    (fresh : ∀ entry ∈ registry.descriptors,
      Text.sameLetters entry.name descriptor.name = false) :
    Distinct ⟨registry.descriptors ++ [descriptor]⟩ := by
  unfold Distinct
  rw [List.map_append, List.map_singleton, List.nodup_append]
  refine ⟨distinct, List.nodup_singleton _, ?_⟩
  rintro _ old _ new same
  obtain ⟨entry, member, rfl⟩ := List.mem_map.1 old
  rw [List.mem_singleton.1 new] at same
  have other := fresh entry member
  unfold Text.sameLetters at other
  exact absurd same (of_decide_eq_false other)

theorem Distinct.erase {registry : Registry} (distinct : registry.Distinct) (old : Descriptor) :
    Distinct ⟨registry.descriptors.erase old⟩ :=
  List.Nodup.sublist (List.Sublist.map _ List.erase_sublist) distinct

theorem Built.distinct {registry : Registry} (built : Built registry) : registry.Distinct := by
  induction built with
  | empty => exact List.nodup_nil
  | builtin => exact distinct_builtin
  | @register registry next descriptor replace _ registered ih =>
    unfold Registry.register at registered
    split at registered
    · cases registered
    split at registered
    · next fresh =>
      cases registered
      refine ih.append fun entry member => ?_
      simpa using List.find?_eq_none.1 fresh entry member
    · next old found =>
      split at registered
      · cases registered
        refine (ih.erase old).append fun entry member => ?_
        have oldIn := List.mem_of_find?_eq_some found
        have alike := List.find?_some found
        have other : entry ≠ old ∧ entry ∈ registry.descriptors :=
          (List.Nodup.mem_erase_iff (List.Nodup.of_map _ ih)).1 member
        rw [← Bool.not_eq_true]
        intro same
        exact other.1 (ih.eq_of_sameLetters other.2 oldIn (sameLetters_trans same alike))
      · cases registered

/-- An entry is found by every spelling of its name. -/
theorem lookup_of_mem {registry : Registry} (built : registry.Built) {descriptor : Descriptor}
    (member : descriptor ∈ registry.descriptors) {name : Chars}
    (alike : Text.sameLetters descriptor.name name = true) :
    registry.lookup name = some descriptor := by
  have same {other : Descriptor} (otherIn : other ∈ registry.descriptors)
      (likewise : Text.sameLetters other.name name = true) : other = descriptor :=
    built.distinct.eq_of_sameLetters otherIn member (sameLetters_trans likewise alike)
  unfold lookup
  cases exact : registry.descriptors.find? (·.name = name) with
  | some other =>
    have spelled := List.find?_some exact
    rw [decide_eq_true_eq] at spelled
    have here := same (List.mem_of_find?_eq_some exact) (by simp [spelled, Text.sameLetters])
    rw [here]
    rfl
  | none =>
    cases folded : registry.descriptors.find? fun d => Text.sameLetters d.name name with
    | some other =>
      have likewise := List.find?_some folded
      have here := same (List.mem_of_find?_eq_some folded) likewise
      rw [here]
      rfl
    | none => exact absurd alike (List.find?_eq_none.1 folded descriptor member)

end Registry

/-- An occurrence that opens or closes a block has the family of that block, if its descriptor names
one where it must. -/
theorem Descriptor.family_of_resolve {descriptor : Descriptor}
    (named : Registry.lacksFamily descriptor = false) (arguments : Int)
    (openFamily : Option Chars)
    (role : (descriptor.resolve arguments openFamily).1 = .opens ∨
      (descriptor.resolve arguments openFamily).1 = .closes) :
    (descriptor.resolve arguments openFamily).2.isSome = true := by
  unfold resolve at role ⊢
  split at role
  · simp at role
  split at role
  · next inline opened => simp [inline, opened]
  split at role
  · simp at role
  split at role
  · split at role <;> simp at role
  · next inline opened bare middle =>
    simp only [if_neg inline, if_neg opened, if_neg bare, if_neg middle]
    unfold Registry.lacksFamily at named
    cases family : descriptor.family with
    | some _ => rfl
    | none => rcases role with opens | closes <;> simp_all

/-! ## Spellings of a name -/

namespace Text

/-- Whether a character is of ASCII and no letter: it neither has another case nor is one. -/
def isUncased (c : Char) : Bool :=
  c.toNat < 0x80 && !c.isAlpha

/-- A run of letters with lower-case forms has letters for these forms. -/
theorem letter_of_covers {run : CaseRun} (listed : run ∈ caseRuns) {c : Char}
    (covers : run.covers c.toNat = true) :
    isUncased (Char.ofNat (c.toNat + run.shift).toNat) = false := by
  -- Beyond ASCII they cannot be anything else; one run of one letter leads back there.
  have forms : ∀ run ∈ caseRuns,
      (0x80 ≤ run.first + run.shift ∧ (run.last + run.shift < 0xD800 ∨
        0xDFFF < run.first + run.shift ∧ run.last + run.shift < 0x110000)) ∨
      (run.first = run.last ∧
        isUncased (Char.ofNat (run.first + run.shift).toNat) = false) := by
    decide +kernel
  simp only [CaseRun.covers, Bool.and_eq_true, decide_eq_true_eq] at covers
  rcases forms run listed with ⟨beyond, form⟩ | ⟨single, letter⟩
  · have valid : (c.toNat + run.shift).toNat.isValidChar := by
      unfold Nat.isValidChar
      omega
    have code : (Char.ofNat (c.toNat + run.shift).toNat).toNat = (c.toNat + run.shift).toNat := by
      rw [Char.ofNat, dif_pos valid]
      rfl
    have notAscii : ¬ (Char.ofNat (c.toNat + run.shift).toNat).toNat < 0x80 := by omega
    simp [isUncased, notAscii]
  · obtain same : c.toNat = run.first := by omega
    rwa [same]

/-- Lower-casing keeps the characters that have no case, and makes none. -/
theorem lowerChar_eq_iff (c : Char) {d : Char} (uncased : isUncased d = true) :
    lowerChar c = d ↔ c = d := by
  have apart {c : Char} (cased : isUncased c = false) : c ≠ d := by
    rintro rfl
    rw [uncased] at cased
    cases cased
  unfold lowerChar
  split
  · next ascii =>
    have kept := of_ascii
      (fun c => c.toLower = c ∨ isUncased c = false ∧ isUncased c.toLower = false) (by decide)
      ascii
    rcases kept with same | ⟨letter, lowered⟩
    · rw [same]
    · exact iff_of_false (apart lowered) (apart letter)
  · next notAscii =>
    have letter : isUncased c = false := by simp [isUncased, notAscii]
    split
    · next run found =>
      have covers := List.find?_some found
      have form := letter_of_covers (List.mem_of_find?_eq_some found) covers
      exact iff_of_false (apart form) (apart letter)
    · rfl

theorem count_lower (text : Chars) {d : Char} (uncased : isUncased d = true) :
    (lower text).count d = text.count d := by
  suffices all : ∀ before, (lowerAfter before text).count d = text.count d from all []
  have apart (c : Char) (cased : isUncased c = false) : c ≠ d := by
    rintro rfl
    rw [uncased] at cased
    cases cased
  have sigma := apart 'Σ' (by decide)
  have forms := And.intro (apart 'σ' (by decide)) (apart 'ς' (by decide))
  have dotted := apart 'İ' (by decide)
  have pair := And.intro (apart 'i' (by decide)) (apart (Char.ofNat 0x307) (by decide))
  induction text with
  | nil => exact fun _ => rfl
  | cons c rest ih =>
    intro before
    simp only [lowerAfter, List.count_append, ih, List.count_cons, Nat.add_comm]
    congr 1
    split
    · next same => split <;> simp [same, sigma, forms]
    split
    · next same => simp [same, dotted, pair]
    · simp [List.count_cons, lowerChar_eq_iff c uncased]

/-- The combining dot that the dotted capital `İ` leaves behind in lower case. -/
def dotAbove : Char := Char.ofNat 0x307

/-- Lower-casing changes the length of a text only where it leaves a combining dot. -/
theorem length_of_lower {text : Chars} (plain : dotAbove ∉ lower text) :
    (lower text).length = text.length := by
  suffices all : ∀ before, dotAbove ∉ lowerAfter before text →
      (lowerAfter before text).length = text.length from all [] plain
  clear plain
  induction text with
  | nil => exact fun _ _ => rfl
  | cons c rest ih =>
    intro before plain
    simp only [lowerAfter, List.mem_append, not_or] at plain ⊢
    rw [List.length_append, ih _ plain.2, List.length_cons, Nat.add_comm]
    congr 1
    split
    · rfl
    split
    · next sigma dotted =>
      rw [if_neg sigma, if_pos dotted] at plain
      exact absurd (List.mem_cons_of_mem _ (List.mem_singleton_self _)) plain.1
    · rfl

end Text

/-- Of a character without case, a registered name has as many as any other spelling of it. -/
theorem Registry.count_of_lookup {registry : Registry} {name : Chars} {descriptor : Descriptor}
    (found : registry.lookup name = some descriptor) {d : Char}
    (uncased : Text.isUncased d = true) : descriptor.name.count d = name.count d := by
  rcases Option.or_eq_some_iff.1 found with exact | ⟨_, alike⟩
  · have same := List.find?_some exact
    rw [decide_eq_true_eq] at same
    rw [same]
  · have same := List.find?_some alike
    unfold Text.sameLetters at same
    rw [decide_eq_true_eq] at same
    rw [← Text.count_lower _ uncased, same, Text.count_lower _ uncased]

namespace Config

/-- The registry in use was built by registration, if the configured one was. -/
theorem built_firstRegistry {registries : List (Option Registry)}
    (built : ∀ registry, some registry ∈ registries → registry.Built) :
    (firstRegistry registries).Built := by
  induction registries with
  | nil => exact .builtin
  | cons head rest ih =>
    have later := ih fun registry member => built registry (List.mem_cons_of_mem _ member)
    cases head with
    | none => exact later
    | some registry =>
      unfold firstRegistry
      split
      · exact later
      · exact built registry List.mem_cons_self

end Config

end BladeTemplate
