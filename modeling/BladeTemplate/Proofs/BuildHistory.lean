import BladeTemplate.Directive.Builder
import BladeTemplate.Proofs.Registration

/-!
# What calls of a builder lead to

A builder keeps every descriptor in a list and in a map, and replaces an entry by taking it out of
both and putting the new one at the end of both. Whatever calls are made, the two stay in step, and
what they hold is the log of all successful registrations without those that a later one has
replaced.

* `RegistryBuilder.InStep` is the invariant of the two, and `RegistryBuilder.InStep.register_of_ok`
  and `RegistryBuilder.InStep.register_of_error` say that registration keeps it and is that of a
  registry;
* `Registry.current` is what a log of registrations amounts to, and `Registry.find?_current` finds
  the last registration of a name there;
* `RegistryBuilder.InStep.registerAll_induction` is the induction over several registrations;
* `RegistryBuilder.InStep.lookup_build` and `RegistryBuilder.closers_build` say that the maps of an
  index answer as the registry does that templates are read with;
* `RegistrySession.Sound` is what every call preserves, and `registry_history` is the result for
  whole histories.
-/

namespace BladeTemplate

open Text

/-! ## Maps from names -/

namespace NameMap

variable {α : Type} {map : NameMap α} {name : Chars}

theorem has_iff : map.has name = true ↔ name ∈ map.entries.map Prod.fst := by
  simp [has]

theorem entries_put (value : α) (fresh : name ∉ map.entries.map Prod.fst) :
    (map.put name value).entries = map.entries ++ [(name, value)] := by
  unfold put
  rw [dif_neg (mt has_iff.1 fresh)]
  rfl

/-- A value that is put is found under its name, and others are found as before. -/
theorem get?_put (map : NameMap α) (name other : Chars) (value : α) :
    (map.put name value).get? other = if name = other then some value else map.get? other := by
  unfold put
  split
  · next taken =>
    -- The names stay as they are, so that the same entry is found, with its new value.
    have places : ((fun entry : Chars × α => decide (entry.1 = other)) ∘
        fun entry : Chars × α => if entry.1 = name then (name, value) else entry) =
        fun entry => decide (entry.1 = other) := by
      funext entry
      by_cases same : entry.1 = name <;> simp [same]
    simp only [get?, set, List.find?_map, places]
    split
    · next same =>
      subst same
      obtain ⟨entry, member, named⟩ := List.any_eq_true.1 taken
      cases found : map.entries.find? fun entry => decide (entry.1 = name) with
      | none => exact absurd named (List.find?_eq_none.1 found entry member)
      | some entry =>
        have here := List.find?_some found
        simp only [decide_eq_true_eq] at here
        simp [here]
    · next apart =>
      cases found : map.entries.find? fun entry => decide (entry.1 = other) with
      | none => rfl
      | some entry =>
        have here := List.find?_some found
        simp only [decide_eq_true_eq] at here
        simp [here, Ne.symm apart]
  · next fresh =>
    simp only [get?, append, List.find?_append]
    split
    · next same =>
      subst same
      have absent : (map.entries.find? fun entry => decide (entry.1 = name)) = none := by
        refine List.find?_eq_none.2 fun entry member named => fresh ?_
        exact List.any_eq_true.2 ⟨entry, member, named⟩
      simp [absent]
    · next apart =>
      simp [apart]

/-- New names are put one after the other. -/
theorem entries_foldl_put {β : Type} (key : β → Chars) (value : β → α) (list : List β)
    (distinct : (map.entries.map Prod.fst ++ list.map key).Nodup) :
    (list.foldl (fun map entry => map.put (key entry) (value entry)) map).entries =
      map.entries ++ list.map fun entry => (key entry, value entry) := by
  induction list generalizing map with
  | nil => rw [List.foldl_nil, List.map_nil, List.append_nil]
  | cons first rest ih =>
    have fresh : key first ∉ map.entries.map Prod.fst := fun member =>
      (List.nodup_append.1 distinct).2.2 _ member _ List.mem_cons_self rfl
    have put := entries_put (value first) fresh
    rw [List.foldl_cons, ih, put, List.append_assoc]
    · rfl
    · rw [put, List.map_append, List.append_assoc]
      exact distinct

end NameMap

/-! ## Logs of registrations -/

namespace Registry

/-- What a log of registrations amounts to: the entries whose name, in whatever case, is not
registered again. -/
def current : List Descriptor → List Descriptor
  | [] => []
  | entry :: later =>
    if later.any fun other => sameLetters entry.name other.name then current later
    else entry :: current later

/-- One registration more takes the place of the entries of its name. -/
theorem current_concat (log : List Descriptor) (descriptor : Descriptor) :
    current (log ++ [descriptor]) =
      (current log).filter (fun entry => !sameLetters entry.name descriptor.name) ++
        [descriptor] := by
  induction log with
  | nil => rfl
  | cons entry later ih =>
    rw [List.cons_append, current, current, List.any_append, ih]
    cases again : later.any fun other => sameLetters entry.name other.name with
    | true => rfl
    | false =>
      cases same : sameLetters entry.name descriptor.name <;>
        simp [same]

/-- With names that differ, nothing is registered again. -/
theorem current_of_distinct {registry : Registry} (distinct : registry.Distinct) :
    current registry.descriptors = registry.descriptors := by
  obtain ⟨descriptors⟩ := registry
  induction descriptors with
  | nil => rfl
  | cons entry later ih =>
    obtain ⟨apart, rest⟩ := List.nodup_cons.1 distinct
    have last : ¬ later.any (fun other => sameLetters entry.name other.name) = true := by
      intro again
      obtain ⟨other, member, alike⟩ := List.any_eq_true.1 again
      exact apart (List.mem_map.2 ⟨other, member, (of_decide_eq_true alike).symm⟩)
    rw [current, if_neg last]
    exact congrArg (entry :: ·) (ih rest)

theorem sameLetters_iff {a b : Chars} : sameLetters a b = true ↔ lower a = lower b :=
  decide_eq_true_iff

/-- What is current of a name is its last registration. -/
theorem find?_current (log : List Descriptor) (name : Chars) :
    (current log).find? (fun entry => sameLetters entry.name name) =
      (log.filter fun entry => sameLetters entry.name name).getLast? := by
  induction log with
  | nil => rfl
  | cons entry later ih =>
    rw [current, List.filter_cons]
    split
    · next again =>
      obtain ⟨other, member, alike⟩ := List.any_eq_true.1 again
      rw [ih]
      split
      · next named =>
        -- A later entry has the same name, and so it is not this one that comes last.
        have among : other ∈ later.filter fun entry => sameLetters entry.name name := by
          refine List.mem_filter.2 ⟨member, ?_⟩
          rw [sameLetters_iff] at alike named ⊢
          exact alike.symm.trans named
        rw [List.getLast?_cons_of_ne_nil (List.ne_nil_of_mem among)]
      · rfl
    · next last =>
      rw [List.find?_cons]
      split
      · next named =>
        have none_ : (later.filter fun entry => sameLetters entry.name name) = [] := by
          refine List.filter_eq_nil_iff.2 fun other member alike => last ?_
          refine List.any_eq_true.2 ⟨other, member, ?_⟩
          rw [sameLetters_iff] at alike named ⊢
          exact named.trans alike.symm
        rw [if_pos named, none_]
        rfl
      · next unnamed =>
        rw [if_neg (by simp [unnamed]), ih]

/-- A registration that succeeds takes the place of the entries of its name. -/
theorem descriptors_register {registry next : Registry} (distinct : registry.Distinct)
    {descriptor : Descriptor} {replace : Bool}
    (registered : registry.register descriptor replace = .ok next) :
    next.descriptors =
      registry.descriptors.filter (fun entry => !sameLetters entry.name descriptor.name) ++
        [descriptor] := by
  unfold register at registered
  split at registered
  · cases registered
  split at registered
  · next fresh =>
    cases registered
    rw [List.filter_eq_self.2 fun entry member => by
      simpa using List.find?_eq_none.1 fresh entry member]
  · next old found =>
    split at registered
    · cases registered
      have oldIn := List.mem_of_find?_eq_some found
      have alike := List.find?_some found
      show registry.descriptors.erase old ++ [descriptor] = _
      rw [List.Nodup.erase_eq_filter (List.Nodup.of_map _ distinct)]
      congr 1
      refine List.filter_congr fun entry member => ?_
      rw [Bool.eq_iff_iff, bne_iff_ne, Bool.not_eq_true', ← Bool.not_eq_true]
      refine not_congr ⟨fun same => same ▸ alike, fun same => ?_⟩
      exact distinct.eq_of_sameLetters member oldIn (sameLetters_trans same alike)
    · cases registered

/-- With names that differ, an entry is taken out by its name. -/
theorem Distinct.erase_eq {registry : Registry} (distinct : registry.Distinct) {old : Descriptor}
    (member : old ∈ registry.descriptors) :
    registry.descriptors.erase old =
      registry.descriptors.filter fun entry => entry.name ≠ old.name := by
  rw [List.Nodup.erase_eq_filter (List.Nodup.of_map _ distinct)]
  refine List.filter_congr fun entry among => ?_
  rw [Bool.eq_iff_iff, bne_iff_ne, decide_eq_true_iff]
  refine not_congr ⟨fun same => same ▸ rfl, fun same => ?_⟩
  exact distinct.eq_of_sameLetters among member (by rw [sameLetters_iff, same])

/-- With names that differ, a name is found by its letters. -/
theorem lookup_eq_find? {registry : Registry} (built : registry.Built) (name : Chars) :
    registry.lookup name =
      registry.descriptors.find? fun entry => sameLetters entry.name name := by
  cases found : registry.descriptors.find? fun entry => sameLetters entry.name name with
  | some entry =>
    have alike := List.find?_some found
    exact lookup_of_mem built (List.mem_of_find?_eq_some found) alike
  | none =>
    have exact : (registry.descriptors.find? (·.name = name)) = none := by
      refine List.find?_eq_none.2 fun entry member spelled => ?_
      refine List.find?_eq_none.1 found entry member ?_
      rw [sameLetters_iff, of_decide_eq_true spelled]
    rw [lookup, exact, found]
    rfl

end Registry

/-! ## List and map -/

namespace RegistryBuilder

variable {builder : RegistryBuilder} {descriptor : Descriptor} {replace : Bool}

/-- List and map hold the same descriptors in the same order, each under its own name, and the list
is a registry built by registration. -/
structure InStep (builder : RegistryBuilder) : Prop where
  entries : builder.byName.entries = builder.descriptors.map fun entry => (entry.name, entry)
  built : builder.registry.Built

@[simp]
theorem descriptors_registry (builder : RegistryBuilder) :
    builder.registry.descriptors = builder.descriptors := rfl

theorem inStep_empty : InStep .empty :=
  ⟨rfl, .empty⟩

theorem InStep.find?_eq (inStep : builder.InStep) (name : Chars) :
    (builder.byName.entries.find? fun entry => sameLetters entry.1 name) =
      (builder.descriptors.find? fun entry => sameLetters entry.name name).map
        fun entry => (entry.name, entry) := by
  rw [inStep.entries, List.find?_map]
  rfl

/-- Putting a descriptor in both places, where no other one has its name. -/
theorem entries_add (entries : builder.byName.entries =
      builder.descriptors.map fun entry => (entry.name, entry))
    (fresh : ∀ entry ∈ builder.descriptors, entry.name ≠ descriptor.name) :
    (builder.add descriptor).byName.entries =
      (builder.add descriptor).descriptors.map fun entry => (entry.name, entry) := by
  have absent : descriptor.name ∉ builder.byName.entries.map Prod.fst := by
    rw [entries, List.map_map]
    intro member
    obtain ⟨entry, among, same⟩ := List.mem_map.1 member
    exact fresh entry among same
  simp only [add, NameMap.entries_put descriptor absent, entries, List.map_append, List.map_cons,
    List.map_nil]

/-- Where a registry accepts a descriptor, the builder puts it in both places. -/
theorem InStep.register_of_ok (inStep : builder.InStep) {next : Registry}
    (registered : builder.registry.register descriptor replace = .ok next) :
    (builder.register descriptor replace).2 = none ∧
      (builder.register descriptor replace).1.registry = next ∧
      (builder.register descriptor replace).1.InStep := by
  have distinct := inStep.built.distinct
  have built := Registry.Built.register inStep.built registered
  have sameOf {entry : Descriptor} (same : entry.name = descriptor.name) :
      sameLetters entry.name descriptor.name = true := by rw [Registry.sameLetters_iff, same]
  unfold register
  rw [inStep.find?_eq]
  rw [Registry.register, descriptors_registry] at registered
  split at registered
  · cases registered
  next named =>
  rw [if_neg named]
  cases found : builder.descriptors.find? fun entry =>
      sameLetters entry.name descriptor.name with
  | none =>
    rw [found] at registered
    cases registered
    refine ⟨rfl, rfl, entries_add inStep.entries fun entry member same => ?_, built⟩
    exact List.find?_eq_none.1 found entry member (sameOf same)
  | some old =>
    have member := List.mem_of_find?_eq_some found
    have alike := List.find?_some found
    rw [found] at registered
    simp only at registered
    split at registered
    · next replaced =>
      cases registered
      simp only [Option.map_some, if_pos replaced, if_pos member]
      refine ⟨trivial, rfl, entries_add ?_ fun entry among same => ?_, built⟩
      · -- The entry goes from the map as it goes from the list.
        show builder.byName.entries.filter _ = (builder.registry.descriptors.erase old).map _
        rw [distinct.erase_eq member, inStep.entries, List.filter_map]
        rfl
      · have among : entry ∈ builder.registry.descriptors.erase old := among
        rw [distinct.erase_eq member, List.mem_filter, decide_eq_true_eq] at among
        refine among.2 (congrArg Descriptor.name ?_)
        exact distinct.eq_of_sameLetters among.1 member
          (Registry.sameLetters_trans (sameOf same) alike)
    · cases registered

/-- Where a registry refuses a descriptor, the builder does so too and stays as it was. -/
theorem InStep.register_of_error (inStep : builder.InStep) {error : RegistryError}
    (refused : builder.registry.register descriptor replace = .error error) :
    builder.register descriptor replace = (builder, some (.refused error)) := by
  unfold register
  rw [inStep.find?_eq]
  rw [Registry.register, descriptors_registry] at refused
  split at refused
  · next nameless =>
    cases refused
    rw [if_pos nameless]
  next named =>
  rw [if_neg named]
  cases found : builder.descriptors.find? fun entry =>
      sameLetters entry.name descriptor.name with
  | none =>
    rw [found] at refused
    cases refused
  | some old =>
    rw [found] at refused
    simp only at refused
    split at refused
    · cases refused
    · next kept =>
      cases refused
      simp only [Option.map_some, if_neg kept]

/-- A registration that succeeds is one of the registry. -/
theorem InStep.exists_registered (inStep : builder.InStep)
    (succeeds : (builder.register descriptor replace).2 = none) :
    ∃ next, builder.registry.register descriptor replace = .ok next := by
  cases registered : builder.registry.register descriptor replace with
  | ok next => exact ⟨next, rfl⟩
  | error error =>
    rw [inStep.register_of_error registered] at succeeds
    cases succeeds

/-- Whether a registration succeeds or fails, the builder stays in step. -/
theorem InStep.register (inStep : builder.InStep) (descriptor : Descriptor) (replace : Bool) :
    (builder.register descriptor replace).1.InStep := by
  cases registered : builder.registry.register descriptor replace with
  | ok next => exact (inStep.register_of_ok registered).2.2
  | error error => rwa [inStep.register_of_error registered]

/-- A registration that fails leaves the builder as it was. -/
theorem InStep.register_failed (inStep : builder.InStep)
    (fails : (builder.register descriptor replace).2 ≠ none) :
    (builder.register descriptor replace).1 = builder := by
  cases registered : builder.registry.register descriptor replace with
  | ok next => exact absurd (inStep.register_of_ok registered).1 fails
  | error error => rw [inStep.register_of_error registered]

/-- A registration that succeeds takes the place of the entries of its name. -/
theorem InStep.descriptors_register (inStep : builder.InStep)
    (succeeds : (builder.register descriptor replace).2 = none) :
    (builder.register descriptor replace).1.descriptors =
      builder.descriptors.filter (fun entry => !sameLetters entry.name descriptor.name) ++
        [descriptor] := by
  obtain ⟨next, registered⟩ := inStep.exists_registered succeeds
  obtain ⟨-, same, -⟩ := inStep.register_of_ok registered
  rw [← descriptors_registry, same]
  exact Registry.descriptors_register inStep.built.distinct registered

/-! ## Several registrations -/

/-- The descriptors that are registered before the first failure. -/
def accepted (builder : RegistryBuilder) : List Descriptor → List Descriptor
  | [] => []
  | descriptor :: rest =>
    match builder.register descriptor with
    | (next, none) => descriptor :: next.accepted rest
    | (_, some _) => []

section

variable (succeeds : (builder.register descriptor).2 = none) (rest : List Descriptor)

include succeeds

theorem registerAll_of_succeeds :
    builder.registerAll (descriptor :: rest) =
      (builder.register descriptor).1.registerAll rest := by
  rw [registerAll]
  split <;> simp_all

theorem accepted_of_succeeds :
    builder.accepted (descriptor :: rest) =
      descriptor :: (builder.register descriptor).1.accepted rest := by
  rw [accepted]
  split <;> simp_all

/-- Without replacement a registration that succeeds adds to what there is. -/
theorem descriptors_register_new :
    (builder.register descriptor).1.descriptors = builder.descriptors ++ [descriptor] := by
  unfold register at succeeds ⊢
  split at succeeds
  · cases succeeds
  next named =>
  rw [if_neg named]
  split at succeeds
  · next fresh => rfl
  · cases succeeds

end

section

variable {error : RegistrationError} (fails : (builder.register descriptor).2 = some error)
  (rest : List Descriptor)

include fails

theorem registerAll_of_fails :
    builder.registerAll (descriptor :: rest) =
      ((builder.register descriptor).1, some error) := by
  rw [registerAll]
  split <;> simp_all

theorem accepted_of_fails : builder.accepted (descriptor :: rest) = [] := by
  rw [accepted]
  split <;> simp_all

end

/-- What every registration that succeeds preserves holds of the builder that several of them lead
to, with those of the descriptors that are registered. -/
theorem InStep.registerAll_induction {motive : RegistryBuilder → List Descriptor → Prop}
    (step : ∀ {builder : RegistryBuilder} {before : List Descriptor} {descriptor : Descriptor},
      builder.InStep → motive builder before → (builder.register descriptor).2 = none →
        motive (builder.register descriptor).1 (before ++ [descriptor]))
    (inStep : builder.InStep) (before : List Descriptor) (start : motive builder before)
    (list : List Descriptor) :
    (builder.registerAll list).1.InStep ∧
      motive (builder.registerAll list).1 (before ++ builder.accepted list) := by
  induction list generalizing builder before with
  | nil =>
    rw [accepted, List.append_nil]
    exact ⟨inStep, start⟩
  | cons descriptor rest ih =>
    cases result : (builder.register descriptor).2 with
    | none =>
      rw [registerAll_of_succeeds result, accepted_of_succeeds result, List.append_cons]
      exact ih (inStep.register descriptor false) _ (step inStep start result)
    | some error =>
      rw [registerAll_of_fails result, accepted_of_fails result, List.append_nil,
        inStep.register_failed (by rw [result]; exact Option.some_ne_none error)]
      exact ⟨inStep, start⟩

/-- What is registered before the first failure is added to what there is. -/
theorem InStep.descriptors_registerAll (inStep : builder.InStep) (list : List Descriptor) :
    (builder.registerAll list).1.InStep ∧
      (builder.registerAll list).1.descriptors =
        builder.descriptors ++ builder.accepted list := by
  refine inStep.registerAll_induction
    (motive := fun next before => next.descriptors = builder.descriptors ++ before)
    ?_ [] (List.append_nil _).symm list
  intro next before descriptor _ added succeeds
  rw [descriptors_register_new succeeds, added, List.append_assoc]

/-- A log goes on with what is registered before the first failure. -/
theorem InStep.current_registerAll (inStep : builder.InStep) {log : List Descriptor}
    (logged : builder.descriptors = Registry.current log) (list : List Descriptor) :
    (builder.registerAll list).1.descriptors =
      Registry.current (log ++ builder.accepted list) := by
  refine (inStep.registerAll_induction
    (motive := fun next log => next.descriptors = Registry.current log) ?_ log logged list).2
  intro next before descriptor inStep logged succeeds
  rw [inStep.descriptors_register succeeds, Registry.current_concat, logged]

/-- Registrations that fail do so at one descriptor: those before it are registered, and it would be
refused again. -/
theorem InStep.registerAll_failed (inStep : builder.InStep) {list : List Descriptor}
    {error : RegistrationError} (fails : (builder.registerAll list).2 = some error) :
    ∃ failing later, list = builder.accepted list ++ failing :: later ∧
      builder.registerAll (builder.accepted list) = ((builder.registerAll list).1, none) ∧
      (builder.registerAll list).1.register failing =
        ((builder.registerAll list).1, some error) := by
  induction list generalizing builder with
  | nil => cases fails
  | cons descriptor rest ih =>
    cases result : (builder.register descriptor).2 with
    | none =>
      rw [registerAll_of_succeeds result] at fails ⊢
      rw [accepted_of_succeeds result]
      obtain ⟨failing, later, split, before, again⟩ :=
        ih (inStep.register descriptor false) fails
      refine ⟨failing, later, congrArg (descriptor :: ·) split, ?_, again⟩
      rw [registerAll_of_succeeds result, before]
    | some found =>
      have kept := inStep.register_failed (by rw [result]; exact Option.some_ne_none found)
      rw [registerAll_of_fails result, kept] at fails ⊢
      rw [accepted_of_fails result]
      cases fails
      exact ⟨descriptor, rest, rfl, rfl, Prod.ext kept result⟩

/-- Descriptors that name their families, and have names that differ, can all be registered. -/
theorem InStep.accepted_eq (inStep : builder.InStep) {list : List Descriptor}
    (named : ∀ entry ∈ list, Registry.lacksFamily entry = false)
    (distinct : Registry.Distinct ⟨builder.descriptors ++ list⟩) :
    builder.accepted list = list := by
  induction list generalizing builder with
  | nil => rfl
  | cons descriptor rest ih =>
    have fresh : (builder.descriptors.find? fun entry =>
        sameLetters entry.name descriptor.name) = none := by
      refine List.find?_eq_none.2 fun entry member alike => ?_
      rw [Registry.Distinct, List.map_append, List.nodup_append] at distinct
      exact distinct.2.2 _ (List.mem_map_of_mem member) _ List.mem_cons_self
        (Registry.sameLetters_iff.1 alike)
    have result : (builder.register descriptor).2 = none := by
      unfold RegistryBuilder.register
      rw [if_neg (by simp [named descriptor List.mem_cons_self]), inStep.find?_eq, fresh]
      rfl
    rw [accepted_of_succeeds result, ih (inStep.register descriptor false)]
    · exact fun entry member => named entry (List.mem_cons_of_mem _ member)
    · rwa [descriptors_register_new result, List.append_assoc]

theorem InStep.withAll (inStep : builder.InStep) (list : List Descriptor) :
    (builder.withAll list).InStep :=
  (inStep.descriptors_registerAll list).1

/-- Descriptors that can all be registered are added to what there is. -/
theorem InStep.descriptors_withAll (inStep : builder.InStep) {list : List Descriptor}
    (named : ∀ entry ∈ list, Registry.lacksFamily entry = false)
    (distinct : Registry.Distinct ⟨builder.descriptors ++ list⟩) :
    (builder.withAll list).descriptors = builder.descriptors ++ list := by
  have added := (inStep.descriptors_registerAll list).2
  rwa [inStep.accepted_eq named distinct] at added

theorem inStep_defaults : InStep .defaults :=
  inStep_empty.withAll Registry.builtin.descriptors

/-- The builder with the built-in directives has all of them. -/
theorem descriptors_defaults : defaults.descriptors = Registry.builtin.descriptors :=
  inStep_empty.descriptors_withAll Registry.hasFamilies_builtin Registry.distinct_builtin

/-! ## The index -/

/-- The maps of an index find a name as the registry does. -/
theorem InStep.lookup_build (inStep : builder.InStep) (name : Chars) :
    builder.build.lookup name = builder.registry.lookup name := by
  have exact : builder.byName.get? name =
      builder.descriptors.find? fun entry => decide (entry.name = name) := by
    rw [NameMap.get?, inStep.entries, List.find?_map, Option.map_map]
    exact congrFun Option.map_id _
  have folded : builder.build.byLower.get? (lower name) =
      builder.descriptors.find? fun entry => sameLetters entry.name name := by
    -- Lower-case names differ, so that none of them takes the place of another.
    have distinct := inStep.built.distinct
    have entries : builder.build.byLower.entries =
        builder.descriptors.map fun entry => (lower entry.name, entry) := by
      refine (NameMap.entries_foldl_put (fun entry : Chars × Descriptor => lower entry.1) Prod.snd
        builder.byName.entries ?_).trans ?_
      · rw [inStep.entries, List.map_map]
        exact distinct
      · rw [inStep.entries, List.map_map]
        rfl
    rw [NameMap.get?, entries, List.find?_map, Option.map_map]
    exact congrFun Option.map_id _
  show (builder.byName.get? name).or (builder.build.byLower.get? (lower name)) = _
  rw [exact, folded]
  rfl

/-- A family holds its descriptors in order. -/
theorem get?_foldl_addToFamily (list : List Descriptor) (families : NameMap (List Descriptor))
    (family : Chars) :
    ((list.foldl RegistryIndex.addToFamily families).get? family).getD [] =
      (families.get? family).getD [] ++ list.filter fun entry => entry.family = some family := by
  induction list generalizing families with
  | nil => exact (List.append_nil _).symm
  | cons entry rest ih =>
    rw [List.foldl_cons, ih, List.filter_cons, RegistryIndex.addToFamily]
    cases entry.family with
    | none => rfl
    | some own =>
      rw [NameMap.get?_put]
      by_cases same : own = family
      · subst same
        simp
      · simp [same]

/-- The families of an index list closers as the registry does. -/
theorem closers_build (builder : RegistryBuilder) (family : Chars) :
    builder.build.closers family = builder.registry.closers family := by
  show (((builder.descriptors.foldl RegistryIndex.addToFamily {}).get? family).getD []).filter _ = _
  rw [get?_foldl_addToFamily]
  show (builder.descriptors.filter _).filter _ = _
  rw [List.filter_filter, Registry.closers]
  refine List.filter_congr fun entry _ => ?_
  rw [Bool.decide_and, Bool.and_comm]

end RegistryBuilder

/-! ## Histories -/

/-- What a call registers. -/
def RegistryCall.accepted (session : RegistrySession) : RegistryCall → List Descriptor
  | .register descriptor replace =>
    if (session.builder.register descriptor replace).2 = none then [descriptor] else []
  | .registerAll descriptors => session.builder.accepted descriptors
  | .build => []

/-- What calls register, one after another: the log of successful registrations. -/
def RegistrySession.accepted (session : RegistrySession) : List RegistryCall → List Descriptor
  | [] => []
  | call :: rest => call.accepted session ++ (call.perform session).1.accepted rest

/-- An index gives the last registration of every name in a log, in whatever case it is asked for,
and lists the entries that close a family in the order of their registration. -/
structure RegistryIndex.Answers (index : RegistryIndex) (log : List Descriptor) : Prop where
  descriptors : index.descriptors = Registry.current log
  lookup : ∀ name, index.lookup name =
    (log.filter fun entry => lower entry.name = lower name).getLast?
  alike : ∀ a b, lower a = lower b → index.lookup a = index.lookup b
  closers : ∀ family, index.closers family =
    index.descriptors.filter fun entry => entry.family = some family ∧ entry.pairing = .closes

/-- A builder holds what a log amounts to: in the list, and in the map under their own names, which
differ in lower case; and what opens or closes a block names its family. -/
structure RegistryBuilder.Holds (builder : RegistryBuilder) (log : List Descriptor) : Prop where
  descriptors : builder.descriptors = Registry.current log
  entries : builder.byName.entries = builder.descriptors.map fun entry => (entry.name, entry)
  distinct : (builder.byName.entries.map fun entry => lower entry.1).Nodup
  families : ∀ entry ∈ builder.descriptors, entry.pairing = .opens ∨ entry.pairing = .closes →
    ∃ family, entry.family = some family ∧ family ≠ []

namespace RegistryBuilder

variable {builder : RegistryBuilder} {log : List Descriptor}

theorem InStep.holds (inStep : builder.InStep)
    (logged : builder.descriptors = Registry.current log) : builder.Holds log where
  descriptors := logged
  entries := inStep.entries
  distinct := by
    rw [inStep.entries, List.map_map]
    exact inStep.built.distinct
  families := by
    intro entry member paired
    have named := inStep.built.hasFamilies entry member
    cases given : entry.family with
    | none => rcases paired with opens | closes <;> simp_all [Registry.lacksFamily]
    | some family =>
      refine ⟨family, rfl, ?_⟩
      rintro rfl
      rcases paired with opens | closes <;> simp_all [Registry.lacksFamily]

/-- What is built answers as the log does. -/
theorem InStep.answers_build (inStep : builder.InStep)
    (logged : builder.descriptors = Registry.current log) : builder.build.Answers log := by
  have lookup (name : Chars) : builder.build.lookup name =
      (log.filter fun entry => lower entry.name = lower name).getLast? := by
    rw [inStep.lookup_build, Registry.lookup_eq_find? inStep.built, descriptors_registry, logged,
      Registry.find?_current]
    rfl
  refine ⟨logged, lookup, fun a b alike => ?_, closers_build builder⟩
  rw [lookup, lookup, alike]

end RegistryBuilder

namespace RegistrySession

variable {session : RegistrySession} {log : List Descriptor}

theorem perform_register (session : RegistrySession) (descriptor : Descriptor) (replace : Bool) :
    (RegistryCall.register descriptor replace).perform session =
      (⟨(session.builder.register descriptor replace).1, session.built⟩,
        (session.builder.register descriptor replace).2) := rfl

theorem perform_registerAll (session : RegistrySession) (list : List Descriptor) :
    (RegistryCall.registerAll list).perform session =
      (⟨(session.builder.registerAll list).1, session.built⟩,
        (session.builder.registerAll list).2) := rfl

/-- What every call preserves: the builder is in step and holds what the log amounts to. -/
structure Sound (session : RegistrySession) (log : List Descriptor) : Prop where
  inStep : session.builder.InStep
  descriptors : session.builder.descriptors = Registry.current log

theorem Sound.perform (sound : session.Sound log) (call : RegistryCall) :
    (call.perform session).1.Sound (log ++ call.accepted session) := by
  obtain ⟨inStep, logged⟩ := sound
  cases call with
  | register descriptor replace =>
    refine ⟨inStep.register descriptor replace, ?_⟩
    rw [perform_register, RegistryCall.accepted]
    split
    · next succeeds =>
      rw [inStep.descriptors_register succeeds, Registry.current_concat, logged]
    · next fails => rw [inStep.register_failed fails, logged, List.append_nil]
  | registerAll descriptors =>
    exact ⟨(inStep.descriptors_registerAll descriptors).1,
      inStep.current_registerAll logged descriptors⟩
  | build =>
    rw [RegistryCall.accepted, List.append_nil]
    exact ⟨inStep, logged⟩

theorem Sound.run (sound : session.Sound log) (calls : List RegistryCall) :
    (session.run calls).Sound (log ++ session.accepted calls) := by
  induction calls generalizing session log with
  | nil =>
    rw [accepted, List.append_nil]
    exact sound
  | cons call rest ih =>
    rw [accepted, ← List.append_assoc]
    exact ih (sound.perform call)

/-- A registration that fails leaves everything as it was. -/
theorem Sound.register_failed (sound : session.Sound log) {descriptor : Descriptor} {replace : Bool}
    {error : RegistrationError}
    (fails : ((RegistryCall.register descriptor replace).perform session).2 = some error) :
    ((RegistryCall.register descriptor replace).perform session).1 = session := by
  rw [perform_register] at fails ⊢
  rw [sound.inStep.register_failed (by rw [fails]; exact Option.some_ne_none error)]

/-- Several registrations that fail leave what those before the failing one lead to. -/
theorem Sound.registerAll_failed (sound : session.Sound log) {list : List Descriptor}
    {error : RegistrationError}
    (fails : ((RegistryCall.registerAll list).perform session).2 = some error) :
    ∃ before failing later, list = before ++ failing :: later ∧
      let next := ((RegistryCall.registerAll list).perform session).1
      (RegistryCall.registerAll before).perform session = (next, none) ∧
      next.builder.descriptors = session.builder.descriptors ++ before ∧
      (RegistryCall.register failing false).perform next = (next, some error) := by
  rw [perform_registerAll] at fails
  obtain ⟨failing, later, split, before, again⟩ := sound.inStep.registerAll_failed fails
  refine ⟨_, failing, later, split, ?_, (sound.inStep.descriptors_registerAll list).2, ?_⟩
  · rw [perform_registerAll, perform_registerAll, before]
  · rw [perform_registerAll, perform_register, again]

theorem sound_new {builder : RegistryBuilder} (inStep : builder.InStep)
    (logged : builder.descriptors = Registry.current log) : Sound ⟨builder, []⟩ log :=
  ⟨inStep, logged⟩

/-- A builder to start from, and what it holds. -/
theorem sound_start {start : RegistryBuilder} {held : List Descriptor}
    (base : start = .empty ∧ held = [] ∨
      start = .defaults ∧ held = Registry.builtin.descriptors) :
    Sound ⟨start, []⟩ held := by
  rcases base with ⟨same, holds⟩ | ⟨same, holds⟩
  · rw [same, holds]
    exact sound_new RegistryBuilder.inStep_empty rfl
  · rw [same, holds]
    refine sound_new RegistryBuilder.inStep_defaults ?_
    rw [RegistryBuilder.descriptors_defaults,
      Registry.current_of_distinct Registry.distinct_builtin]

theorem run_append (session : RegistrySession) (calls later : List RegistryCall) :
    session.run (calls ++ later) = (session.run calls).run later :=
  List.foldl_append

/-- A call builds one index or none; those that are there stay. -/
theorem built_perform (session : RegistrySession) (call : RegistryCall) :
    (call.perform session).1.built =
      session.built ++ if call = .build then [session.builder.build] else [] := by
  cases call <;> simp [RegistryCall.perform]

/-- What is built stays, and every call to build adds one index. -/
theorem built_run (session : RegistrySession) (calls : List RegistryCall) :
    session.built <+: (session.run calls).built ∧
      (session.run calls).built.length = session.built.length + calls.count .build := by
  induction calls generalizing session with
  | nil => exact ⟨List.prefix_refl _, rfl⟩
  | cons call rest ih =>
    obtain ⟨kept, length⟩ := ih (call.perform session).1
    rw [built_perform] at kept length
    refine ⟨(List.prefix_append _ _).trans kept, length.trans ?_⟩
    rw [List.length_append, List.count_cons, Nat.add_assoc]
    by_cases build : call = .build
    · simp [build, Nat.add_comm]
    · simp [build]

/-- The index of a call to build is that of the builder at this call. -/
theorem getElem?_built_run (session : RegistrySession) (earlier later : List RegistryCall) :
    (session.run (earlier ++ .build :: later)).built[session.built.length + earlier.count .build]? =
      some (session.run earlier).builder.build := by
  obtain ⟨kept, -⟩ :=
    built_run (RegistryCall.build.perform (session.run earlier)).1 later
  rw [built_perform, if_pos rfl] at kept
  rw [← (built_run session earlier).2, run_append]
  obtain ⟨more, whole⟩ := kept
  show ((RegistryCall.build.perform (session.run earlier)).1.run later).built[_]? = _
  rw [← whole, List.append_assoc, List.getElem?_append_right (Nat.le_refl _), Nat.sub_self]
  rfl

end RegistrySession

/-- **Whatever is called on a builder**, starting from the empty one or the one with the built-in
directives. The log is what the start holds and every descriptor that is registered successfully
from then on. So

* the builder holds what the log amounts to;
* a registration that fails leaves everything as it was;
* several registrations that fail leave what those before the failing one lead to, which are added
  to what was there;
* what is built stays, whatever is called later;
* every call to build adds one index, and it answers as the log up to that call does, not as what is
  registered later. -/
theorem registry_history {start : RegistryBuilder} {held : List Descriptor}
    (base : start = .empty ∧ held = [] ∨ start = .defaults ∧ held = Registry.builtin.descriptors)
    (calls : List RegistryCall) :
    let session : RegistrySession := ⟨start, []⟩
    let state := session.run calls
    state.builder.Holds (held ++ session.accepted calls) ∧
    (∀ descriptor replace error,
      ((RegistryCall.register descriptor replace).perform state).2 = some error →
        ((RegistryCall.register descriptor replace).perform state).1 = state) ∧
    (∀ list error, ((RegistryCall.registerAll list).perform state).2 = some error →
      ∃ before failing later, list = before ++ failing :: later ∧
        let next := ((RegistryCall.registerAll list).perform state).1
        (RegistryCall.registerAll before).perform state = (next, none) ∧
        next.builder.descriptors = state.builder.descriptors ++ before ∧
        (RegistryCall.register failing false).perform next = (next, some error)) ∧
    (∀ later, state.built <+: (state.run later).built) ∧
    state.built.length = calls.count .build ∧
    ∀ earlier later, calls = earlier ++ .build :: later →
      ∃ index, state.built[earlier.count .build]? = some index ∧
        index.Answers (held ++ session.accepted earlier) := by
  intro session state
  have sound := RegistrySession.sound_start base
  have reached := sound.run calls
  refine ⟨reached.inStep.holds reached.descriptors, fun _ _ _ => reached.register_failed,
    fun _ _ => reached.registerAll_failed, fun later => (state.built_run later).1, ?_, ?_⟩
  · rw [(session.built_run calls).2]
    exact Nat.zero_add _
  · rintro earlier later rfl
    have before := sound.run earlier
    have index := session.getElem?_built_run earlier later
    rw [show session.built.length = 0 from rfl, Nat.zero_add] at index
    exact ⟨_, index, before.inStep.answers_build before.descriptors⟩

/-- A name is registered, replaced in another case, and refused; what was built in between keeps the
first entry. -/
theorem registry_history_replaced :
    let first : Descriptor := { name := "Foo".toList }
    let second : Descriptor :=
      { name := "fOO".toList, pairing := .closes, family := some "foo".toList }
    let third : Descriptor := { name := "bar".toList }
    let session : RegistrySession := ⟨.empty, []⟩
    let state := session.run [.register first false, .build, .register second true,
      .registerAll [third, first, third], .build]
    state.builder.Holds [first, second, third] ∧
    state.builder.descriptors = [second, third] ∧
    (∃ index, state.built[0]? = some index ∧ index.Answers [first]) ∧
    ∃ index, state.built[1]? = some index ∧ index.Answers [first, second, third] := by
  intro first second third session state
  obtain ⟨holds, -, -, -, -, builds⟩ := registry_history (.inl ⟨rfl, rfl⟩)
    [.register first false, .build, .register second true, .registerAll [third, first, third],
      .build]
  have now : session.accepted [.register first false, .build, .register second true,
      .registerAll [third, first, third], .build] = [first, second, third] := by decide +kernel
  have earlier : session.accepted [.register first false] = [first] := by decide +kernel
  have last : session.accepted [.register first false, .build, .register second true,
      .registerAll [third, first, third]] = [first, second, third] := by decide +kernel
  rw [now] at holds
  refine ⟨holds, by decide +kernel, ?_, ?_⟩
  · rw [← earlier]
    exact builds [.register first false] _ rfl
  · rw [← last]
    exact builds [.register first false, .build, .register second true,
      .registerAll [third, first, third]] [] rfl

end BladeTemplate
