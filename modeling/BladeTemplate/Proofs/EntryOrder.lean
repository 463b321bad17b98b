import BladeTemplate.Proofs.NormalForm
import BladeTemplate.Proofs.Outline
import BladeTemplate.Proofs.Preserved

/-!
# Entries in order

The entries between two fences are sorted by name, and sorting is stable. So entries that were put
in order once stay in that order, those of one name keep theirs, and fences keep their places.

* `Text.notAfter_iff` says that names are in the lexicographic order of their code points;
* `Attribute.order_order` says the first, `Attribute.filter_sortRun` and `Attribute.filter_order`
  the second, `Attribute.arrange_fence` and `Attribute.getElem?_order_fence` the third;
* `Attribute.IsRun` is a run between fences, and `Attribute.IsRun.order_eq` says that each is sorted
  where it stands;
* `order_sorts_between_fences` puts them together.
-/

namespace BladeTemplate

open Text

/-! ## The order of names -/

namespace Text

/-- The lexicographic order of code points. -/
def Precedes (a b : Chars) : Prop :=
  List.Lex (fun x y => x.toNat < y.toNat) a b

theorem notAfter_iff (a b : Chars) : notAfter a b = true ↔ ¬ Precedes b a := by
  induction a generalizing b with
  | nil => exact iff_of_true (by simp [notAfter]) (by rintro ⟨⟩)
  | cons x a ih =>
    cases b with
    | nil => exact iff_of_false (by simp [notAfter]) (not_not_intro .nil)
    | cons y b =>
      rw [Precedes, List.cons_lex_cons_iff, not_or, not_and, notAfter]
      split
      · next same =>
        subst same
        rw [ih]
        exact ⟨fun inOrder => ⟨Nat.lt_irrefl _, fun _ => inOrder⟩, fun inOrder => inOrder.2 rfl⟩
      · next other =>
        rw [decide_eq_true_eq]
        refine ⟨fun less => ⟨Nat.lt_asymm less, fun same => absurd same.symm other⟩, fun inOrder => ?_⟩
        exact Nat.lt_of_le_of_ne (Nat.not_lt.1 inOrder.1) fun same => other (Char.toNat_inj.1 same)

theorem notAfter_total (a b : Chars) : (notAfter a b || notAfter b a) = true := by
  rw [Bool.or_eq_true, notAfter_iff, notAfter_iff]
  exact List.le_total a b

theorem notAfter_trans (a b c : Chars) (ab : notAfter a b = true) (bc : notAfter b c = true) :
    notAfter a c = true := by
  rw [notAfter_iff] at ab bc ⊢
  exact @List.le_trans Char _ _ _ _ a b c ab bc

end Text

/-! ## Entries in order -/

namespace Attribute

/-- Whether an entry stands no later than another in the order of lower-case names. -/
def notAfter (a b : Attribute) : Bool :=
  Text.notAfter (lower a.name) (lower b.name)

theorem notAfter_trans (a b c : Attribute) (ab : notAfter a b = true) (bc : notAfter b c = true) :
    notAfter a c = true :=
  Text.notAfter_trans _ _ _ ab bc

theorem notAfter_total (a b : Attribute) : (notAfter a b || notAfter b a) = true :=
  Text.notAfter_total _ _

theorem pairwise_sortRun (run : List Attribute) : (sortRun run).Pairwise (notAfter · ·) :=
  List.pairwise_mergeSort notAfter_trans notAfter_total run

theorem sortRun_sortRun (run : List Attribute) : sortRun (sortRun run) = sortRun run :=
  List.mergeSort_of_pairwise (pairwise_sortRun run)

theorem mem_sortRun {run : List Attribute} {entry : Attribute} :
    entry ∈ sortRun run ↔ entry ∈ run :=
  (List.mergeSort_perm _ _).mem_iff

/-- Entries that are no fences belong to the run in progress. -/
theorem arrange_append {front : List Attribute} (free : ∀ entry ∈ front, entry.isFence = false)
    (run rest : List Attribute) :
    arrange run (front ++ rest) = arrange (front.reverse ++ run) rest := by
  induction front generalizing run with
  | nil => rfl
  | cons entry front ih =>
    have notFence : ¬ entry.isFence = true := by simp [free entry List.mem_cons_self]
    rw [List.cons_append, arrange, if_neg notFence,
      ih fun other member => free other (List.mem_cons_of_mem entry member), List.reverse_cons,
      List.append_assoc, List.singleton_append]

/-- Runs that are sorted stay as they are. -/
theorem arrange_arrange {run : List Attribute} (free : ∀ entry ∈ run, entry.isFence = false)
    (entries : List Attribute) : arrange [] (arrange run entries) = arrange run entries := by
  have freeSorted {run : List Attribute} (free : ∀ entry ∈ run, entry.isFence = false) :
      ∀ entry ∈ sortRun run.reverse, entry.isFence = false :=
    fun entry member => free entry (List.mem_reverse.1 (mem_sortRun.1 member))
  induction entries generalizing run with
  | nil =>
    have whole := arrange_append (freeSorted free) [] []
    rw [List.append_nil] at whole
    rw [arrange, whole, List.append_nil, arrange, List.reverse_reverse, sortRun_sortRun]
  | cons entry rest ih =>
    rw [arrange]
    split
    · next fence =>
      have fresh := @ih [] (by simp)
      rw [arrange_append (freeSorted free), List.append_nil, arrange, if_pos fence,
        List.reverse_reverse, sortRun_sortRun, fresh]
    · next notFence =>
      refine ih (List.forall_mem_cons.2 ⟨by simpa using notFence, free⟩)

/-- Entries that are in order stay in that order. -/
theorem order_order (entries : List Attribute) (sort : Bool) :
    order (order entries sort) sort = order entries sort := by
  cases sort with
  | false => rfl
  | true => exact arrange_arrange (by simp) entries

/-- Sorting keeps the order of entries that have one lower-case name. -/
theorem filter_sortRun {run : List Attribute} {chosen : Attribute → Bool} {name : Chars}
    (alike : ∀ entry ∈ run, chosen entry = true → lower entry.name = name) :
    (sortRun run).filter chosen = run.filter chosen := by
  have sorted : (run.filter chosen).Pairwise (notAfter · ·) := by
    refine List.pairwise_of_forall_mem_list fun a inA b inB => ?_
    obtain ⟨amongA, chosenA⟩ := List.mem_filter.1 inA
    obtain ⟨amongB, chosenB⟩ := List.mem_filter.1 inB
    have itself := Text.notAfter_total name name
    rw [notAfter, alike a amongA chosenA, alike b amongB chosenB]
    simpa using itself
  -- They are sorted among themselves, so that sorting leaves them as they are.
  have kept : (run.filter chosen).Sublist ((sortRun run).filter chosen) := by
    have inside := List.sublist_mergeSort notAfter_trans notAfter_total sorted
      List.filter_sublist
    have again := inside.filter chosen
    simp only [List.filter_filter, Bool.and_self] at again
    exact again
  have size : ((sortRun run).filter chosen).length = (run.filter chosen).length :=
    ((List.mergeSort_perm _ _).filter _).length_eq
  exact (kept.eq_of_length size.symm).symm

/-- Without a fence, all entries are one run. -/
theorem arrange_of_free {entries : List Attribute}
    (free : ∀ entry ∈ entries, entry.isFence = false) :
    arrange [] entries = sortRun entries := by
  have whole := arrange_append free [] []
  rwa [List.append_nil, List.append_nil, arrange, List.reverse_reverse] at whole

/-- Entries of one name keep their order. -/
theorem filter_order {entries : List Attribute} (free : ∀ entry ∈ entries, entry.isFence = false)
    {chosen : Attribute → Bool} {name : Chars}
    (alike : ∀ entry ∈ entries, chosen entry = true → entry.name = name) (sort : Bool) :
    (order entries sort).filter chosen = entries.filter chosen := by
  cases sort with
  | false => rfl
  | true =>
    show (arrange [] entries).filter chosen = _
    rw [arrange_of_free free]
    exact filter_sortRun fun entry member isChosen => by rw [alike entry member isChosen]

/-! ## Fences -/

/-- A fence stays where it is, and nothing is moved across it. -/
theorem arrange_fence {fence : Attribute} (fenced : fence.isFence = true)
    (run front back : List Attribute) :
    arrange run (front ++ fence :: back) = arrange run front ++ fence :: arrange [] back := by
  induction front generalizing run with
  | nil => simp only [List.nil_append, arrange, if_pos fenced]
  | cons entry front ih =>
    rw [List.cons_append, arrange, arrange]
    split
    · rw [ih, List.append_assoc, List.cons_append]
    · exact ih _

theorem order_fence {fence : Attribute} (fenced : fence.isFence = true)
    (front back : List Attribute) :
    order (front ++ fence :: back) true = order front true ++ fence :: order back true :=
  arrange_fence fenced [] front back

/-- Among entries that are no fences there are none after sorting either. -/
theorem map_guard_sortRun {run : List Attribute} (free : ∀ entry ∈ run, entry.isFence = false) :
    (sortRun run).map (Option.guard isFence) = run.map (Option.guard isFence) := by
  have blank {entries : List Attribute} (within : ∀ entry ∈ entries, entry ∈ run) :
      entries.map (Option.guard isFence) = List.replicate entries.length none := by
    refine List.eq_replicate_iff.2 ⟨List.length_map _, fun marked member => ?_⟩
    obtain ⟨entry, among, rfl⟩ := List.mem_map.1 member
    simp [Option.guard, free entry (within entry among)]
  have size : (sortRun run).length = run.length := (List.mergeSort_perm _ _).length_eq
  rw [blank fun _ => mem_sortRun.1, blank fun _ => id, size]

/-- The fences keep their places, and the places of other entries stay theirs. -/
theorem map_guard_arrange {run : List Attribute} (free : ∀ entry ∈ run, entry.isFence = false)
    (entries : List Attribute) :
    (arrange run entries).map (Option.guard isFence) =
      (run.reverse ++ entries).map (Option.guard isFence) := by
  have sorted {run : List Attribute} (free : ∀ entry ∈ run, entry.isFence = false) :
      (sortRun run.reverse).map (Option.guard isFence) =
        run.reverse.map (Option.guard isFence) :=
    map_guard_sortRun fun entry member => free entry (List.mem_reverse.1 member)
  induction entries generalizing run with
  | nil => rw [arrange, sorted free, List.append_nil]
  | cons entry rest ih =>
    rw [arrange]
    split
    · rw [List.map_append, List.map_append, sorted free, List.map_cons, List.map_cons,
        @ih [] (by simp), List.reverse_nil, List.nil_append]
    · next notFence =>
      rw [ih (List.forall_mem_cons.2 ⟨by simpa using notFence, free⟩), List.reverse_cons,
        List.append_assoc, List.singleton_append]

/-- A fence stands at a place of the result if and only if it stood there before. -/
theorem getElem?_order_fence {fence : Attribute} (fenced : fence.isFence = true)
    (entries : List Attribute) (i : Nat) :
    (order entries true)[i]? = some fence ↔ entries[i]? = some fence := by
  have guarded (entries : List Attribute) :
      entries[i]? = some fence ↔ (entries.map (Option.guard isFence))[i]? = some (some fence) := by
    rw [List.getElem?_map, Option.map_eq_some_iff]
    refine ⟨fun found => ⟨fence, found, by simp [Option.guard, fenced]⟩, ?_⟩
    rintro ⟨entry, found, same⟩
    rw [Option.guard_eq_some_iff] at same
    rw [found, same.1]
  have places := @map_guard_arrange [] (by simp) entries
  rw [List.reverse_nil, List.nil_append] at places
  rw [guarded, guarded entries, ← places]
  rfl

/-! ## Runs -/

/-- A part of the entries that has no fence before and behind it only. -/
structure IsRun (front run back : List Attribute) : Prop where
  free : ∀ entry ∈ run, entry.isFence = false
  before : ∀ entry, front.getLast? = some entry → entry.isFence = true
  behind : ∀ entry, back.head? = some entry → entry.isFence = true

/-- Every run is sorted where it stands. -/
theorem IsRun.order_eq {front run back : List Attribute} (isRun : IsRun front run back) :
    order (front ++ run ++ back) true =
      order front true ++ sortRun run ++ order back true := by
  have alone : order run true = sortRun run := arrange_of_free isRun.free
  -- What stands behind the run starts with a fence, if it is something.
  have last : order (run ++ back) true = sortRun run ++ order back true := by
    cases back with
    | nil => rw [List.append_nil, alone, order_nil, List.append_nil]
    | cons fence back =>
      have fenced := isRun.behind fence rfl
      have itself := order_fence fenced [] back
      rw [order_fence fenced, alone, ← List.nil_append (fence :: back), itself, order_nil,
        List.nil_append]
  rcases List.eq_nil_or_concat front with rfl | ⟨front, fence, rfl⟩
  · rw [List.nil_append, last, order_nil, List.nil_append]
  · have fenced := isRun.before fence (by simp)
    rw [List.concat_eq_append, List.append_assoc, List.append_assoc, List.singleton_append,
      order_fence fenced, order_fence fenced, last, order_nil]
    simp only [List.append_assoc, List.cons_append, List.nil_append]

end Attribute

/-- Sorting entries rearranges them, and fences are what it keeps to: each of them stays at its
place with the same entries in front of it and behind it, and every run between them is sorted by
lower-case name in the order of code points, where entries of one name stay in their order. Sorted
entries are not moved again, and without sorting all stay as they are. -/
theorem order_sorts_between_fences (entries : List Attribute) :
    let ordered := Attribute.order entries true
    ordered.Perm entries ∧
    (∀ i fence, fence.isFence = true →
      (ordered[i]? = some fence ↔ entries[i]? = some fence) ∧
      (entries[i]? = some fence → (ordered.take i).Perm (entries.take i) ∧
        (ordered.drop (i + 1)).Perm (entries.drop (i + 1)))) ∧
    (∀ front run back, entries = front ++ run ++ back → Attribute.IsRun front run back →
      let sorted := (ordered.drop front.length).take run.length
      sorted.Perm run ∧ (sorted.Pairwise fun a b => ¬ Precedes (lower b.name) (lower a.name)) ∧
        ∀ name, sorted.filter (fun entry => lower entry.name = name) =
          run.filter fun entry => lower entry.name = name) ∧
    Attribute.order ordered true = ordered ∧ Attribute.order entries false = entries := by
  intro ordered
  have size (part : List Attribute) : (Attribute.order part true).length = part.length :=
    (Attribute.perm_order part true).length_eq
  refine ⟨Attribute.perm_order entries true, ?_, ?_, Attribute.order_order entries true, rfl⟩
  · intro i fence fenced
    refine ⟨Attribute.getElem?_order_fence fenced entries i, fun found => ?_⟩
    obtain ⟨inside, rfl⟩ := List.getElem?_eq_some_iff.1 found
    have split : entries = entries.take i ++ entries[i] :: entries.drop (i + 1) := by simp
    have whole : ordered = Attribute.order (entries.take i) true ++
        entries[i] :: Attribute.order (entries.drop (i + 1)) true := by
      rw [← Attribute.order_fence fenced, ← split]
    have place : (Attribute.order (entries.take i) true).length = i := by
      rw [size, List.length_take, Nat.min_eq_left (Nat.le_of_lt inside)]
    rw [whole, List.take_left' place, ← List.drop_drop, List.drop_left' place]
    exact ⟨Attribute.perm_order _ true, Attribute.perm_order _ true⟩
  · rintro front run back rfl isRun
    have sorted : ((ordered.drop front.length).take run.length) = Attribute.sortRun run := by
      have sortedSize : (Attribute.sortRun run).length = run.length :=
        (List.mergeSort_perm _ _).length_eq
      show ((Attribute.order (front ++ run ++ back) true).drop front.length).take run.length = _
      rw [isRun.order_eq, List.append_assoc, List.drop_left' (size front),
        List.take_left' sortedSize]
    simp only [sorted]
    refine ⟨List.mergeSort_perm _ _, ?_, fun name => ?_⟩
    · exact (Attribute.pairwise_sortRun run).imp fun inOrder => (notAfter_iff _ _).1 inOrder
    · exact Attribute.filter_sortRun fun entry _ chosen => of_decide_eq_true chosen

/-- Two entries of one name behind a fence, which is a directive in a start tag: they stay in their
order, and the entry in front of the fence stays there. -/
theorem order_sorts_between_fences_duplicates :
    let entry (name : String) (value : Option Chars) : Attribute :=
      { location := default, name := name.toList, value }
    let fence := { entry "@if($x)" none with ambiguous := true }
    let front := [entry "z" none, fence]
    let run := [entry "y" none, entry "B" none, entry "b" (some ['1'])]
    let ordered := Attribute.order (front ++ run) true
    let sorted := (ordered.drop front.length).take run.length
    fence.isFence = true ∧ Attribute.IsRun front run [] ∧
      ordered[1]? = some fence ∧ (ordered.take 1).Perm [entry "z" none] ∧ sorted.Perm run ∧
      sorted.filter (fun entry => lower entry.name = ['b']) =
        [entry "B" none, entry "b" (some ['1'])] := by
  intro entry fence front run ordered sorted
  have fenced : fence.isFence = true := rfl
  have isRun : Attribute.IsRun front run [] :=
    ⟨by decide +kernel, by simp [front, fenced], by simp⟩
  have found : (front ++ run)[1]? = some fence := rfl
  have kept : (run.filter fun entry => lower entry.name = ['b']) =
      [entry "B" none, entry "b" (some ['1'])] := by decide +kernel
  obtain ⟨-, fences, runs, -, -⟩ := order_sorts_between_fences (front ++ run)
  obtain ⟨place, sides⟩ := fences 1 fence fenced
  have whole : front ++ run = front ++ run ++ [] := (List.append_nil _).symm
  obtain ⟨perm, -, alike⟩ := runs front run [] whole isRun
  exact ⟨fenced, isRun, place.2 found, (sides found).1, perm, (alike ['b']).trans kept⟩

end BladeTemplate
