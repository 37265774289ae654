import Mathlib.Logic.ExistsUnique
import ModelScoring.Model.Basic

/-!
# Steps and their numbers

The steps of a model are put in ascending order of their numbers, and steps of one number stay in
the order they had.  There is one such order (`StableOrder.unique`), so it does not matter how it is
found.

Then the numbers are compared with one, two, three and so on.  Nothing is at fault exactly if the
numbers are these in some order, each once: an ascending list that is a permutation of an ascending
list is that list (`numbered_sortSteps_iff`).  So a gap, a number that is there twice and one that
is out of range are all found.  The step that is named is the first whose number is not that of its
place, and of the steps of one number the earlier ones have the places before.

`Model.inOrder_settled_by_numbers` says all of it of any model.
-/

namespace ModelScoring

namespace Model

/-! ## Stable order -/

/-- Steps in ascending order of their numbers, those of one number as they were. -/
structure StableOrder (steps order : List Step) : Prop where
  ascending : order.Pairwise fun s t => s.sequence ≤ t.sequence
  /-- The steps of each number are the same, in the same order. -/
  stable : ∀ n, order.filter (fun s => s.sequence = n) = steps.filter fun s => s.sequence = n

theorem sequence_le_trans (s t u : Step) (hst : decide (s.sequence ≤ t.sequence) = true)
    (htu : decide (t.sequence ≤ u.sequence) = true) : decide (s.sequence ≤ u.sequence) = true :=
  decide_eq_true (Nat.le_trans (of_decide_eq_true hst) (of_decide_eq_true htu))

theorem sequence_le_total (s t : Step) :
    (decide (s.sequence ≤ t.sequence) || decide (t.sequence ≤ s.sequence)) = true := by
  simpa using Nat.le_total s.sequence t.sequence

theorem perm_sortSteps (steps : List Step) : (sortSteps steps).Perm steps :=
  List.mergeSort_perm _ _

theorem ascending_sortSteps (steps : List Step) :
    (sortSteps steps).Pairwise fun s t => s.sequence ≤ t.sequence :=
  (List.pairwise_mergeSort sequence_le_trans sequence_le_total steps).imp of_decide_eq_true

theorem stableOrder_sortSteps (steps : List Step) : StableOrder steps (sortSteps steps) where
  ascending := ascending_sortSteps steps
  stable := by
    intro n
    let ofNumber := fun s : Step => decide (s.sequence = n)
    have hequal : (steps.filter ofNumber).Pairwise fun s t =>
        decide (s.sequence ≤ t.sequence) = true := by
      refine List.pairwise_of_forall_mem_list fun s hs t ht => decide_eq_true ?_
      have hs' : s.sequence = n := of_decide_eq_true (List.mem_filter.1 hs).2
      have ht' : t.sequence = n := of_decide_eq_true (List.mem_filter.1 ht).2
      exact Nat.le_of_eq (hs'.trans ht'.symm)
    -- Sorting keeps what is ascending as it is, and steps of one number are.
    have hsub : (steps.filter ofNumber).Sublist (sortSteps steps) :=
      List.sublist_mergeSort sequence_le_trans sequence_le_total hequal List.filter_sublist
    have hfilter := hsub.filter ofNumber
    rw [List.filter_filter] at hfilter
    simp only [Bool.and_self] at hfilter
    have hlength := ((perm_sortSteps steps).filter ofNumber).length_eq
    exact (hfilter.eq_of_length hlength.symm).symm

theorem mem_iff_of_filter_eq {order other : List Step}
    (h : ∀ n, order.filter (fun s => s.sequence = n) = other.filter fun s => s.sequence = n)
    (s : Step) : s ∈ order ↔ s ∈ other := by
  have hs : s ∈ order.filter (fun t => t.sequence = s.sequence) ↔
      s ∈ other.filter fun t => t.sequence = s.sequence := by rw [h]
  simpa using hs

/-- Ascending lists that have the same steps of each number are equal. -/
theorem eq_of_filter_eq {order other : List Step}
    (horder : order.Pairwise fun s t => s.sequence ≤ t.sequence)
    (hother : other.Pairwise fun s t => s.sequence ≤ t.sequence)
    (h : ∀ n, order.filter (fun s => s.sequence = n) = other.filter fun s => s.sequence = n) :
    order = other := by
  induction order generalizing other with
  | nil =>
    cases other with
    | nil => rfl
    | cons t other =>
      exact absurd ((mem_iff_of_filter_eq h t).2 List.mem_cons_self) List.not_mem_nil
  | cons s order ih =>
    cases other with
    | nil => exact absurd ((mem_iff_of_filter_eq h s).1 List.mem_cons_self) List.not_mem_nil
    | cons t other =>
      obtain ⟨hs, hrest⟩ := List.pairwise_cons.1 horder
      obtain ⟨ht, hrest'⟩ := List.pairwise_cons.1 hother
      -- Each of the two first steps is in the other list, so neither number is greater.
      have hle : s.sequence ≤ t.sequence := by
        rcases List.mem_cons.1 ((mem_iff_of_filter_eq h t).2 List.mem_cons_self) with rfl | hmem
        · exact Nat.le_refl _
        · exact hs t hmem
      have hge : t.sequence ≤ s.sequence := by
        rcases List.mem_cons.1 ((mem_iff_of_filter_eq h s).1 List.mem_cons_self) with rfl | hmem
        · exact Nat.le_refl _
        · exact ht s hmem
      have heq : s.sequence = t.sequence := Nat.le_antisymm hle hge
      have hfirst := h t.sequence
      simp only [List.filter_cons, heq, decide_true, if_true, List.cons.injEq] at hfirst
      obtain ⟨rfl, -⟩ := hfirst
      refine congrArg (s :: ·) (ih hrest hrest' fun n => ?_)
      have hn := h n
      simp only [List.filter_cons] at hn
      split at hn
      · exact (List.cons.inj hn).2
      · exact hn

theorem StableOrder.unique {steps order other : List Step} (h : StableOrder steps order)
    (h' : StableOrder steps other) : order = other :=
  eq_of_filter_eq h.ascending h'.ascending fun n => (h.stable n).trans (h'.stable n).symm

/-! ## Numbers that run on -/

/-- Steps carry the numbers from the first one on. -/
def Numbered (first : Nat) (steps : List Step) : Prop :=
  steps.map Step.sequence = List.range' first steps.length

theorem numbered_cons_iff {first : Nat} {s : Step} {steps : List Step} :
    Numbered first (s :: steps) ↔ s.sequence = first ∧ Numbered (first + 1) steps := by
  rw [Numbered, List.map_cons, List.length_cons, List.range'_succ, List.cons.injEq, Numbered]

theorem numbered_iff {first : Nat} {steps : List Step} :
    Numbered first steps ↔
      ∀ (i : Nat) (h : i < steps.length), steps[i].sequence = first + i := by
  constructor
  · intro h i hi
    have hget := congrArg (fun numbers => numbers[i]?) h
    simpa [hi] using hget
  · intro h
    refine List.ext_getElem (by simp) fun i hi _ => ?_
    rw [List.getElem_map, List.getElem_range', Nat.one_mul]
    exact h i (by simpa using hi)

theorem misplaced?_eq_none_iff {expected : Nat} {steps : List Step} :
    misplaced? expected steps = none ↔ Numbered expected steps := by
  induction steps generalizing expected with
  | nil => simp [misplaced?, Numbered]
  | cons s steps ih =>
    rw [numbered_cons_iff, misplaced?]
    split
    · next hs => rw [ih, and_iff_right hs]
    · next hs => simp [hs]

/-- The misplaced step is the one behind the longest start that carries its numbers. -/
theorem misplaced?_eq_some_iff {first n : Nat} {steps : List Step} {s : Step} :
    misplaced? first steps = some (s, n) ↔
      ∃ before after, steps = before ++ s :: after ∧ Numbered first before ∧
        n = first + before.length ∧ s.sequence ≠ n := by
  induction steps generalizing first with
  | nil => simp [misplaced?]
  | cons t steps ih =>
    rw [misplaced?]
    split
    · next ht =>
      rw [ih]
      constructor
      · rintro ⟨before, after, rfl, hnumbered, hn, hs⟩
        refine ⟨t :: before, after, rfl, numbered_cons_iff.2 ⟨ht, hnumbered⟩, ?_, hs⟩
        rw [hn, List.length_cons]
        omega
      · rintro ⟨before, after, hsplit, hnumbered, hn, hs⟩
        cases before with
        | nil =>
          obtain ⟨rfl, rfl⟩ := List.cons.inj hsplit
          exact absurd (ht.trans hn.symm) hs
        | cons u before =>
          obtain ⟨rfl, rfl⟩ := List.cons.inj hsplit
          refine ⟨before, after, rfl, (numbered_cons_iff.1 hnumbered).2, ?_, hs⟩
          rw [hn, List.length_cons]
          omega
    · next ht =>
      constructor
      · intro h
        cases h
        exact ⟨[], steps, rfl, rfl, rfl, ht⟩
      · rintro ⟨before, after, hsplit, hnumbered, hn, hs⟩
        cases before with
        | nil =>
          obtain ⟨rfl, rfl⟩ := List.cons.inj hsplit
          rw [hn]
          rfl
        | cons u before =>
          obtain ⟨rfl, rfl⟩ := List.cons.inj hsplit
          exact absurd (numbered_cons_iff.1 hnumbered).1 ht

/-- Sorted steps carry the numbers from one on exactly if these are the numbers of the steps. -/
theorem numbered_sortSteps_iff {steps : List Step} :
    Numbered 1 (sortSteps steps) ↔
      (steps.map Step.sequence).Perm (List.range' 1 steps.length) := by
  have hperm := (perm_sortSteps steps).map Step.sequence
  have hlength : (sortSteps steps).length = steps.length := (perm_sortSteps steps).length_eq
  rw [Numbered, hlength]
  constructor
  · intro h
    exact hperm.symm.trans (List.Perm.of_eq h)
  · intro h
    have hsorted : ((sortSteps steps).map Step.sequence).Pairwise (· ≤ ·) :=
      List.pairwise_map.2 (ascending_sortSteps steps)
    have hrange : (List.range' 1 steps.length).Pairwise (· ≤ ·) :=
      List.Pairwise.imp Nat.le_of_lt (List.pairwise_lt_range' 1)
    exact (hperm.trans h).eq_of_pairwise (fun _ _ _ _ => Nat.le_antisymm) hsorted hrange

/-- Steps that carry their numbers have one order. -/
theorem Numbered.eq_of_perm {first : Nat} {steps others : List Step} (h : Numbered first steps)
    (h' : Numbered first others) (hperm : steps.Perm others) : steps = others := by
  have hpairwise {order : List Step} (hnumbered : Numbered first order) :
      order.Pairwise fun s t => s.sequence < t.sequence := by
    rw [← List.pairwise_map, hnumbered]
    exact List.pairwise_lt_range' 1
  refine hperm.eq_of_pairwise (fun s t _ _ hst hts => ?_) (hpairwise h) (hpairwise h')
  exact absurd hts (Nat.lt_asymm hst)

/-! ## Bringing a model in order -/

section inOrder

variable {m n : Model}

/-- A model that misses nothing goes by its sorted steps. -/
theorem inOrder_eq (hwidth : m.width ≠ 0)
    (htype : Text.allBlank m.information.modelType.toList = false) (hsteps : m.steps ≠ []) :
    m.inOrder = match misplaced? 1 (sortSteps m.steps) with
      | some (s, expected) =>
        .error (.invalidSequence (misplacedDetail s expected (sortSteps m.steps).length))
      | none => .ok { m with steps := sortSteps m.steps } := by
  rw [inOrder, if_neg hwidth, if_neg (by simp [htype])]
  exact if_neg (by simpa using hsteps)

theorem inOrder_eq_ok_iff :
    m.inOrder = .ok n ↔
      (m.width ≠ 0 ∧ Text.allBlank m.information.modelType.toList = false ∧ m.steps ≠ [] ∧
        (m.steps.map Step.sequence).Perm (List.range' 1 m.steps.length)) ∧
        n = { m with steps := sortSteps m.steps } := by
  constructor
  · intro h
    have hordered := ordered_of_inOrder h
    obtain rfl := eq_of_inOrder h
    refine ⟨⟨hordered.width_pos, hordered.modelType, fun hnil => hordered.steps_ne_nil ?_, ?_⟩, rfl⟩
    · exact List.eq_nil_of_length_eq_zero (by rw [(perm_sortSteps m.steps).length_eq, hnil]; rfl)
    · exact numbered_sortSteps_iff.1 (misplaced?_eq_none_iff.1 hordered.numbered)
  · rintro ⟨⟨hwidth, htype, hsteps, hnumbers⟩, rfl⟩
    rw [inOrder_eq hwidth htype hsteps,
      misplaced?_eq_none_iff.2 (numbered_sortSteps_iff.2 hnumbers)]

/-- The step that is named is the first that does not have the number of its place. -/
theorem inOrder_eq_error_of_numbers (hwidth : m.width ≠ 0)
    (htype : Text.allBlank m.information.modelType.toList = false) (hsteps : m.steps ≠ [])
    (hnumbers : ¬(m.steps.map Step.sequence).Perm (List.range' 1 m.steps.length)) :
    ∃ before s after, sortSteps m.steps = before ++ s :: after ∧ Numbered 1 before ∧
      s.sequence ≠ before.length + 1 ∧
      m.inOrder =
        .error (.invalidSequence (misplacedDetail s (before.length + 1) m.steps.length)) := by
  cases hmisplaced : misplaced? 1 (sortSteps m.steps) with
  | none =>
    exact absurd (numbered_sortSteps_iff.1 (misplaced?_eq_none_iff.1 hmisplaced)) hnumbers
  | some found =>
    obtain ⟨s, expected⟩ := found
    obtain ⟨before, after, hsplit, hbefore, rfl, hs⟩ := misplaced?_eq_some_iff.1 hmisplaced
    rw [Nat.add_comm] at hs hmisplaced
    refine ⟨before, s, after, hsplit, hbefore, hs, ?_⟩
    rw [inOrder_eq hwidth htype hsteps, hmisplaced, (perm_sortSteps m.steps).length_eq]

/-- Models that differ in the order of their steps are brought in order alike. -/
theorem inOrder_of_perm {steps : List Step} (hperm : steps.Perm m.steps) :
    Model.inOrder { m with steps := steps } = .ok n ↔ m.inOrder = .ok n := by
  have hnumbers : (steps.map Step.sequence).Perm (List.range' 1 steps.length) ↔
      (m.steps.map Step.sequence).Perm (List.range' 1 m.steps.length) := by
    rw [hperm.length_eq]
    exact ⟨(hperm.map _).symm.trans, (hperm.map _).trans⟩
  have hnil : steps ≠ [] ↔ m.steps ≠ [] := by
    rw [ne_eq, ne_eq, ← List.length_eq_zero_iff, ← List.length_eq_zero_iff, hperm.length_eq]
  rw [inOrder_eq_ok_iff, inOrder_eq_ok_iff, hnumbers, hnil]
  refine and_congr_right fun hpresent => ?_
  -- Both have their steps sorted, and sorted steps that carry their numbers have one order.
  have hsteps := numbered_sortSteps_iff.2 (hnumbers.2 hpresent.2.2.2)
  have hsteps' := numbered_sortSteps_iff.2 hpresent.2.2.2
  have hsorted : (sortSteps steps).Perm (sortSteps m.steps) :=
    (perm_sortSteps steps).trans (hperm.trans (perm_sortSteps m.steps).symm)
  rw [hsteps.eq_of_perm hsteps' hsorted]

end inOrder

theorem map_model_ofModel (m : Model) :
    (OrderedModel.ofModel m).map OrderedModel.model = m.inOrder := by
  unfold OrderedModel.ofModel
  split
  · next e he => exact he.symm
  · next n hn => exact hn.symm

/-- A model is brought in order exactly if it has a width, a model type and steps and its steps have
the numbers from one to the number of steps, each once.  It then has the same steps, each at the
place of its number, and nothing else is changed.  It does not matter in which order the steps were.
If only the numbers are at fault, the error is about the first step, in the one stable order, whose
number is not that of its place. -/
theorem inOrder_settled_by_numbers (m : Model) :
    (OrderedModel.ofModel m).map OrderedModel.model = m.inOrder ∧
    ((∃ n, m.inOrder = .ok n) ↔
      m.width ≠ 0 ∧ Text.allBlank m.information.modelType.toList = false ∧ m.steps ≠ [] ∧
        (m.steps.map Step.sequence).Perm (List.range' 1 m.steps.length)) ∧
    (∀ n, m.inOrder = .ok n →
      n.width = m.width ∧ n.information = m.information ∧ n.steps.Perm m.steps ∧
        ∀ (i : Nat) (h : i < n.steps.length), n.steps[i].sequence = i + 1) ∧
    (∀ steps : List Step, steps.Perm m.steps →
      ∀ n, Model.inOrder { m with steps := steps } = .ok n ↔ m.inOrder = .ok n) ∧
    (∃! order, StableOrder m.steps order) ∧
    (m.width ≠ 0 → Text.allBlank m.information.modelType.toList = false → m.steps ≠ [] →
      ¬(m.steps.map Step.sequence).Perm (List.range' 1 m.steps.length) →
      ∀ order, StableOrder m.steps order → ∃ before s after, order = before ++ s :: after ∧
        before.map Step.sequence = List.range' 1 before.length ∧
        s.sequence ≠ before.length + 1 ∧
        m.inOrder =
          .error (.invalidSequence (misplacedDetail s (before.length + 1) m.steps.length))) := by
  have hstable := stableOrder_sortSteps m.steps
  refine ⟨map_model_ofModel m, ?_, ?_, fun steps hperm n => inOrder_of_perm hperm, ?_, ?_⟩
  · simp only [inOrder_eq_ok_iff, exists_and_left, exists_eq, and_true]
  · intro n hn
    have hnumbered := misplaced?_eq_none_iff.1 (ordered_of_inOrder hn).numbered
    obtain rfl := eq_of_inOrder hn
    refine ⟨rfl, rfl, perm_sortSteps m.steps, fun i hi => ?_⟩
    rw [numbered_iff.1 hnumbered i hi, Nat.add_comm]
  · exact ⟨sortSteps m.steps, hstable, fun order horder => horder.unique hstable⟩
  · intro hwidth htype hsteps hnumbers order horder
    rw [horder.unique hstable]
    exact inOrder_eq_error_of_numbers hwidth htype hsteps hnumbers

/-- A step without constants and script. -/
def bareStep (sequence : Nat) (description : String) : Step :=
  ⟨sequence, description, Workspace.empty, []⟩

/-- A model in which two steps have the second place. -/
def contested : Model :=
  ⟨1, ⟨"sample", "", []⟩, [bareStep 2 "first", bareStep 1 "start", bareStep 2 "second"]⟩

theorem stableOrder_contested :
    StableOrder contested.steps [bareStep 1 "start", bareStep 2 "first", bareStep 2 "second"] where
  ascending := by simp [bareStep]
  stable := by
    intro n
    by_cases h : n = 1
    · subst h
      rfl
    · simp [contested, bareStep, List.filter_cons, Ne.symm h]

/-- The step that came later is the one that is named. -/
theorem inOrder_settled_by_numbers_contested :
    ¬(contested.steps.map Step.sequence).Perm (List.range' 1 3) ∧
      contested.inOrder = .error (.invalidSequence ("step \"second\" has sequence 2, expected 3 " ++
        "(sequences must be 1..=3 without gaps or duplicates)")) := by
  have hnumbers : ¬(contested.steps.map Step.sequence).Perm (List.range' 1 3) := by decide
  have hdetail : misplacedDetail (bareStep 2 "second") 3 3 =
      "step \"second\" has sequence 2, expected 3 " ++
        "(sequences must be 1..=3 without gaps or duplicates)" := by decide +kernel
  refine ⟨hnumbers, ?_⟩
  rw [← hdetail]
  obtain ⟨-, -, -, -, -, hnamed⟩ := inOrder_settled_by_numbers contested
  obtain ⟨before, s, after, hsplit, -, hs, herror⟩ :=
    hnamed (by decide) (by decide +kernel) (List.cons_ne_nil _ _) hnumbers _ stableOrder_contested
  match before, hsplit with
  | [], hsplit =>
    obtain ⟨rfl, -⟩ := List.cons.inj hsplit
    exact absurd rfl hs
  | [_], hsplit =>
    obtain ⟨-, hsplit⟩ := List.cons.inj hsplit
    obtain ⟨rfl, -⟩ := List.cons.inj hsplit
    exact absurd rfl hs
  | [_, _], hsplit =>
    obtain ⟨-, hsplit⟩ := List.cons.inj hsplit
    obtain ⟨-, hsplit⟩ := List.cons.inj hsplit
    obtain ⟨rfl, -⟩ := List.cons.inj hsplit
    exact herror
  | _ :: _ :: _ :: _, hsplit => simp at hsplit

end Model

end ModelScoring
