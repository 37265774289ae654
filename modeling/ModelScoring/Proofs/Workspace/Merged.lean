import ModelScoring.Proofs.Workspace.History

/-!
# Merged workspaces

A merged workspace has the values of the second workspace, where that has any, under the spellings
of the first, where that has any.  `find?_merge` and `spelling?_merge` say so of each name.

What a workspace says of each name is all that it says (`eq_of_views`), since the order of the
variables is settled.  So the laws of merging are those of the first of two options, taken from the
left for spellings and from the right for values.  `Workspace.merge_laws` puts them together: merging
is a monoid, a workspace that has been merged once makes no difference the second time, and
workspaces that share no name can be merged either way.
-/

namespace ModelScoring

open Text (fold SameName fold_eq_fold_iff)

namespace Workspace

/-! ## What is found -/

/-- A workspace has one variable of a name, so the last is the first. -/
theorem lookup?_reverse_toList (W : Workspace) (query : String) :
    Variable.lookup? (fold query) W.toList.reverse = W.named? query := by
  cases h : Variable.lookup? (fold query) W.toList.reverse with
  | none =>
    refine (Variable.lookup?_eq_none_iff.2 fun v hv => ?_).symm
    exact Variable.lookup?_eq_none_iff.1 h v (List.mem_reverse.2 hv)
  | some v =>
    have hmem : v ∈ W.toList := List.mem_reverse.1 (List.mem_of_find?_eq_some h)
    exact (named?_eq_some_iff_mem.2 ⟨hmem, (Variable.lookup?_eq_some_iff.1 h).1⟩).symm

/-- The second value wins. -/
theorem find?_merge (A B : Workspace) (query : String) :
    (A.merge B).find? query = (B.find? query).or (A.find? query) := by
  rw [merge, find?_setAll, lookup?_reverse_toList]
  rfl

/-- The first spelling stays. -/
theorem spelling?_merge (A B : Workspace) (query : String) :
    (A.merge B).spelling? query = (A.spelling? query).or (B.spelling? query) := by
  rw [merge, spelling?_setAll]
  rfl

/-- Workspaces that say the same of each name are equal. -/
theorem eq_of_views {W V : Workspace} (hspelling : ∀ query, W.spelling? query = V.spelling? query)
    (hvalue : ∀ query, W.find? query = V.find? query) : W = V := by
  refine eq_of_mem_iff fun v => ?_
  simp only [mem_toList_iff, named?_eq_some_iff, hspelling, hvalue]

/-! ## Laws -/

variable (A B C : Workspace)

theorem merge_assoc : (A.merge B).merge C = A.merge (B.merge C) := by
  apply eq_of_views
  · intro query
    simp only [spelling?_merge, Option.or_assoc]
  · intro query
    simp only [find?_merge, Option.or_assoc]

theorem merge_empty : A.merge empty = A := rfl

theorem empty_merge : empty.merge A = A := by
  have hspelling (query : String) : empty.spelling? query = none := rfl
  apply eq_of_views
  · intro query
    rw [spelling?_merge, hspelling, Option.none_or]
  · intro query
    rw [find?_merge, find?_empty, Option.or_none]

theorem merge_self : A.merge A = A := by
  apply eq_of_views
  · intro query
    rw [spelling?_merge, Option.or_self]
  · intro query
    rw [find?_merge, Option.or_self]

/-- Merging a workspace a second time changes nothing. -/
theorem merge_merge_self : (A.merge B).merge B = A.merge B := by
  rw [merge_assoc, merge_self]

/-- No variable of the one has the name of a variable of the other. -/
def SharesNoName (A B : Workspace) : Prop :=
  ∀ v ∈ A.toList, ∀ w ∈ B.toList, ¬SameName v.name w.name

variable {A B} in
/-- A name stands for a variable of one of them at most. -/
theorem SharesNoName.named?_eq_none (h : A.SharesNoName B) (query : String) :
    A.named? query = none ∨ B.named? query = none := by
  cases hA : A.named? query with
  | none => exact .inl rfl
  | some v =>
    right
    by_contra hB
    obtain ⟨w, hw⟩ := Option.ne_none_iff_exists'.1 hB
    obtain ⟨hv, hname⟩ := named?_eq_some_iff_mem.1 hA
    obtain ⟨hw, hname'⟩ := named?_eq_some_iff_mem.1 hw
    have hsame : fold v.name = fold w.name :=
      ((fold_eq_fold_iff _ _).2 hname).trans ((fold_eq_fold_iff _ _).2 hname').symm
    exact h v hv w hw ((fold_eq_fold_iff _ _).1 hsame)

variable {A B} in
/-- Workspaces that share no name can be merged either way. -/
theorem merge_comm (h : A.SharesNoName B) : A.merge B = B.merge A := by
  apply eq_of_views
  · intro query
    rw [spelling?_merge, spelling?_merge]
    rcases h.named?_eq_none query with hnone | hnone <;> simp [spelling?, hnone]
  · intro query
    rw [find?_merge, find?_merge]
    rcases h.named?_eq_none query with hnone | hnone <;> simp [find?, hnone]

/-- Merging takes the last value and the first spelling of each name.  It is associative, with the
empty workspace as identity on both sides, and merging a workspace that is merged already changes
nothing.  Where no name is shared, it does not matter which workspace comes first. -/
theorem merge_laws :
    (∀ query, (A.merge B).find? query = (B.find? query).or (A.find? query)) ∧
    (∀ query, (A.merge B).spelling? query = (A.spelling? query).or (B.spelling? query)) ∧
    (A.merge B).merge C = A.merge (B.merge C) ∧
    empty.merge A = A ∧ A.merge empty = A ∧
    A.merge A = A ∧ (A.merge B).merge B = A.merge B ∧
    (A.SharesNoName B → A.merge B = B.merge A) :=
  ⟨find?_merge A B, spelling?_merge A B, merge_assoc A B C, empty_merge A, merge_empty A,
    merge_self A, merge_merge_self A B, merge_comm⟩

def keptValues : Workspace := (empty.set "k" (Matrix.scalar 1.0)).set "Keep" (Matrix.scalar 9.0)

def newValue : Workspace := empty.set "J" (Matrix.scalar 7.0)

/-- The variable of the second workspace gets to the place of its name. -/
theorem merge_laws_separate :
    keptValues.SharesNoName newValue ∧
      keptValues.merge newValue = newValue.merge keptValues ∧
      (keptValues.merge newValue).names = ["J", "k", "Keep"] := by
  have hshare : keptValues.SharesNoName newValue := by
    intro v hv w hw
    rw [← fold_eq_fold_iff]
    revert v w
    decide +kernel
  obtain ⟨-, -, -, -, -, -, -, hcomm⟩ := merge_laws keptValues newValue empty
  exact ⟨hshare, hcomm hshare, by decide +kernel⟩

end Workspace

end ModelScoring
