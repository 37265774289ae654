import ModelScoring.Text.Blank

/-!
# Cutting text

A script line is cut at the first occurrence of a mark, and a list of values at every
occurrence.  `cut_eq_some_iff` says what the first cut is: the two parts joined by the mark
give the text back, and the first part does not hold the mark.
-/

namespace ModelScoring.Text

/-- Cuts at the first occurrence of a character: the text before it and the text after it. -/
def cut (mark : Char) : List Char → Option (List Char × List Char)
  | [] => none
  | c :: cs =>
    if c = mark then some ([], cs)
    else (cut mark cs).map fun parts => (c :: parts.1, parts.2)

/-- The trimmed pieces between the separators, blank ones included. -/
def pieces (separates : Char → Bool) (cs : List Char) : List (List Char) :=
  (cs.splitOnP separates).map trim

/-- The trimmed pieces between the separators that are not blank. -/
def fullPieces (separates : Char → Bool) (cs : List Char) : List (List Char) :=
  (pieces separates cs).filter fun piece => !piece.isEmpty

/-- A cut finds the mark exactly where it stands first. -/
theorem cut_eq_some_iff {mark : Char} {cs before after : List Char} :
    cut mark cs = some (before, after) ↔ cs = before ++ mark :: after ∧ mark ∉ before := by
  induction cs generalizing before with
  | nil => simp [cut]
  | cons c cs ih =>
    simp only [cut]
    split
    · next h =>
      subst h
      cases before with
      | nil => simp [eq_comm]
      | cons b bs => simp; intro h; simp [h]
    · next h =>
      cases before with
      | nil => simp [h]
      | cons b bs =>
        simp only [Option.map_eq_some_iff, Prod.mk.injEq, List.cons.injEq, Prod.exists,
          List.cons_append, List.mem_cons, not_or]
        constructor
        · rintro ⟨x, y, hxy, ⟨rfl, rfl⟩, rfl⟩
          obtain ⟨h1, h2⟩ := ih.1 hxy
          exact ⟨⟨rfl, h1⟩, fun hm => h hm.symm, h2⟩
        · rintro ⟨⟨rfl, h1⟩, _, h2⟩
          exact ⟨bs, after, ih.2 ⟨h1, h2⟩, ⟨rfl, rfl⟩, rfl⟩

theorem cut_eq_none_iff {mark : Char} {cs : List Char} : cut mark cs = none ↔ mark ∉ cs := by
  induction cs with
  | nil => simp [cut]
  | cons c cs ih =>
    simp only [cut]
    split
    · next h => simp [h]
    · next h =>
      rw [Option.map_eq_none_iff, ih, List.mem_cons, not_or]
      exact ⟨fun hcs => ⟨fun hm => h hm.symm, hcs⟩, fun hm => hm.2⟩

end ModelScoring.Text
