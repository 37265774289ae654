import Mathlib.Data.List.Forall2
import ModelScoring.Model.Document

/-!
# Things that are read in turn

Constants, lines of a script and steps are read one after the other, and the first that is refused
ends the reading.  `InTurn` says what comes of it in terms of what comes of each thing alone.  The
readers are all `List.mapM` of the reader of one thing, perhaps with something done to the result,
and `mapM_eq_iff_inTurn` says what that comes to.
-/

namespace ModelScoring

/-- What comes of things that are read in turn. -/
inductive InTurn {α β ε : Type} (outcome : α → Except ε β → Prop) (as : List α) :
    Except ε (List β) → Prop
  /-- The first that is refused decides, and nothing behind it is looked at. -/
  | refused {before after : List α} {a : α} {e : ε} (split : as = before ++ a :: after)
      (read : ∀ b ∈ before, ∃ y, outcome b (.ok y)) (refusal : outcome a (.error e)) :
      InTurn outcome as (.error e)
  | all {bs : List β} (read : List.Forall₂ (fun a b => outcome a (.ok b)) as bs) :
      InTurn outcome as (.ok bs)

section

variable {α β ε : Type} {outcome : α → Except ε β → Prop} {read : α → Except ε β} {as : List α}

theorem InTurn.cons {a : α} {b : β} (hb : outcome a (.ok b)) {r : Except ε (List β)}
    (h : InTurn outcome as r) : InTurn outcome (a :: as) (r.map (b :: ·)) := by
  cases h with
  | refused hsplit hread hrefusal =>
    refine .refused (congrArg (a :: ·) hsplit) (List.forall_mem_cons.2 ⟨⟨b, hb⟩, hread⟩) hrefusal
  | all hread => exact .all (.cons hb hread)

theorem mapM_cons_of_ok {a : α} {b : β} (h : read a = .ok b) (as : List α) :
    (a :: as).mapM read = (as.mapM read).map (b :: ·) := by
  rw [List.mapM_cons, h]
  cases as.mapM read <;> rfl

theorem mapM_cons_of_error {a : α} {e : ε} (h : read a = .error e) (as : List α) :
    (a :: as).mapM read = .error e := by
  rw [List.mapM_cons, h]
  rfl

/-- What comes of reading things in turn, if it is known what comes of reading each. -/
theorem mapM_eq_iff_inTurn (houtcome : ∀ a r, read a = r ↔ outcome a r)
    {r : Except ε (List β)} : as.mapM read = r ↔ InTurn outcome as r := by
  constructor
  · rintro rfl
    induction as with
    | nil => exact .all .nil
    | cons a as ih =>
      cases ha : read a with
      | error e =>
        rw [mapM_cons_of_error ha]
        exact .refused (List.nil_append _).symm (by simp) ((houtcome a _).1 ha)
      | ok b =>
        rw [mapM_cons_of_ok ha]
        exact ih.cons ((houtcome a _).1 ha)
  · intro h
    cases h with
    | @refused before after a e hsplit hread hrefusal =>
      subst hsplit
      induction before with
      | nil => exact mapM_cons_of_error ((houtcome a _).2 hrefusal) after
      | cons b before ih =>
        obtain ⟨⟨y, hy⟩, hrest⟩ := List.forall_mem_cons.1 hread
        rw [List.cons_append, mapM_cons_of_ok ((houtcome b _).2 hy), ih hrest]
        rfl
    | all hread =>
      induction hread with
      | nil => rfl
      | cons hb _ ih => rw [mapM_cons_of_ok ((houtcome _ _).2 hb), ih]; rfl

end

/-- The members of the second list are each of a member of the first. -/
theorem exists_of_mem_forall₂ {α β : Type} {R : α → β → Prop} {xs : List α} {ys : List β} {y : β}
    (h : List.Forall₂ R xs ys) (hy : y ∈ ys) : ∃ x ∈ xs, R x y := by
  induction h with
  | nil => cases hy
  | cons hxy hrest ih =>
    rcases List.mem_cons.1 hy with rfl | hy
    · exact ⟨_, List.mem_cons_self, hxy⟩
    · obtain ⟨x, hx, hR⟩ := ih hy
      exact ⟨x, List.mem_cons_of_mem _ hx, hR⟩

/-- What something is refused for. -/
def refusal? {α ε : Type} : Except ε α → Option ε
  | .ok _ => none
  | .error e => some e

theorem refusal?_eq_some_iff {α ε : Type} {r : Except ε α} {e : ε} :
    refusal? r = some e ↔ r = .error e := by
  cases r <;> simp [refusal?]

end ModelScoring
