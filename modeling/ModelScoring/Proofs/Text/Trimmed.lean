import Mathlib.Data.List.TakeWhile
import ModelScoring.Text.Cut

/-!
# Trimmed text and pieces of text

Blanks around a text make no difference to the text that is left when it is trimmed (`trim_append`,
`trim_blank_append`).  Nothing is left exactly if the text is blank.  What is left has blanks around
it in the text and none at its own ends, and only one text is like that (`trim_eq_iff`).  A *filled*
text is one that trimming leaves as it is, and not empty.

Cutting a text at every mark and joining pieces with the mark undo each other, as long as no piece
holds the mark.  `splitOn_eq_iff` says so in one statement.
-/

namespace ModelScoring.Text

/-! ## Trimming -/

theorem allBlank_iff {cs : List Char} : allBlank cs = true ↔ ∀ c ∈ cs, isBlank c = true :=
  List.all_eq_true

theorem trimLeft_eq_nil_iff {cs : List Char} : trimLeft cs = [] ↔ allBlank cs = true := by
  rw [trimLeft, List.dropWhile_eq_nil_iff, allBlank_iff]

theorem trimRight_append {blanks : List Char} (h : allBlank blanks = true) (cs : List Char) :
    trimRight (cs ++ blanks) = trimRight cs := by
  have hblanks : ∀ c ∈ blanks.reverse, isBlank c = true := fun c hc =>
    allBlank_iff.1 h c (List.mem_reverse.1 hc)
  rw [trimRight, List.reverse_append, List.dropWhile_append_of_pos hblanks, trimRight]

/-- Blanks behind a text are dropped. -/
theorem trim_append {blanks : List Char} (h : allBlank blanks = true) (cs : List Char) :
    trim (cs ++ blanks) = trim cs := by
  rw [trim, trim, trimLeft, List.dropWhile_append]
  split
  · next hempty =>
    have hleft : trimLeft cs = [] := List.isEmpty_iff.1 hempty
    have hblanks : blanks.dropWhile isBlank = [] := trimLeft_eq_nil_iff.2 h
    rw [hblanks, hleft]
  · exact trimRight_append h _

/-- Blanks before a text are dropped. -/
theorem trim_blank_append {blanks : List Char} (h : allBlank blanks = true) (cs : List Char) :
    trim (blanks ++ cs) = trim cs := by
  rw [trim, trimLeft, List.dropWhile_append_of_pos (allBlank_iff.1 h)]
  rfl

theorem allBlank_space_cons (cs : List Char) : allBlank (' ' :: cs) = allBlank cs := by
  have hspace : isBlank ' ' = true := by decide
  rw [allBlank, List.all_cons, hspace, Bool.true_and, allBlank]

theorem trim_space_cons (cs : List Char) : trim (' ' :: cs) = trim cs :=
  trim_blank_append (show allBlank [' '] = true by decide) cs

theorem trim_eq_nil_iff {cs : List Char} : trim cs = [] ↔ allBlank cs = true := by
  constructor
  · intro h
    match hleft : trimLeft cs with
    | [] => exact trimLeft_eq_nil_iff.1 hleft
    | c :: rest =>
      rw [trim, hleft, trimRight_cons rest (isBlank_head_trimLeft hleft)] at h
      cases h
  · intro h
    rw [trim, trimLeft_eq_nil_iff.2 h]
    rfl

theorem mem_of_mem_trim {c : Char} {cs : List Char} (h : c ∈ trim cs) : c ∈ cs := by
  rw [trim, trimRight, List.mem_reverse] at h
  have hleft := List.mem_reverse.1 ((List.dropWhile_sublist isBlank).subset h)
  exact (List.dropWhile_sublist isBlank).subset hleft

/-- A text is what is left of it when it is trimmed, with blanks around. -/
theorem exists_eq_append_trim (cs : List Char) :
    ∃ front back, allBlank front = true ∧ allBlank back = true ∧ cs = front ++ trim cs ++ back := by
  have hblank (ds : List Char) : allBlank (ds.takeWhile isBlank) = true := by
    rw [allBlank_iff]
    exact fun c hc => List.mem_takeWhile_imp hc
  refine ⟨cs.takeWhile isBlank, ((trimLeft cs).reverse.takeWhile isBlank).reverse, hblank cs, ?_,
    ?_⟩
  · rw [allBlank, List.all_reverse]
    exact hblank _
  · rw [trim, trimRight, List.append_assoc, ← List.reverse_append, List.takeWhile_append_dropWhile,
      List.reverse_reverse, trimLeft, List.takeWhile_append_dropWhile]

/-- Trimming drops nothing but blanks. -/
theorem mem_trim_or_isBlank {c : Char} {cs : List Char} (h : c ∈ cs) :
    c ∈ trim cs ∨ isBlank c = true := by
  obtain ⟨front, back, hfront, hback, heq⟩ := exists_eq_append_trim cs
  rw [heq, List.mem_append, List.mem_append] at h
  rcases h with (h | h) | h
  · exact .inr (allBlank_iff.1 hfront c h)
  · exact .inl h
  · exact .inr (allBlank_iff.1 hback c h)

theorem trim_of_forall_not_blank {cs : List Char} (h : ∀ c ∈ cs, isBlank c = false) :
    trim cs = cs := by
  have hdrop (ds : List Char) (hds : ∀ c ∈ ds, isBlank c = false) : ds.dropWhile isBlank = ds :=
    List.dropWhile_eq_self_iff.2 fun _ => by simp [hds _ (List.getElem_mem _)]
  rw [trim, trimLeft, hdrop cs h, trimRight, hdrop _ fun c hc => h c (List.mem_reverse.1 hc),
    List.reverse_reverse]

/-- What is left after trimming does not start with a blank. -/
theorem isBlank_head_trim {c : Char} {cs rest : List Char} (h : trim cs = c :: rest) :
    isBlank c = false := by
  rw [trim] at h
  cases hleft : trimLeft cs with
  | nil =>
    rw [hleft] at h
    cases h
  | cons d ds =>
    have hd := isBlank_head_trimLeft hleft
    rw [hleft, trimRight_cons ds hd] at h
    cases h
    exact hd

/-- A text without a blank at either end is left as it is. -/
theorem trim_of_ends {c d : Char} (hc : isBlank c = false) (hd : isBlank d = false)
    (cs : List Char) : trim (c :: (cs ++ [d])) = c :: (cs ++ [d]) := by
  rw [trim, trimLeft_cons_of_not_blank hc, trimRight_cons _ hc, trimRight, List.reverse_append,
    List.reverse_singleton, List.singleton_append, List.dropWhile_cons_of_neg (by simp [hd]),
    List.reverse_cons, List.reverse_reverse]

/-- What is left of a text without the blanks around it: there are none at its ends. -/
structure TrimsTo (cs ds : List Char) : Prop where
  around : ∃ front back, allBlank front = true ∧ allBlank back = true ∧ cs = front ++ ds ++ back
  starts : ∀ c ∈ ds.head?, isBlank c = false
  ends : ∀ c ∈ ds.getLast?, isBlank c = false

theorem trimLeft_of_head {cs : List Char} (h : ∀ c ∈ cs.head?, isBlank c = false) :
    trimLeft cs = cs := by
  cases cs with
  | nil => rfl
  | cons c cs => exact trimLeft_cons_of_not_blank (h c rfl)

theorem isBlank_head_of_mem_trimLeft {cs : List Char} : ∀ c ∈ (trimLeft cs).head?,
    isBlank c = false := by
  intro c hc
  obtain ⟨rest, hrest⟩ := List.head?_eq_some_iff.1 hc
  exact isBlank_head_trimLeft hrest

/-- Trimming on the right is trimming on the left of the text read backwards. -/
theorem trimRight_eq (cs : List Char) : trimRight cs = (trimLeft cs.reverse).reverse := rfl

theorem trim_eq_iff {cs ds : List Char} : trim cs = ds ↔ TrimsTo cs ds := by
  constructor
  · rintro rfl
    refine ⟨exists_eq_append_trim cs, fun c hc => ?_, fun c hc => ?_⟩
    · obtain ⟨rest, hrest⟩ := List.head?_eq_some_iff.1 hc
      exact isBlank_head_trim hrest
    · rw [trim, trimRight_eq, List.getLast?_reverse] at hc
      exact isBlank_head_of_mem_trimLeft c hc
  · rintro ⟨⟨front, back, hfront, hback, rfl⟩, hstarts, hends⟩
    have hright : trimRight ds = ds := by
      rw [trimRight_eq, trimLeft_of_head, List.reverse_reverse]
      rwa [List.head?_reverse]
    rw [trim_append hback, trim_blank_append hfront, trim, trimLeft_of_head hstarts, hright]

/-! ## Filled texts -/

/-- A text that has characters, and no blanks around them. -/
structure Filled (s : String) : Prop where
  ne_empty : s ≠ ""
  trimmed : trimmed s = s

theorem trimmed_ofList_trim (cs : List Char) :
    trimmed (String.ofList (trim cs)) = String.ofList (trim cs) := by
  rw [trimmed, String.toList_ofList, trim_trim]

theorem filled_ofList_trim {cs : List Char} (h : trim cs ≠ []) :
    Filled (String.ofList (trim cs)) where
  ne_empty := fun hempty => h (by simpa using congrArg String.toList hempty)
  trimmed := trimmed_ofList_trim cs

/-- What is left of a text that is not blank is filled. -/
theorem filled_of_allBlank_eq_false {cs : List Char} (h : allBlank cs = false) :
    Filled (String.ofList (trim cs)) :=
  filled_ofList_trim fun hnil => Bool.eq_false_iff.1 h (trim_eq_nil_iff.1 hnil)

theorem Filled.trim_toList {s : String} (h : Filled s) : trim s.toList = s.toList := by
  have htoList := congrArg String.toList h.trimmed
  rwa [Text.trimmed, String.toList_ofList] at htoList

/-- A filled text is not blank. -/
theorem Filled.allBlank_eq_false {s : String} (h : Filled s) : allBlank s.toList = false := by
  refine Bool.eq_false_iff.2 fun hblank => h.ne_empty ?_
  rw [← String.toList_inj, ← h.trim_toList, trim_eq_nil_iff.2 hblank]
  rfl

/-! ## Pieces -/

/-- No piece holds a separator. -/
theorem separates_eq_false_of_mem_splitOnP {separates : Char → Bool} {cs piece : List Char}
    {c : Char} (h : piece ∈ cs.splitOnP separates) (hc : c ∈ piece) : separates c = false := by
  induction cs generalizing piece with
  | nil =>
    obtain rfl := List.mem_singleton.1 h
    exact absurd hc List.not_mem_nil
  | cons d cs ih =>
    obtain ⟨first, rest, hsplit⟩ :=
      List.exists_cons_of_ne_nil (List.splitOnP_ne_nil separates cs)
    rw [List.splitOnP_cons_eq_if_modifyHead, hsplit] at h
    rw [hsplit] at ih
    split at h
    · rcases List.mem_cons.1 h with rfl | h
      · exact absurd hc List.not_mem_nil
      · exact ih h hc
    · next hd =>
      rcases List.mem_cons.1 h with rfl | h
      · rcases List.mem_cons.1 hc with rfl | hc
        · exact Bool.eq_false_iff.2 hd
        · exact ih List.mem_cons_self hc
      · exact ih (List.mem_cons_of_mem _ h) hc

theorem not_mem_of_mem_splitOn {mark : Char} {cs piece : List Char}
    (h : piece ∈ cs.splitOn mark) : mark ∉ piece := by
  intro hmark
  simpa using separates_eq_false_of_mem_splitOnP h hmark

/-- The pieces of a text are those that give it back when they are joined, and do not hold the
mark. -/
theorem splitOn_eq_iff {mark : Char} {cs : List Char} {pieces : List (List Char)} :
    cs.splitOn mark = pieces ↔
      [mark].intercalate pieces = cs ∧ pieces ≠ [] ∧ ∀ piece ∈ pieces, mark ∉ piece := by
  constructor
  · rintro rfl
    exact ⟨List.intercalate_splitOn mark, List.splitOn_ne_nil mark cs, fun _ =>
      not_mem_of_mem_splitOn⟩
  · rintro ⟨rfl, hne, hmark⟩
    exact List.splitOn_intercalate mark hmark hne

/-- Any other character is in joined pieces if it is in one of them. -/
theorem not_mem_intercalate_iff {c mark : Char} (hne : c ≠ mark) {pieces : List (List Char)} :
    c ∉ [mark].intercalate pieces ↔ ∀ piece ∈ pieces, c ∉ piece := by
  induction pieces with
  | nil => simp
  | cons piece pieces ih =>
    cases pieces with
    | nil => simp
    | cons next pieces =>
      rw [List.intercalate_cons_cons, List.append_assoc, List.mem_append, not_or, List.mem_append,
        not_or, ih, List.mem_singleton]
      constructor
      · rintro ⟨hpiece, -, hrest⟩
        exact List.forall_mem_cons.2 ⟨hpiece, hrest⟩
      · intro h
        obtain ⟨hpiece, hrest⟩ := List.forall_mem_cons.1 h
        exact ⟨hpiece, hne, hrest⟩

end ModelScoring.Text
