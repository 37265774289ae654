import Mathlib.Data.List.Forall2
import ModelScoring.Proofs.Text.Trimmed

/-!
# Pieces laid out in a text

A list of pieces can be written in many ways.  There may be blanks around each piece, any separator
may stand between two of them, and there may be more separators than are needed, with nothing but
blanks between them.  `LaidOut` has one rule for each of these and says nothing of how a text is
taken apart.  Several texts may also share the pieces among them (`LaidOutIn`).

A text that is taken apart at its separators gives the same pieces whichever way they were written
(`LaidOut.fullPieces_eq`).  The reason is that blanks are trimmed and blank pieces dropped, and no
blank is a separator.  A piece comes out as it went in if it is *whole*: it has characters, no
blanks around them and no separator.  `fullPieces_eq_iff` says that the pieces of a text are the
whole pieces that it lays out, and `flatMap_fullPieces_eq_iff` the same of several texts.
-/

namespace ModelScoring.Text

/-! ## Layouts -/

/-- A text lays out pieces. -/
inductive LaidOut (separates : Char → Bool) : List (List Char) → List Char → Prop
  /-- Blanks lay out nothing. -/
  | blank {cs : List Char} (blank : allBlank cs = true) : LaidOut separates [] cs
  /-- A piece may have blanks around it. -/
  | piece {front back : List Char} (p : List Char) (front_blank : allBlank front = true)
      (back_blank : allBlank back = true) : LaidOut separates [p] (front ++ p ++ back)
  /-- There is a separator between pieces. -/
  | join {ps qs : List (List Char)} {cs ds : List Char} {c : Char} (separator : separates c = true)
      (before : LaidOut separates ps cs) (behind : LaidOut separates qs ds) :
      LaidOut separates (ps ++ qs) (cs ++ c :: ds)

/-- Texts lay out pieces, each of them some, and no piece goes on in the next. -/
def LaidOutIn (separates : Char → Bool) (ps : List (List Char)) (texts : List (List Char)) : Prop :=
  ∃ groups, groups.flatten = ps ∧ List.Forall₂ (LaidOut separates) groups texts

/-- A piece that is left as it is when it is trimmed and cut. -/
structure Whole (separates : Char → Bool) (p : List Char) : Prop where
  ne_nil : p ≠ []
  trim_eq : trim p = p
  unseparated : ∀ c ∈ p, separates c = false

/-- Blanks do not separate. -/
def KeepsBlanks (separates : Char → Bool) : Prop := ∀ c, isBlank c = true → separates c = false

variable {separates : Char → Bool} {cs ds p : List Char} {ps : List (List Char)}

/-! ## Taking apart -/

theorem fullPieces_append_cons {c : Char} (h : separates c = true) (cs ds : List Char) :
    fullPieces separates (cs ++ c :: ds) = fullPieces separates cs ++ fullPieces separates ds := by
  rw [fullPieces, pieces, List.splitOnP_append_cons _ _ h, List.map_append, List.filter_append]
  rfl

theorem fullPieces_of_unseparated (h : ∀ c ∈ cs, separates c = false) :
    fullPieces separates cs = [trim cs].filter fun piece => !piece.isEmpty := by
  rw [fullPieces, pieces, List.splitOnP_eq_singleton h, List.map_singleton]

theorem unseparated_of_allBlank (hkeeps : KeepsBlanks separates) (h : allBlank cs = true) :
    ∀ c ∈ cs, separates c = false :=
  fun c hc => hkeeps c (allBlank_iff.1 h c hc)

/-- Blanks before a text belong to its first piece. -/
theorem pieces_blank_append (hkeeps : KeepsBlanks separates) {front : List Char}
    (h : allBlank front = true) (cs : List Char) :
    pieces separates (front ++ cs) = pieces separates cs := by
  have hsplit (blanks : List Char) (hblanks : ∀ c ∈ blanks, separates c = false) :
      (blanks ++ cs).splitOnP separates = (cs.splitOnP separates).modifyHead (blanks ++ ·) := by
    induction blanks with
    | nil =>
      rw [List.nil_append]
      cases cs.splitOnP separates <;> rfl
    | cons c blanks ih =>
      obtain ⟨hc, hrest⟩ := List.forall_mem_cons.1 hblanks
      rw [List.cons_append, List.splitOnP_cons_eq_if_modifyHead, hc, if_neg nofun, ih hrest,
        List.modifyHead_modifyHead]
      rfl
  rw [pieces, hsplit front (unseparated_of_allBlank hkeeps h), pieces]
  cases cs.splitOnP separates with
  | nil => rfl
  | cons first rest =>
    rw [List.modifyHead_cons, List.map_cons, List.map_cons, trim_blank_append h]

/-- Blanks behind a text belong to its last piece. -/
theorem pieces_append_blank (hkeeps : KeepsBlanks separates) {back : List Char}
    (h : allBlank back = true) (cs : List Char) :
    pieces separates (cs ++ back) = pieces separates cs := by
  -- The characters of a piece are gathered until it ends, and the last piece ends with the text.
  have hgather (seen : List Char) :
      (List.splitOnPPrepend separates (cs ++ back) seen).map trim =
        (List.splitOnPPrepend separates cs seen).map trim := by
    induction cs generalizing seen with
    | nil =>
      rw [List.nil_append, List.splitOnPPrepend_eq_modifyHead,
        List.splitOnP_eq_singleton (unseparated_of_allBlank hkeeps h), List.splitOnPPrepend_nil]
      simp only [List.modifyHead_cons, List.map_singleton, trim_append h]
    | cons c cs ih =>
      rw [List.cons_append, List.splitOnPPrepend_cons_eq_if, List.splitOnPPrepend_cons_eq_if]
      split
      · rw [List.map_cons, List.map_cons, ← List.splitOnPPrepend_nil_right, ih,
          List.splitOnPPrepend_nil_right]
      · exact ih _
  exact hgather []

theorem LaidOut.fullPieces_eq (hkeeps : KeepsBlanks separates) (h : LaidOut separates ps cs) :
    fullPieces separates cs = ps.flatMap (fullPieces separates) := by
  induction h with
  | @blank cs hblank =>
    rw [fullPieces_of_unseparated (unseparated_of_allBlank hkeeps hblank), trim_eq_nil_iff.2 hblank]
    rfl
  | piece p hfront hback =>
    rw [fullPieces, pieces_append_blank hkeeps hback, pieces_blank_append hkeeps hfront,
      List.flatMap_singleton, fullPieces]
  | join hc _ _ ihbefore ihbehind =>
    rw [fullPieces_append_cons hc, ihbefore, ihbehind, List.flatMap_append]

/-- However texts share pieces, they give the same ones when they are taken apart. -/
theorem LaidOutIn.flatMap_fullPieces {texts : List (List Char)} (hkeeps : KeepsBlanks separates)
    (h : LaidOutIn separates ps texts) :
    texts.flatMap (fullPieces separates) = ps.flatMap (fullPieces separates) := by
  obtain ⟨groups, rfl, hgroups⟩ := h
  induction hgroups with
  | nil => rfl
  | cons hgroup _ ih =>
    rw [List.flatMap_cons, List.flatten_cons, List.flatMap_append, hgroup.fullPieces_eq hkeeps, ih]

/-! ## Plain layouts -/

theorem laidOut_singleton (separates : Char → Bool) (p : List Char) : LaidOut separates [p] p := by
  have hp : LaidOut separates [p] ([] ++ p ++ []) := .piece p rfl rfl
  rwa [List.nil_append, List.append_nil] at hp

/-- Each piece may have a text of its own. -/
theorem laidOutIn_spread (separates : Char → Bool) (ps : List (List Char)) :
    LaidOutIn separates ps ps := by
  induction ps with
  | nil => exact ⟨[], rfl, .nil⟩
  | cons p ps ih =>
    obtain ⟨groups, hflatten, hgroups⟩ := ih
    refine ⟨[p] :: groups, ?_, .cons (laidOut_singleton separates p) hgroups⟩
    rw [List.flatten_cons, hflatten, List.singleton_append]

/-- All pieces may be in one text. -/
theorem laidOutIn_grouped {c : Char} (h : separates c = true) (ps : List (List Char)) :
    LaidOutIn separates ps [[c].intercalate ps] := by
  have hgrouped : LaidOut separates ps ([c].intercalate ps) := by
    induction ps with
    | nil => exact .blank rfl
    | cons p ps ih =>
      cases ps with
      | nil =>
        rw [List.intercalate_singleton]
        exact laidOut_singleton separates p
      | cons q ps =>
        rw [List.intercalate_cons_cons, List.append_assoc, List.singleton_append]
        exact .join h (laidOut_singleton separates p) ih
  exact ⟨[ps], List.flatten_singleton, .cons hgrouped .nil⟩

/-! ## Whole pieces -/

theorem Whole.fullPieces_eq (h : Whole separates p) : fullPieces separates p = [p] := by
  rw [fullPieces_of_unseparated h.unseparated, h.trim_eq]
  simp [h.ne_nil]

theorem flatMap_fullPieces_of_whole (h : ∀ p ∈ ps, Whole separates p) :
    ps.flatMap (fullPieces separates) = ps := by
  induction ps with
  | nil => rfl
  | cons p ps ih =>
    obtain ⟨hp, hps⟩ := List.forall_mem_cons.1 h
    rw [List.flatMap_cons, hp.fullPieces_eq, ih hps, List.singleton_append]

theorem whole_of_mem_fullPieces (h : p ∈ fullPieces separates cs) : Whole separates p := by
  obtain ⟨hpiece, hne⟩ := List.mem_filter.1 h
  obtain ⟨raw, hraw, rfl⟩ := List.mem_map.1 hpiece
  exact ⟨by simpa using hne, trim_trim raw, fun c hc =>
    separates_eq_false_of_mem_splitOnP hraw (mem_of_mem_trim hc)⟩

/-- A text lays out its own pieces. -/
theorem laidOut_fullPieces (separates : Char → Bool) (cs : List Char) :
    LaidOut separates (fullPieces separates cs) cs := by
  by_cases hsep : ∃ c ∈ cs, separates c = true
  · obtain ⟨c, hmem, hc⟩ := hsep
    obtain ⟨before, behind, hsplit⟩ := List.append_of_mem hmem
    have hlength : cs.length = before.length + (behind.length + 1) := by
      rw [hsplit, List.length_append, List.length_cons]
    rw [hsplit, fullPieces_append_cons hc]
    exact .join hc (laidOut_fullPieces separates before) (laidOut_fullPieces separates behind)
  · have hnone : ∀ c ∈ cs, separates c = false := fun c hc =>
      Bool.eq_false_iff.2 fun htrue => hsep ⟨c, hc, htrue⟩
    rw [fullPieces_of_unseparated hnone]
    by_cases hblank : allBlank cs = true
    · rw [trim_eq_nil_iff.2 hblank]
      exact .blank hblank
    · have hne : trim cs ≠ [] := fun hnil => hblank (trim_eq_nil_iff.1 hnil)
      obtain ⟨front, back, hfront, hback, heq⟩ := exists_eq_append_trim cs
      have hlaid : LaidOut separates [trim cs] (front ++ trim cs ++ back) :=
        .piece (trim cs) hfront hback
      rw [← heq] at hlaid
      simpa [hne] using hlaid
termination_by cs.length
decreasing_by all_goals omega

/-- The pieces of a text are the whole pieces that it lays out. -/
theorem fullPieces_eq_iff (hkeeps : KeepsBlanks separates) :
    fullPieces separates cs = ps ↔ LaidOut separates ps cs ∧ ∀ p ∈ ps, Whole separates p := by
  constructor
  · rintro rfl
    exact ⟨laidOut_fullPieces separates cs, fun p => whole_of_mem_fullPieces⟩
  · rintro ⟨hlaid, hwhole⟩
    rw [hlaid.fullPieces_eq hkeeps, flatMap_fullPieces_of_whole hwhole]

/-- The pieces of several texts are the whole pieces that they lay out. -/
theorem flatMap_fullPieces_eq_iff {texts : List (List Char)} (hkeeps : KeepsBlanks separates) :
    texts.flatMap (fullPieces separates) = ps ↔
      LaidOutIn separates ps texts ∧ ∀ p ∈ ps, Whole separates p := by
  constructor
  · rintro rfl
    refine ⟨⟨texts.map (fullPieces separates), rfl, ?_⟩, fun p hp => ?_⟩
    · rw [List.forall₂_map_left_iff, List.forall₂_same]
      exact fun text _ => laidOut_fullPieces separates text
    · obtain ⟨text, -, htext⟩ := List.mem_flatMap.1 hp
      exact whole_of_mem_fullPieces htext
  · rintro ⟨hlaid, hwhole⟩
    rw [hlaid.flatMap_fullPieces hkeeps, flatMap_fullPieces_of_whole hwhole]

end ModelScoring.Text
