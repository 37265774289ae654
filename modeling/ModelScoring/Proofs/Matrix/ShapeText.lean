import ModelScoring.Matrix.Shape
import ModelScoring.Proofs.Text.Trimmed

/-!
# Shapes and their text

A shape is read from two numerals with a comma between them, in a pair of brackets or without.  Blanks
may stand around the whole and around each numeral, and nowhere else.  `Shape.Writes` is this rule,
which does not say how a text is taken apart.

A numeral holds no comma and no bracket.  So a text that follows the rule is cut at its one comma,
and it has a bracket at an end only if it has one at each (`readChars?_of_writes`).  What is read
follows the rule (`writes_of_readChars?`).  The text of a shape follows it too, so a countable shape
is read from its text, and nothing is read from that of another.
`Shape.read?_iff_writes` is the statement.
-/

namespace ModelScoring

open Text (isBlank trim mem_trim_or_isBlank)

/-! ## Numerals -/

namespace IsNumeral

variable {cs : List Char} {n : Nat}

theorem isDigit_or_eq_plus (h : IsNumeral cs n) : ∀ c ∈ cs, c.isDigit = true ∨ c = '+' := by
  obtain ⟨digits, rfl | rfl, -, hdigits, -⟩ := h
  · intro c hc
    exact .inl (hdigits c hc)
  · intro c hc
    rcases List.mem_cons.1 hc with rfl | hc
    · exact .inr rfl
    · exact .inl (hdigits c hc)

end IsNumeral

theorem isDigit_of_mem_repr {n : Nat} : ∀ c ∈ n.repr.toList, c.isDigit = true := by
  intro c hc
  rw [Nat.toList_repr] at hc
  exact Nat.isDigit_of_mem_toDigits (by decide) (Nat.le_refl 10) hc

/-- The decimal digits of a number are a numeral of it. -/
theorem isNumeral_repr (n : Nat) : IsNumeral n.repr.toList n := by
  refine ⟨n.repr.toList, .inl rfl, ?_, isDigit_of_mem_repr, ?_⟩
  · rw [Nat.toList_repr]
    exact Nat.toDigits_ne_nil
  · rw [Nat.toList_repr, digitsValue, ← Nat.ofDigitChars_eq_foldl]
    exact Nat.ofDigitChars_ten_toDigits

theorem isBlank_of_isDigit {c : Char} (h : c.isDigit = true) : isBlank c = false := by
  have hrange : 48 ≤ c.toNat ∧ c.toNat ≤ 57 := by
    simpa [Char.isDigit, UInt32.le_iff_toNat_le] using h
  simp only [isBlank, Text.blankRanges, List.any_cons, List.any_nil, Bool.or_eq_false_iff,
    Bool.and_eq_false_iff, decide_eq_false_iff_not, and_true]
  omega

theorem trim_repr (n : Nat) : trim n.repr.toList = n.repr.toList :=
  Text.trim_of_forall_not_blank fun c hc => isBlank_of_isDigit (isDigit_of_mem_repr c hc)

namespace Shape

variable {cs inner : List Char} {rows cols : Nat}

/-! ## The rule -/

/-- Two numerals with a comma between them, and perhaps blanks around each. -/
def WritesPair (cs : List Char) (rows cols : Nat) : Prop :=
  ∃ first second, cs = first ++ ',' :: second ∧ IsNumeral (trim first) rows ∧
    IsNumeral (trim second) cols

/-- A text of numbers of rows and columns, perhaps in brackets and with blanks around. -/
def Writes (cs : List Char) (rows cols : Nat) : Prop :=
  WritesPair (trim cs) rows cols ∨
    ∃ inner, trim cs = '[' :: (inner ++ [']']) ∧ WritesPair inner rows cols

/-- A mark that is neither a blank nor in a numeral is not in a text that is trimmed to one. -/
theorem not_mem_of_isNumeral_trim {n : Nat} (h : IsNumeral (trim cs) n) {mark : Char}
    (hdigit : mark.isDigit = false) (hplus : mark ≠ '+') (hblank : isBlank mark = false) :
    mark ∉ cs := by
  intro hmem
  rcases mem_trim_or_isBlank hmem with hmem | hyes
  · rcases h.isDigit_or_eq_plus mark hmem with hyes | rfl
    · cases hdigit.symm.trans hyes
    · exact hplus rfl
  · cases hblank.symm.trans hyes

theorem WritesPair.not_mem_bracket (h : WritesPair cs rows cols) : '[' ∉ cs ∧ ']' ∉ cs := by
  obtain ⟨first, second, rfl, hrows, hcols⟩ := h
  have hnot {mark : Char} (hcomma : mark ≠ ',') (hdigit : mark.isDigit = false)
      (hplus : mark ≠ '+') (hblank : isBlank mark = false) : mark ∉ first ++ ',' :: second := by
    simp only [List.mem_append, List.mem_cons, not_or]
    exact ⟨not_mem_of_isNumeral_trim hrows hdigit hplus hblank, hcomma,
      not_mem_of_isNumeral_trim hcols hdigit hplus hblank⟩
  exact ⟨hnot (by decide) (by decide) (by decide) (by decide),
    hnot (by decide) (by decide) (by decide) (by decide)⟩

/-! ## Brackets -/

theorem unbracket?_of_not_mem (hopen : '[' ∉ cs) (hclose : ']' ∉ cs) :
    unbracket? cs = some cs := by
  unfold unbracket?
  split
  · exact absurd List.mem_cons_self hopen
  · exact if_neg fun hlast => hclose (List.mem_of_getLast? hlast)

theorem unbracket?_bracketed (inner : List Char) :
    unbracket? ('[' :: (inner ++ [']'])) = some inner := by
  simp [unbracket?]

/-- A text comes out of its brackets, or is left as it is. -/
theorem eq_of_unbracket? (h : unbracket? cs = some inner) :
    cs = inner ∨ cs = '[' :: (inner ++ [']']) := by
  unfold unbracket? at h
  split at h
  · next rest =>
    split at h
    · next hlast =>
      obtain ⟨start, rfl⟩ := List.getLast?_eq_some_iff.1 hlast
      rw [List.dropLast_concat] at h
      exact .inr (by rw [Option.some.inj h])
    · cases h
  · split at h
    · cases h
    · exact .inl (Option.some.inj h)

/-! ## Commas -/

theorem splitOn_eq_pair_iff {mark : Char} {first second : List Char} :
    cs.splitOn mark = [first, second] ↔
      cs = first ++ mark :: second ∧ mark ∉ first ∧ mark ∉ second := by
  have hjoined : [mark].intercalate [first, second] = first ++ mark :: second := by
    simp [List.intercalate]
  rw [Text.splitOn_eq_iff, hjoined]
  simp [@eq_comm _ cs]

/-- The numerals of a pair are its pieces. -/
theorem pieces_of_writesPair (h : WritesPair cs rows cols) :
    ∃ first second, Text.pieces (· == ',') cs = [first, second] ∧ IsNumeral first rows ∧
      IsNumeral second cols := by
  obtain ⟨first, second, hcs, hrows, hcols⟩ := h
  have hcomma {part : List Char} {n : Nat} (hpart : IsNumeral (trim part) n) : ',' ∉ part :=
    not_mem_of_isNumeral_trim hpart (by decide) (by decide) (by decide)
  have hsplit : cs.splitOn ',' = [first, second] :=
    splitOn_eq_pair_iff.2 ⟨hcs, hcomma hrows, hcomma hcols⟩
  exact ⟨_, _, congrArg (List.map trim) hsplit, hrows, hcols⟩

theorem writesPair_of_pieces {first second : List Char}
    (h : Text.pieces (· == ',') cs = [first, second]) (hrows : IsNumeral first rows)
    (hcols : IsNumeral second cols) : WritesPair cs rows cols := by
  obtain ⟨part, rest, hsplit, rfl, hrest⟩ := List.map_eq_cons_iff.1 h
  obtain ⟨part', rfl, rfl⟩ := List.map_eq_singleton_iff.1 hrest
  have hcs : cs.splitOn ',' = [part, part'] := hsplit
  exact ⟨part, part', (splitOn_eq_pair_iff.1 hcs).1, hrows, hcols⟩

/-! ## Reading -/

theorem readChars?_of_unbracket? (h : unbracket? (trim cs) = some inner)
    (hpair : WritesPair inner rows cols) :
    readChars? cs = (of? rows cols).filter fun shape => shape.Countable := by
  obtain ⟨first, second, hpieces, hrows, hcols⟩ := pieces_of_writesPair hpair
  simp only [readChars?, h, hpieces, Option.bind_eq_bind, Option.bind_some,
    readSize?_of_isNumeral hrows, readSize?_of_isNumeral hcols]
  by_cases hr : rows < sizeLimit
  · by_cases hc : cols < sizeLimit
    · simp [hr, hc, of?, Option.filter]
    · simp [hr, hc, of?]
  · simp [hr, of?]

/-- A text that follows the rule is read as the shape of its numbers, if there is one and it is
countable. -/
theorem readChars?_of_writes (h : Writes cs rows cols) :
    readChars? cs = (of? rows cols).filter fun shape => shape.Countable := by
  rcases h with hpair | ⟨inner, hcs, hpair⟩
  · obtain ⟨hopen, hclose⟩ := hpair.not_mem_bracket
    exact readChars?_of_unbracket? (unbracket?_of_not_mem hopen hclose) hpair
  · exact readChars?_of_unbracket? (by rw [hcs, unbracket?_bracketed]) hpair

/-- What is read follows the rule. -/
theorem writes_of_readChars? {s : Shape} (h : readChars? cs = some s) :
    Writes cs s.rows s.cols := by
  simp only [readChars?, Option.bind_eq_bind, Option.bind_eq_some_iff] at h
  obtain ⟨inner, hinner, h⟩ := h
  split at h
  · next first second hpieces =>
    simp only [Option.bind_eq_some_iff, readSize?_eq_some_iff] at h
    obtain ⟨rows, ⟨hrows, -⟩, cols, ⟨hcols, -⟩, t, ht, h⟩ := h
    obtain ⟨rfl, rfl⟩ := eq_of_of? ht
    have hpair := writesPair_of_pieces hpieces hrows hcols
    split at h
    · obtain rfl := Option.some.inj h
      rcases eq_of_unbracket? hinner with heq | heq
      · exact .inl (heq ▸ hpair)
      · exact .inr ⟨inner, heq, hpair⟩
    · cases h
  · cases h

/-- A text is that of a countable shape. -/
def WrittenAs (s : Shape) (cs : List Char) : Prop := Writes cs s.rows s.cols ∧ s.Countable

theorem readChars?_eq_some_iff {s : Shape} : readChars? cs = some s ↔ s.WrittenAs cs := by
  constructor
  · intro h
    exact ⟨writes_of_readChars? h, countable_of_readChars? h⟩
  · rintro ⟨hwrites, hcountable⟩
    have hof : of? s.rows s.cols = some s := dif_pos ⟨s.rows_lt, s.cols_lt⟩
    rw [readChars?_of_writes hwrites, hof]
    simp [Option.filter, hcountable]

theorem readChars?_eq_none_iff : readChars? cs = none ↔ ∀ s : Shape, ¬s.WrittenAs cs := by
  rw [Option.eq_none_iff_forall_ne_some]
  exact forall_congr' fun s => not_congr readChars?_eq_some_iff

/-- The text of a shape follows the rule. -/
theorem writes_text (s : Shape) : Writes s.text.toList s.rows s.cols := by
  have htext : s.text.toList =
      '[' :: (s.rows.repr.toList ++ ',' :: ' ' :: s.cols.repr.toList ++ [']']) := by
    simp [text]
  right
  refine ⟨_, ?_, s.rows.repr.toList, ' ' :: s.cols.repr.toList, rfl, ?_, ?_⟩
  · rw [htext]
    exact Text.trim_of_ends (by decide) (by decide) _
  · rw [trim_repr]
    exact isNumeral_repr s.rows
  · rw [Text.trim_space_cons, trim_repr]
    exact isNumeral_repr s.cols

/-- A shape is read from its own text if it is countable. -/
theorem read?_text (s : Shape) : read? s.text = if s.Countable then some s else none := by
  have hof : of? s.rows s.cols = some s := dif_pos ⟨s.rows_lt, s.cols_lt⟩
  rw [read?, readChars?_of_writes s.writes_text, hof]
  simp [Option.filter]

theorem exists_read?_iff (text : String) (rows cols : Nat) :
    (∃ s, read? text = some s ∧ s.rows = rows ∧ s.cols = cols) ↔
      Writes text.toList rows cols ∧ rows < sizeLimit ∧ cols < sizeLimit ∧
        rows * cols < sizeLimit := by
  constructor
  · rintro ⟨s, hs, rfl, rfl⟩
    obtain ⟨hwrites, hcountable⟩ := readChars?_eq_some_iff.1 hs
    exact ⟨hwrites, s.rows_lt, s.cols_lt, hcountable⟩
  · rintro ⟨hwrites, hrows, hcols, hcount⟩
    exact ⟨⟨rows, cols, hrows, hcols⟩, readChars?_eq_some_iff.2 ⟨hwrites, hcount⟩, rfl, rfl⟩

/-- A text is read as a shape exactly if it is two numerals with a comma between them, in brackets or
without, with blanks around any of it, and the numbers and their product are sizes.  From any other
text nothing is read.  A shape is read from its own text if it is countable, and if not then nothing
is. -/
theorem read?_iff_writes (text : String) :
    (∀ rows cols, (∃ s, read? text = some s ∧ s.rows = rows ∧ s.cols = cols) ↔
      Writes text.toList rows cols ∧ rows < sizeLimit ∧ cols < sizeLimit ∧
        rows * cols < sizeLimit) ∧
    (read? text = none ↔ ∀ rows cols, ¬(Writes text.toList rows cols ∧ rows < sizeLimit ∧
      cols < sizeLimit ∧ rows * cols < sizeLimit)) ∧
    ∀ s : Shape, read? s.text = if s.Countable then some s else none := by
  refine ⟨exists_read?_iff text, ?_, read?_text⟩
  simp only [← exists_read?_iff]
  constructor
  · rintro hnone rows cols ⟨s, hs, -, -⟩
    cases hnone.symm.trans hs
  · intro hno
    rw [Option.eq_none_iff_forall_ne_some]
    intro s hs
    exact hno s.rows s.cols ⟨s, hs, rfl, rfl⟩

end Shape

end ModelScoring
