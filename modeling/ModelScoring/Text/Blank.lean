/-!
# Blank characters

Every reader of the library drops the blank characters around a piece of text before it looks
at the piece.  The blank characters are those with the property `White_Space`, twenty-five in
all, listed here as ranges of code points.

`trim_trim` says trimming a second time changes nothing.
-/

namespace ModelScoring.Text

/-- The code points of the property `White_Space`, as closed ranges in ascending order. -/
def blankRanges : List (Nat × Nat) :=
  [(0x09, 0x0D), (0x20, 0x20), (0x85, 0x85), (0xA0, 0xA0), (0x1680, 0x1680), (0x2000, 0x200A),
    (0x2028, 0x2029), (0x202F, 0x202F), (0x205F, 0x205F), (0x3000, 0x3000)]

def isBlank (c : Char) : Bool :=
  blankRanges.any fun range => range.1 ≤ c.toNat && c.toNat ≤ range.2

/-- The text without the blanks it starts with. -/
def trimLeft (cs : List Char) : List Char := cs.dropWhile isBlank

/-- The text without the blanks it ends with. -/
def trimRight (cs : List Char) : List Char := (cs.reverse.dropWhile isBlank).reverse

/-- The text without the blanks around it. -/
def trim (cs : List Char) : List Char := trimRight (trimLeft cs)

/-- A string without the blanks around it. -/
def trimmed (s : String) : String := String.ofList (trim s.toList)

/-- Whether a text holds nothing but blanks. -/
def allBlank (cs : List Char) : Bool := cs.all isBlank

/-- A text that does not start with a blank keeps its start. -/
theorem trimLeft_cons_of_not_blank {c : Char} {cs : List Char} (h : isBlank c = false) :
    trimLeft (c :: cs) = c :: cs := by
  simp [trimLeft, h]

/-- What is left after trimming on the left does not start with a blank. -/
theorem isBlank_head_trimLeft {c : Char} {cs rest : List Char} (h : trimLeft cs = c :: rest) :
    isBlank c = false := by
  induction cs with
  | nil => simp [trimLeft] at h
  | cons d ds ih =>
    unfold trimLeft at h ih
    rw [List.dropWhile_cons] at h
    split at h
    · exact ih h
    · next hd => cases h; simpa using hd

theorem trimLeft_trimLeft (cs : List Char) : trimLeft (trimLeft cs) = trimLeft cs := by
  match h : trimLeft cs with
  | [] => rfl
  | c :: rest => exact trimLeft_cons_of_not_blank (isBlank_head_trimLeft h)

theorem trimRight_trimRight (cs : List Char) : trimRight (trimRight cs) = trimRight cs := by
  have h := trimLeft_trimLeft cs.reverse
  simp only [trimLeft] at h
  simp [trimRight, h]

/-- Trimming on the right keeps the first character, unless it drops everything. -/
theorem trimRight_cons {c : Char} (cs : List Char) (h : isBlank c = false) :
    trimRight (c :: cs) = c :: trimRight cs := by
  simp only [trimRight, List.reverse_cons]
  rw [List.dropWhile_append]
  split
  · next hnil =>
    simp only [List.isEmpty_iff] at hnil
    simp [h, hnil]
  · simp

theorem trim_trim (cs : List Char) : trim (trim cs) = trim cs := by
  unfold trim
  match h : trimLeft cs with
  | [] => rfl
  | c :: rest =>
    have hc := isBlank_head_trimLeft h
    rw [trimRight_cons rest hc, trimLeft_cons_of_not_blank hc, ← trimRight_cons rest hc,
      trimRight_trimRight]

end ModelScoring.Text
