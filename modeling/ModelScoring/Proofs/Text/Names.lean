import Mathlib.Data.List.Forall2
import ModelScoring.Text.Fold

/-!
# Names and their order

Two names are the *same name* if they have the same letters up to the case of ASCII letters.
`fold_eq_fold_iff` says that these are the names with the same folded form.  A letter outside ASCII
is the same as no other, so names that differ in such a letter are different names.

Folded names are compared character by character.  `bytes_lt_bytes_iff` says that this is the order
of their bytes: a character with a greater code has the greater bytes, whatever comes behind it.
-/

namespace ModelScoring.Text

/-! ## The same name -/

/-- Two characters are equal or the two cases of one ASCII letter. -/
def SameLetter (c d : Char) : Prop :=
  c = d ∨ (c.isUpper = true ∧ d.toNat = c.toNat + 32) ∨
    (d.isUpper = true ∧ c.toNat = d.toNat + 32)

def SameName (s t : String) : Prop := List.Forall₂ SameLetter s.toList t.toList

theorem isUpper_iff (c : Char) : c.isUpper = true ↔ 65 ≤ c.toNat ∧ c.toNat ≤ 90 := by
  show decide ('A'.val ≤ c.val ∧ c.val ≤ 'Z'.val) = true ↔ _
  simp [UInt32.le_iff_toNat_le]

theorem toNat_toLower (c : Char) :
    c.toLower.toNat = if 65 ≤ c.toNat ∧ c.toNat ≤ 90 then c.toNat + 32 else c.toNat := by
  have hA : 'A'.toNat = 65 := rfl
  have hZ : 'Z'.toNat = 90 := rfl
  unfold Char.toLower
  simp only [ge_iff_le, UInt32.le_iff_toNat_le, Char.toNat_val]
  split
  · rw [if_pos (by omega), ← Char.toNat_val, UInt32.toNat_add, Char.toNat_val]
    simp
    omega
  · rw [if_neg (by omega)]

theorem toLower_eq_toLower_iff (c d : Char) : c.toLower = d.toLower ↔ SameLetter c d := by
  rw [SameLetter, isUpper_iff, isUpper_iff, ← Char.toNat_inj, ← Char.toNat_inj, toNat_toLower,
    toNat_toLower]
  split <;> split <;> omega

/-- Names are the same exactly if they have the same folded form. -/
theorem fold_eq_fold_iff (s t : String) : fold s = fold t ↔ SameName s t := by
  rw [← String.toList_inj, toList_fold, toList_fold, SameName, ← List.forall₂_eq_eq_eq,
    List.forall₂_map_left_iff, List.forall₂_map_right_iff]
  simp only [toLower_eq_toLower_iff]

theorem SameName.symm {s t : String} (h : SameName s t) : SameName t s :=
  (fold_eq_fold_iff t s).1 ((fold_eq_fold_iff s t).2 h).symm

/-- At some place the one has a letter outside ASCII and the other a different letter. -/
def DifferOutsideAscii (s t : String) : Prop :=
  ∃ (k : Nat) (c d : Char),
    s.toList[k]? = some c ∧ t.toList[k]? = some d ∧ c ≠ d ∧ (128 ≤ c.toNat ∨ 128 ≤ d.toNat)

theorem not_sameName_of_differOutsideAscii {s t : String} (h : DifferOutsideAscii s t) :
    ¬SameName s t := by
  obtain ⟨k, c, d, hc, hd, hne, hascii⟩ := h
  intro hsame
  obtain ⟨hks, rfl⟩ := List.getElem?_eq_some_iff.1 hc
  obtain ⟨hkt, rfl⟩ := List.getElem?_eq_some_iff.1 hd
  have hletter : SameLetter s.toList[k] t.toList[k] := hsame.get hks hkt
  rw [SameLetter, isUpper_iff, isUpper_iff] at hletter
  rcases hletter with heq | hletter | hletter
  · exact hne heq
  · omega
  · omega

/-! ## The order of bytes -/

/-- The bytes of a text. -/
def bytes (s : String) : List UInt8 := s.toUTF8.data.toList

theorem bytes_eq (s : String) : bytes s = s.toList.flatMap String.utf8EncodeChar := by
  rw [bytes, String.toUTF8_eq_toByteArray]
  conv => lhs; rw [← String.ofList_toList (s := s)]
  rw [String.toByteArray_ofList]
  simp [List.utf8Encode]

theorem digit_lt {v w : Nat} (h : v < w) :
    v / 64 < w / 64 ∨ v / 64 = w / 64 ∧ v % 64 < w % 64 := by
  omega

/-- Numbers compare as their digits to the base 64 do, the highest of four first. -/
theorem digits_lt {v w : Nat} (h : v < w) :
    v / 262144 < w / 262144 ∨ v / 262144 = w / 262144 ∧
      (v / 4096 % 64 < w / 4096 % 64 ∨ v / 4096 % 64 = w / 4096 % 64 ∧
        (v / 64 % 64 < w / 64 % 64 ∨ v / 64 % 64 = w / 64 % 64 ∧ v % 64 < w % 64)) := by
  have h2 (n : Nat) : n / 64 / 64 = n / 4096 := Nat.div_div_eq_div_mul n 64 64
  have h3 (n : Nat) : n / 4096 / 64 = n / 262144 := Nat.div_div_eq_div_mul n 4096 64
  rcases digit_lt h with h | ⟨heq, h⟩
  · rcases digit_lt h with h | ⟨heq, h⟩
    · rw [h2, h2] at h
      rcases digit_lt h with h | ⟨heq, h⟩
      · rw [h3, h3] at h
        exact .inl h
      · rw [h3, h3] at heq
        exact .inr ⟨heq, .inl h⟩
    · rw [h2, h2] at heq
      exact .inr ⟨by omega, .inr ⟨by rw [heq], .inl h⟩⟩
  · exact .inr ⟨by omega, .inr ⟨by omega, .inr ⟨by rw [heq], h⟩⟩⟩

theorem toNat_ofNat_of_lt {n : Nat} (h : n < 256) : (UInt8.ofNat n).toNat = n := by
  rw [UInt8.toNat_ofNat', Nat.mod_eq_of_lt h]

theorem toNat_val_lt (c : Char) : c.val.toNat < 1114112 := by
  have h := c.valid
  simp only [UInt32.isValidChar, Nat.isValidChar] at h
  omega

/-- The bytes of the greater character are greater.  Bytes that begin a longer form are greater
than those that begin a shorter one, and in forms of one length the digits decide. -/
theorem utf8EncodeChar_append_lt {c d : Char} (h : c < d) (x y : List UInt8) :
    String.utf8EncodeChar c ++ x < String.utf8EncodeChar d ++ y := by
  have hlt : c.val.toNat < d.val.toNat := h
  have hd : d.val.toNat < 1114112 := toNat_val_lt d
  have hdigits := digits_lt hlt
  have htop {v : Nat} (hv : v < 1114112) : v / 262144 % 8 = v / 262144 := by omega
  unfold String.utf8EncodeChar
  dsimp only
  rw [htop hd, htop (Nat.lt_trans hlt hd)]
  split_ifs <;>
    simp (disch := omega) only [List.cons_append, List.nil_append, List.cons_lt_cons_iff,
      UInt8.lt_iff_toNat_lt, ← UInt8.toNat_inj, toNat_ofNat_of_lt] <;>
    omega

theorem flatMap_utf8EncodeChar_lt {cs ds : List Char} (h : cs < ds) :
    cs.flatMap String.utf8EncodeChar < ds.flatMap String.utf8EncodeChar := by
  induction cs generalizing ds with
  | nil =>
    cases ds with
    | nil => exact absurd h (List.lt_irrefl _)
    | cons d ds =>
      obtain ⟨b, bs, hb⟩ := List.exists_cons_of_ne_nil (String.utf8EncodeChar_ne_nil (c := d))
      rw [List.flatMap_cons, List.flatMap_nil, hb]
      exact List.nil_lt_cons _ _
  | cons c cs ih =>
    cases ds with
    | nil => exact absurd h (List.not_lt_nil _)
    | cons d ds =>
      rw [List.flatMap_cons, List.flatMap_cons]
      rcases List.cons_lt_cons_iff.1 h with hcd | ⟨rfl, hrest⟩
      · exact utf8EncodeChar_append_lt hcd _ _
      · exact List.append_left_lt (ih hrest)

/-- Texts are in the order of their bytes. -/
theorem bytes_lt_bytes_iff (s t : String) : bytes s < bytes t ↔ s < t := by
  have hmono {s t : String} (h : s < t) : bytes s < bytes t := by
    rw [bytes_eq, bytes_eq]
    exact flatMap_utf8EncodeChar_lt h
  constructor
  · intro h
    rcases Std.lt_trichotomy s t with hst | rfl | hts
    · exact hst
    · exact absurd h (List.lt_irrefl _)
    · exact absurd h (List.lt_asymm (hmono hts))
  · exact hmono

end ModelScoring.Text
