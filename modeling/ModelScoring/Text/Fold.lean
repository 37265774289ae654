/-!
# Names up to the case of ASCII letters

Variable and operation names are compared after every ASCII capital has been replaced by its
small letter.  Other letters keep their case.  `fold_fold` says folding twice is folding once.
-/

namespace ModelScoring.Text

/-- The name with every ASCII capital replaced by its small letter. -/
def fold (name : String) : String := String.ofList (name.toList.map Char.toLower)

theorem toList_fold (name : String) : (fold name).toList = name.toList.map Char.toLower := by
  simp [fold]

theorem toLower_toLower (c : Char) : c.toLower.toLower = c.toLower := by
  have hcap : ∀ n ∈ List.range 26,
      (Char.ofNat (65 + n)).toLower.toLower = (Char.ofNat (65 + n)).toLower := by decide
  by_cases h : c.val ≥ 65 ∧ c.val ≤ 90
  · have hn : c.toNat - 65 ∈ List.range 26 := by
      have h1 := UInt32.le_iff_toNat_le.1 h.2
      have h2 : (90 : UInt32).toNat = 90 := rfl
      rw [List.mem_range, ← Char.toNat_val]
      omega
    have hc : Char.ofNat (65 + (c.toNat - 65)) = c := by
      have h1 := UInt32.le_iff_toNat_le.1 h.1
      have h2 : (65 : UInt32).toNat = 65 := rfl
      have h3 : 65 + (c.toNat - 65) = c.toNat := by
        rw [← Char.toNat_val]
        omega
      rw [h3, Char.ofNat_toNat]
    rw [← hc]
    exact hcap _ hn
  · have hc : c.toLower = c := dif_neg h
    rw [hc, hc]

theorem fold_fold (name : String) : fold (fold name) = fold name := by
  rw [← String.toList_inj, toList_fold, toList_fold, List.map_map]
  exact List.map_congr_left fun c _ => toLower_toLower c

end ModelScoring.Text
