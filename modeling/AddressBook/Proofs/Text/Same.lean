import AddressBook.Text.Lowercase

/-! Sameness of texts up to case, and up to case and outer blanks: both compare what a text is
folded to, so both are equivalences. -/

namespace AddressBook.Text

theorem sameAscii_iff {a b : String} : sameAscii a b = true ↔ asciiLower a = asciiLower b := by
  rw [sameAscii, beq_iff_eq]

@[simp]
theorem sameAscii_refl (a : String) : sameAscii a a = true := sameAscii_iff.mpr rfl

theorem sameAscii_comm (a b : String) : sameAscii a b = sameAscii b a := by
  rw [sameAscii, sameAscii, Bool.beq_comm]

theorem sameAscii_trans {a b c : String} (hab : sameAscii a b = true)
    (hbc : sameAscii b c = true) : sameAscii a c = true := by
  rw [sameAscii_iff] at *
  exact hab.trans hbc

theorem sameAscii_congr {a b : String} (h : sameAscii a b = true) (c : String) :
    sameAscii a c = sameAscii b c := by
  rw [sameAscii_iff] at h
  rw [sameAscii, sameAscii, h]

theorem toNat_toLower (c : Char) :
    c.toLower.toNat = if 65 ≤ c.toNat ∧ c.toNat ≤ 90 then c.toNat + 32 else c.toNat := by
  delta Char.toLower
  by_cases capital : c.val ≥ 'A'.val ∧ c.val ≤ 'Z'.val
  · rw [dif_pos capital]
    have bounds : 65 ≤ c.toNat ∧ c.toNat ≤ 90 :=
      ⟨UInt32.le_iff_toNat_le.mp capital.1, UInt32.le_iff_toNat_le.mp capital.2⟩
    rw [if_pos bounds]
    change (c.val + _).toNat = _
    rw [UInt32.toNat_add]
    change (c.toNat + 32) % _ = _
    omega
  · rw [dif_neg capital, if_neg]
    exact fun bounds => capital
      ⟨UInt32.le_iff_toNat_le.mpr bounds.1, UInt32.le_iff_toNat_le.mpr bounds.2⟩

theorem toNat_toUpper (c : Char) :
    c.toUpper.toNat = if 97 ≤ c.toNat ∧ c.toNat ≤ 122 then c.toNat - 32 else c.toNat := by
  delta Char.toUpper
  by_cases small : c.val ≥ 'a'.val ∧ c.val ≤ 'z'.val
  · rw [dif_pos small]
    have bounds : 97 ≤ c.toNat ∧ c.toNat ≤ 122 :=
      ⟨UInt32.le_iff_toNat_le.mp small.1, UInt32.le_iff_toNat_le.mp small.2⟩
    rw [if_pos bounds]
    change (c.val + _).toNat = _
    rw [UInt32.toNat_add]
    change (c.toNat + (4294967296 - 32)) % _ = _
    omega
  · rw [dif_neg small, if_neg]
    exact fun bounds => small
      ⟨UInt32.le_iff_toNat_le.mpr bounds.1, UInt32.le_iff_toNat_le.mpr bounds.2⟩

theorem isAlpha_iff {c : Char} :
    c.isAlpha = true ↔ 65 ≤ c.toNat ∧ c.toNat ≤ 90 ∨ 97 ≤ c.toNat ∧ c.toNat ≤ 122 := by
  delta Char.isAlpha Char.isUpper Char.isLower
  simp only [Bool.or_eq_true, Bool.and_eq_true, decide_eq_true_eq, UInt32.le_iff_toNat_le]
  exact Iff.rfl

theorem toUpper_toLower (c : Char) : c.toLower.toUpper = c.toUpper := by
  have lowered := toNat_toLower c
  refine Char.toNat_inj.mp ?_
  rw [toNat_toUpper, toNat_toUpper]
  split at lowered
  · rw [lowered]
    split <;> split <;> omega
  · rw [lowered]

theorem toLower_toUpper (c : Char) : c.toUpper.toLower = c.toLower := by
  have raised := toNat_toUpper c
  refine Char.toNat_inj.mp ?_
  rw [toNat_toLower, toNat_toLower]
  split at raised
  · rw [raised]
    split <;> split <;> omega
  · rw [raised]

theorem asciiUpper_asciiLower (s : String) : asciiUpper (asciiLower s) = asciiUpper s := by
  rw [asciiUpper, asciiLower, String.toList_ofList, List.map_map, asciiUpper]
  exact congrArg String.ofList (List.map_congr_left fun c _ => toUpper_toLower c)

theorem asciiLower_asciiUpper (s : String) : asciiLower (asciiUpper s) = asciiLower s := by
  rw [asciiLower, asciiUpper, String.toList_ofList, List.map_map, asciiLower]
  exact congrArg String.ofList (List.map_congr_left fun c _ => toLower_toUpper c)

theorem sameAscii_iff_asciiUpper {a b : String} :
    sameAscii a b = true ↔ asciiUpper a = asciiUpper b := by
  rw [sameAscii_iff]
  constructor
  · intro same
    rw [← asciiUpper_asciiLower a, same, asciiUpper_asciiLower]
  · intro same
    rw [← asciiLower_asciiUpper a, same, asciiLower_asciiUpper]

theorem sameName_iff {a b : String} : sameName a b = true ↔ lower (trim a) = lower (trim b) := by
  rw [sameName, beq_iff_eq]

@[simp]
theorem sameName_refl (a : String) : sameName a a = true := sameName_iff.mpr rfl

theorem sameName_comm (a b : String) : sameName a b = sameName b a := by
  rw [sameName, sameName, Bool.beq_comm]

theorem sameName_trans {a b c : String} (hab : sameName a b = true)
    (hbc : sameName b c = true) : sameName a c = true := by
  rw [sameName_iff] at *
  exact hab.trans hbc

theorem sameName_congr {a b : String} (h : sameName a b = true) (c : String) :
    sameName a c = sameName b c := by
  rw [sameName_iff] at h
  rw [sameName, sameName, h]

end AddressBook.Text
