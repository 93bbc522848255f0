import AddressBook.Number.Reading
import AddressBook.Number.Layout
import AddressBook.Proofs.Text.Identifier
import AddressBook.Proofs.Text.Trimming

/-! Whole numbers as decimal text: what is written for one reads back as it, and as the nearest double
where doubles are read. -/

namespace AddressBook

theorem digitsValue_toDigits (n : Nat) : digitsValue (Nat.toDigits 10 n) = n :=
  Nat.ofDigitChars_toDigits (by decide) (by decide)

theorem isDigit_of_mem_toDigits {n : Nat} {c : Char} (h : c ∈ Nat.toDigits 10 n) :
    c.isDigit = true :=
  Nat.isDigit_of_mem_toDigits (by decide) (by decide) h

theorem toList_toString_ofNat (n : Nat) :
    (toString (n : Int)).toList = Nat.toDigits 10 n := by
  change n.repr.toList = _
  rw [Nat.toList_repr]

theorem toList_toString_negSucc (n : Nat) :
    (toString (Int.negSucc n)).toList = '-' :: Nat.toDigits 10 (n + 1) := by
  change ("-" ++ (n + 1).repr).toList = _
  rw [String.toList_append, Nat.toList_repr]
  rfl

theorem toList_toString_cons (i : Int) :
    ∃ c cs, (toString i).toList = c :: cs ∧ (∀ d ∈ cs, d.isDigit = true) ∧
      (c.isDigit = true ∨ c = '-' ∧ ∃ d ds, cs = d :: ds) := by
  cases i with
  | ofNat n =>
    obtain ⟨c, cs, hcs⟩ := List.exists_cons_of_ne_nil (Nat.toDigits_ne_nil (n := n) (b := 10))
    have digits : ∀ d ∈ c :: cs, d.isDigit = true := by
      intro d hd
      rw [← hcs] at hd
      exact isDigit_of_mem_toDigits hd
    refine ⟨c, cs, (toList_toString_ofNat n).trans hcs, ?_, Or.inl ?_⟩
    · intro d hd
      exact digits d (List.mem_cons_of_mem c hd)
    · exact digits c List.mem_cons_self
  | negSucc n =>
    refine ⟨'-', _, toList_toString_negSucc n, fun d hd => isDigit_of_mem_toDigits hd, Or.inr ?_⟩
    exact ⟨rfl, List.exists_cons_of_ne_nil Nat.toDigits_ne_nil⟩

theorem trim_toString (i : Int) : Text.trim (toString i) = toString i := by
  refine Text.trim_of_solid fun d hd => ?_
  obtain ⟨c, cs, written, digits, first⟩ := toList_toString_cons i
  rw [written] at hd
  rcases List.mem_cons.mp hd with rfl | hd
  · rcases first with digit | ⟨rfl, -⟩
    · exact Text.isBlank_of_isDigit digit
    · rfl
  · exact Text.isBlank_of_isDigit (digits d hd)

namespace Number

theorem spacing_pos (steps : Nat) : 0 < spacing steps := by
  rw [spacing]
  split
  · decide
  · exact Nat.two_pow_pos _

theorem two_mul_spacing_le {total : Nat} (h : 2 ^ 53 ≤ total) : 2 * spacing total ≤ total := by
  have positive : total ≠ 0 := by omega
  have log : 53 ≤ total.log2 := (Nat.le_log2 positive).mpr h
  rw [spacing, if_neg (by omega)]
  calc 2 * 2 ^ (total.log2 - 52) = 2 ^ (total.log2 - 51) := by
        rw [Nat.mul_comm, ← Nat.pow_succ]
        congr 1
        omega
    _ ≤ 2 ^ total.log2 := Nat.pow_le_pow_right (by decide) (by omega)
    _ ≤ total := Nat.log2_self_le positive

theorem sub_spacing_le_rounded (total : Nat) :
    total - spacing total ≤ roundDiv total (spacing total) * spacing total := by
  have quotient : total / spacing total ≤ roundDiv total (spacing total) := by
    rw [roundDiv]
    split
    · exact Nat.le_refl _
    · split <;> omega
  have scaled := Nat.mul_le_mul_right (spacing total) quotient
  have parts := Nat.div_add_mod total (spacing total)
  have rest := Nat.mod_lt total (spacing_pos total)
  rw [Nat.mul_comm] at parts
  omega

theorem two_pow_le_rounded {total k : Nat} (hk : 53 ≤ k) (h : 2 ^ (k + 1) ≤ total) :
    2 ^ k ≤ roundDiv total (spacing total) * spacing total := by
  have large : 2 ^ 53 ≤ total :=
    Nat.le_trans (Nat.pow_le_pow_right (by decide) (by omega)) h
  have gap := two_mul_spacing_le large
  have rounded := sub_spacing_le_rounded total
  rw [Nat.pow_succ] at h
  omega

theorem two_pow_le_nearest {n k m : Nat} (hm : m = k + 1074) (h : 2 ^ (k + 1) ≤ n) :
    2 ^ m ≤ nearest (n * one) 1 := by
  have steps : 2 ^ (m + 1) ≤ n * one := by
    rw [hm, Nat.add_right_comm, Nat.pow_add, ← one]
    exact Nat.mul_le_mul_right _ h
  rw [nearest, Nat.div_one, Nat.one_mul]
  exact two_pow_le_rounded (by omega) steps

theorem limit_le_nearest {n : Nat} (h : 310 < decimalLength n) : limit ≤ nearest (n * one) 1 := by
  have long : 10 ^ (62 * 5) ≤ n := by
    refine Nat.le_of_not_lt fun short => ?_
    have bound := Nat.length_toDigits_le_iff (b := 10) (n := n) (k := 62 * 5) (by decide)
      (by decide)
    have fits := bound.mpr short
    rw [decimalLength] at h
    omega
  have fifth : 2 ^ 205 ≤ 10 ^ 62 := by decide
  have powers := Nat.pow_le_pow_left fifth 5
  rw [← Nat.pow_mul, ← Nat.pow_mul] at powers
  -- The exponents are kept as variables, since the powers themselves are too large to compute.
  have beyond : ∀ k m, k + 1 = 205 * 5 → m = k + 1074 → 2 ^ m ≤ nearest (n * one) 1 := by
    intro k m hk hm
    apply two_pow_le_nearest hm
    rw [hk]
    exact Nat.le_trans powers long
  rw [limit]
  exact beyond 1024 2098 rfl rfl

theorem ofRatio_zero (negative : Bool) : ofRatio negative 0 1 = .finite negative 0 := by
  have rounded : nearest 0 1 = 0 := by decide
  have finite : 0 < limit := by
    rw [limit]
    exact Nat.two_pow_pos 2098
  rw [ofRatio, Nat.zero_mul, rounded, ofSteps, if_pos finite]

theorem ofDecimal_whole (negative : Bool) (n : Nat) :
    ofDecimal negative n 0 = ofRatio negative n 1 := by
  rw [ofDecimal]
  simp only [Int.zero_add, Int.toNat_zero, Nat.pow_zero, Nat.mul_one, Int.le_refl, if_true]
  split
  · next h =>
    simp only [Bool.or_eq_true, decide_eq_true_eq] at h
    have zero : n = 0 := by omega
    rw [zero, ofRatio_zero]
  · split
    · next h =>
      rw [ofRatio, ofSteps, if_neg]
      have beyond := limit_le_nearest (n := n) (by omega)
      omega
    · rfl

theorem readUnsigned?_digits (negative : Bool) {cs : List Char} (hne : cs ≠ [])
    (h : ∀ c ∈ cs, c.isDigit = true) :
    readUnsigned? negative cs = some (ofRatio negative (digitsValue cs) 1) := by
  have taken : cs.takeWhile Char.isDigit = cs := by
    rw [← List.append_nil cs, List.takeWhile_append_of_pos h, List.takeWhile_nil]
  have left : cs.dropWhile Char.isDigit = [] := by
    rw [← List.append_nil cs, List.dropWhile_append_of_pos h, List.dropWhile_nil]
  have full : cs.isEmpty = false := by simpa using hne
  simp only [readUnsigned?, taken, left, full, List.append_nil]
  simp [readExponent?, ofDecimal_whole]

theorem toLower_of_isDigit {c : Char} (h : c.isDigit = true) : c.toLower = c := by
  simp only [Char.isDigit, Bool.and_eq_true, decide_eq_true_eq, UInt32.le_iff_toNat_le] at h
  delta Char.toLower
  rw [dif_neg]
  simp only [UInt32.le_iff_toNat_le, ge_iff_le]
  intro upper
  have capital : 'A'.val.toNat = 65 := rfl
  have nine : '9'.val.toNat = 57 := rfl
  omega

theorem map_toLower_ne {d c : Char} {ds word : List Char} (hd : d.isDigit = true)
    (hc : c.isDigit = false) : ((d :: ds).map Char.toLower == c :: word) = false := by
  rw [beq_eq_false_iff_ne, List.map_cons, toLower_of_isDigit hd]
  intro same
  have first : d = c := List.head_eq_of_cons_eq same
  rw [← first, hd] at hc
  cases hc

theorem read?_of_takeSign {s : String} {negative : Bool} {d : Char} {ds : List Char}
    (hs : takeSign s.toList = (negative, d :: ds)) (hd : d.isDigit = true) :
    read? s = readUnsigned? negative (d :: ds) := by
  have inf : ((d :: ds).map Char.toLower == "inf".toList) = false := map_toLower_ne hd rfl
  have infinity : ((d :: ds).map Char.toLower == "infinity".toList) = false :=
    map_toLower_ne hd rfl
  have nan : ((d :: ds).map Char.toLower == "nan".toList) = false := map_toLower_ne hd rfl
  simp only [read?, hs, inf, infinity, nan, Bool.or_self, Bool.false_eq_true, if_false]

theorem takeSign_of_isDigit {d : Char} {ds : List Char} (hd : d.isDigit = true) :
    takeSign (d :: ds) = (false, d :: ds) := by
  unfold takeSign
  split
  · next heq => cases heq; cases hd
  · next heq => cases heq; cases hd
  · rfl

theorem isDigits_toDigits (n : Nat) : isDigits (Nat.toDigits 10 n) = true := by
  have digits : (Nat.toDigits 10 n).all Char.isDigit = true :=
    List.all_eq_true.mpr fun _ h => isDigit_of_mem_toDigits h
  have full : (Nat.toDigits 10 n).isEmpty = false :=
    List.isEmpty_eq_false_iff.mpr Nat.toDigits_ne_nil
  rw [isDigits, full, digits]
  rfl

theorem takeSign_toString (i : Int) :
    takeSign (toString i).toList = (decide (i < 0), Nat.toDigits 10 i.natAbs) := by
  cases i with
  | ofNat n =>
    obtain ⟨d, ds, hds⟩ := List.exists_cons_of_ne_nil (Nat.toDigits_ne_nil (n := n) (b := 10))
    have first : d.isDigit = true := by
      refine isDigit_of_mem_toDigits (n := n) ?_
      rw [hds]
      exact List.mem_cons_self
    have sign : decide (Int.ofNat n < 0) = false :=
      decide_eq_false (Int.not_lt.mpr (Int.natCast_nonneg n))
    rw [show (toString (Int.ofNat n)).toList = Nat.toDigits 10 n from toList_toString_ofNat n,
      show (Int.ofNat n).natAbs = n from rfl, sign, hds]
    exact takeSign_of_isDigit first
  | negSucc n =>
    have sign : decide (Int.negSucc n < 0) = true := decide_eq_true (Int.negSucc_lt_zero n)
    rw [toList_toString_negSucc, sign]
    rfl

/-- The text of a whole number reads back as the number. -/
theorem readInt?_toString (i : Int) : readInt? (toString i) = some i := by
  rw [readInt?, takeSign_toString]
  dsimp only
  rw [if_pos (isDigits_toDigits i.natAbs), digitsValue_toDigits]
  split
  · next negative =>
    rw [decide_eq_true_eq] at negative
    exact congrArg some (by omega)
  · next other =>
    rw [decide_eq_true_eq] at other
    exact congrArg some (by omega)

theorem read?_of_digits {s : String} {negative : Bool} {n : Nat}
    (hs : takeSign s.toList = (negative, Nat.toDigits 10 n)) :
    read? s = some (ofRatio negative n 1) := by
  have digits : ∀ c ∈ Nat.toDigits 10 n, c.isDigit = true := fun _ h => isDigit_of_mem_toDigits h
  have value := readUnsigned?_digits negative Nat.toDigits_ne_nil digits
  rw [digitsValue_toDigits] at value
  obtain ⟨d, ds, hds⟩ := List.exists_cons_of_ne_nil (Nat.toDigits_ne_nil (n := n) (b := 10))
  rw [hds] at hs digits value
  rw [read?_of_takeSign hs (digits d List.mem_cons_self), value]

theorem read?_toString (i : Int) : read? (toString i) = some (ofInt i) := by
  rw [read?_of_digits (takeSign_toString i), ofInt]

end Number

end AddressBook
