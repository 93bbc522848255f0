import AddressBook.Formula.Meaning
import AddressBook.Proofs.Number.Whole

/-! The order of whole numbers, as doubles and as decimal texts. A double holds a whole number of up
to 53 binary digits exactly, and its order is that of the number. Decimal texts are compared from the
left, so that a long number counts as no more than what it begins with, and behind a minus sign the
order is turned around. -/

namespace AddressBook

namespace Number

/-! Whole numbers that are held exactly. -/

theorem nearest_eq_self {steps : Nat} (h : spacing steps ∣ steps) : nearest steps 1 = steps := by
  have rest : steps % spacing steps = 0 := Nat.mod_eq_zero_of_dvd h
  have gap := spacing_pos steps
  rw [nearest, Nat.div_one, Nat.one_mul, roundDiv]
  simp only [rest, Nat.mul_zero, gap, if_true]
  exact Nat.div_mul_cancel h

theorem one_pos : 0 < one := by
  rw [one]
  exact Nat.two_pow_pos 1074

-- The exponents are variables, since the powers themselves are too large to compute.
theorem mul_one_lt {n k m : Nat} (hm : m = k + 1074) (h : n < 2 ^ k) : n * one < 2 ^ m := by
  rw [hm, Nat.pow_add, ← one]
  exact Nat.mul_lt_mul_of_pos_right h one_pos

theorem spacing_dvd {n : Nat} (h : n < 2 ^ 53) : spacing (n * one) ∣ n * one := by
  have power : ∀ e, e = 1074 → spacing (n * one) ∣ 2 ^ e := by
    intro e he
    rw [spacing]
    split
    · exact Nat.one_dvd _
    · next large =>
      have some : n * one ≠ 0 := fun none => large (by rw [none]; decide)
      have log := (Nat.log2_lt some).mpr (mul_one_lt rfl h)
      exact Nat.pow_dvd_pow 2 (by omega)
  have divides := power _ rfl
  rw [← one] at divides
  exact Nat.dvd_mul_left_of_dvd divides n

theorem ofInt_eq {i : Int} (h : i.natAbs < 2 ^ 53) : ofInt i = .finite (i < 0) (i.natAbs * one) := by
  have beyond : ∀ k m, 53 ≤ k → m = k + 1074 → i.natAbs * one < 2 ^ m := by
    intro k m hk hm
    exact mul_one_lt hm (Nat.lt_of_lt_of_le h (Nat.pow_le_pow_right (by decide) hk))
  have finite : i.natAbs * one < limit := by
    rw [limit]
    exact beyond 1024 2098 (by decide) rfl
  rw [ofInt, ofRatio, nearest_eq_self (spacing_dvd h), ofSteps, if_pos finite]

theorem position_ofInt {i : Int} (h : i.natAbs < 2 ^ 53) : (ofInt i).position = some (i * one) := by
  rw [ofInt_eq h, position, Option.some.injEq]
  rcases Int.lt_or_le i 0 with negative | positive
  · have magnitude : (i.natAbs : Int) = -i := Int.ofNat_natAbs_of_nonpos (Int.le_of_lt negative)
    rw [decide_eq_true negative, if_pos rfl, Int.natCast_mul, magnitude, Int.neg_mul, Int.neg_neg]
  · have magnitude : (i.natAbs : Int) = i := Int.natAbs_of_nonneg positive
    rw [decide_eq_false (Int.not_lt.mpr positive), if_neg Bool.false_ne_true, Int.natCast_mul,
      magnitude]

theorem isZero_ofInt {i : Int} (h : i.natAbs < 2 ^ 53) : (ofInt i).isZero = (i == 0) := by
  have positive : (one : Int) ≠ 0 := Int.natCast_ne_zero.mpr (Nat.ne_of_gt one_pos)
  rw [isZero, position_ofInt h, Option.some_beq_some, Bool.eq_iff_iff, beq_iff_eq, beq_iff_eq]
  exact Int.mul_eq_zero.trans (or_iff_left positive)

theorem compare_mul {c : Int} (hc : 0 < c) (i k : Int) :
    Ord.compare (i * c) (k * c) = Ord.compare i k := by
  rcases Int.lt_trichotomy i k with less | rfl | greater
  · rw [Int.compare_eq_lt.mpr less, Int.compare_eq_lt.mpr (Int.mul_lt_mul_of_pos_right less hc)]
  · rw [Std.compare_self, Std.compare_self]
  · rw [Int.compare_eq_gt.mpr greater,
      Int.compare_eq_gt.mpr (Int.mul_lt_mul_of_pos_right greater hc)]

theorem compare?_ofInt {i k : Int} (hi : i.natAbs < 2 ^ 53) (hk : k.natAbs < 2 ^ 53) :
    (ofInt i).compare? (ofInt k) = some (Ord.compare i k) := by
  have positive : (0 : Int) < one := Int.natCast_pos.mpr one_pos
  rw [compare?, position_ofInt hi, position_ofInt hk, ← compare_mul positive i k]
  rfl

theorem shown_ofInt {i : Int} (h : i.natAbs < 2 ^ 53) :
    (Scalar.number (ofInt i)).shown = toString i := by
  have whole : (ofInt i).isWhole = true := by
    rw [ofInt_eq h, isWhole, Nat.mul_mod_left]
    rfl
  have kept : (ofInt i).truncate Int.least64 Int.most64 = i := by
    have count : ((i.natAbs * one : Nat) : Int) / (one : Int) = i.natAbs := by
      rw [← Int.natCast_ediv, Nat.mul_div_cancel _ one_pos]
    rw [ofInt_eq h, truncate]
    simp only [count, decide_eq_true_eq]
    have signed : (if i < 0 then -(i.natAbs : Int) else i.natAbs) = i := by omega
    rw [signed, clamp, Int.least64, Int.most64, if_neg (by omega), if_neg (by omega)]
  rw [Scalar.shown, whole, kept, if_pos rfl]

/-! Decimal texts. -/

theorem digitChar_lt_iff {m n : Nat} (hm : m < 10) (hn : n < 10) :
    m.digitChar < n.digitChar ↔ m < n := by
  have first := Nat.toNat_digitChar_of_lt_ten hm
  have second := Nat.toNat_digitChar_of_lt_ten hn
  rw [Char.lt_def, UInt32.lt_iff_toNat_lt]
  change m.digitChar.toNat < n.digitChar.toNat ↔ _
  omega

theorem append_lt_iff {xs ys : List Char} (h : xs.length ≤ ys.length) (zs : List Char) :
    ys ++ zs < xs ↔ ys < xs := by
  induction ys generalizing xs with
  | nil =>
    have none : xs = [] := List.eq_nil_of_length_eq_zero (Nat.le_zero.mp h)
    subst none
    exact iff_of_false (List.not_lt_nil _) (List.not_lt_nil _)
  | cons y ys ih =>
    cases xs with
    | nil => exact iff_of_false (List.not_lt_nil _) (List.not_lt_nil _)
    | cons x xs =>
      have shorter := ih (Nat.le_of_succ_le_succ h)
      rw [List.cons_append, List.cons_lt_cons_iff, List.cons_lt_cons_iff, shorter]

theorem append_singleton_lt_iff {xs ys : List Char} (h : xs.length = ys.length) (c d : Char) :
    xs ++ [c] < ys ++ [d] ↔ xs < ys ∨ xs = ys ∧ c < d := by
  induction xs generalizing ys with
  | nil =>
    have none : ys = [] := List.eq_nil_of_length_eq_zero h.symm
    subst none
    simp [List.cons_lt_cons_iff]
  | cons x xs ih =>
    cases ys with
    | nil => cases h
    | cons y ys =>
      have shorter := ih (Nat.succ.inj h)
      rw [List.cons_append, List.cons_append, List.cons_lt_cons_iff, List.cons_lt_cons_iff, shorter,
        List.cons.injEq]
      grind

theorem toDigits_inj {m n : Nat} : Nat.toDigits 10 m = Nat.toDigits 10 n ↔ m = n := by
  refine ⟨fun same => ?_, congrArg _⟩
  rw [← digitsValue_toDigits m, same, digitsValue_toDigits]

theorem decimalLength_le_one {n : Nat} : decimalLength n ≤ 1 ↔ n < 10 :=
  Nat.length_toDigits_le_iff (by decide) (by decide)

theorem toDigits_of_le {n : Nat} (h : 10 ≤ n) :
    Nat.toDigits 10 n = Nat.toDigits 10 (n / 10) ++ [(n % 10).digitChar] ∧
      decimalLength n = decimalLength (n / 10) + 1 := by
  have behind := Nat.toDigits_of_base_le (by decide) h
  exact ⟨behind, by rw [decimalLength, behind, List.length_append]; rfl⟩

theorem toDigits_lt_iff_of_length_eq {m n : Nat} (h : decimalLength m = decimalLength n) :
    Nat.toDigits 10 m < Nat.toDigits 10 n ↔ m < n := by
  induction m using Nat.strongRecOn generalizing n with
  | ind m ih =>
    have digits := decimalLength_le_one (n := m)
    have digits' := decimalLength_le_one (n := n)
    rcases Nat.lt_or_ge m 10 with small | large
    · have small' : n < 10 := digits'.mp (h ▸ digits.mpr small)
      rw [Nat.toDigits_of_lt_base small, Nat.toDigits_of_lt_base small', List.cons_lt_cons_iff,
        digitChar_lt_iff small small']
      simp
    · have large' : 10 ≤ n := Nat.le_of_not_lt fun small => by omega
      obtain ⟨behind, long⟩ := toDigits_of_le large
      obtain ⟨behind', long'⟩ := toDigits_of_le large'
      have lengths : decimalLength (m / 10) = decimalLength (n / 10) := by omega
      rw [behind, behind', append_singleton_lt_iff lengths, ih (m / 10) (by omega) lengths,
        toDigits_inj, digitChar_lt_iff (Nat.mod_lt m (by decide)) (Nat.mod_lt n (by decide))]
      omega

theorem toDigits_lt_iff {m n : Nat} (h : decimalLength m ≤ decimalLength n) :
    Nat.toDigits 10 n < Nat.toDigits 10 m ↔
      n / 10 ^ (decimalLength n - decimalLength m) < m := by
  generalize longer : decimalLength n - decimalLength m = k
  induction k generalizing n with
  | zero =>
    rw [Nat.pow_zero, Nat.div_one]
    exact toDigits_lt_iff_of_length_eq (by omega)
  | succ k ih =>
    have first : 0 < decimalLength m := Nat.length_toDigits_pos
    have large : 10 ≤ n := Nat.le_of_not_lt fun small => by
      have digits := decimalLength_le_one.mpr small
      omega
    obtain ⟨behind, long⟩ := toDigits_of_le large
    have shorter : decimalLength m ≤ decimalLength (n / 10) := by omega
    rw [behind, append_lt_iff shorter, ih shorter (by omega), Nat.div_div_eq_div_mul,
      Nat.mul_comm, ← Nat.pow_succ]

theorem decimalLength_mono {m n : Nat} (h : m ≤ n) : decimalLength m ≤ decimalLength n := by
  have bound := Nat.length_toDigits_le_iff (b := 10) (n := n) (by decide)
    (Nat.length_toDigits_pos (b := 10) (n := n))
  have within : n < 10 ^ decimalLength n := bound.mp (Nat.le_refl _)
  have shorter := Nat.lt_of_le_of_lt h within
  exact (Nat.length_toDigits_le_iff (by decide) Nat.length_toDigits_pos).mpr shorter

def Leads (m n : Nat) : Prop :=
  min m n ≤ max m n / 10 ^ (decimalLength (max m n) - decimalLength (min m n))

instance (m n : Nat) : Decidable (Leads m n) := inferInstanceAs (Decidable (_ ≤ _))

theorem leads_comm (m n : Nat) : Leads m n ↔ Leads n m := by
  rw [Leads, Leads, Nat.min_comm, Nat.max_comm]

theorem toDigits_lt_iff_not_leads {m n : Nat} (h : m < n) :
    Nat.toDigits 10 n < Nat.toDigits 10 m ↔ ¬Leads m n := by
  rw [toDigits_lt_iff (decimalLength_mono (Nat.le_of_lt h)), Leads,
    Nat.min_eq_left (Nat.le_of_lt h), Nat.max_eq_right (Nat.le_of_lt h), Nat.not_le]

theorem toDigits_lt_iff_leads {m n : Nat} (h : m < n) :
    Nat.toDigits 10 m < Nat.toDigits 10 n ↔ Leads m n := by
  have turned := toDigits_lt_iff_not_leads h
  refine ⟨fun less => Decidable.not_not.mp fun other => List.lt_asymm less (turned.mpr other), ?_⟩
  intro leads
  rcases Std.lt_trichotomy (Nat.toDigits 10 m) (Nat.toDigits 10 n) with less | same | greater
  · exact less
  · exact absurd (toDigits_inj.mp same) (Nat.ne_of_lt h)
  · exact absurd leads (turned.mp greater)

/-- Whole numbers of which the decimal texts stand in the same order. -/
def InTextOrder (i k : Int) : Prop :=
  i = k ∨ (i < 0 ∧ 0 ≤ k) ∨ (0 ≤ i ∧ k < 0) ∨ (0 ≤ i ∧ 0 ≤ k ∧ Leads i.natAbs k.natAbs) ∨
    (i < 0 ∧ k < 0 ∧ ¬Leads i.natAbs k.natAbs)

instance (i k : Int) : Decidable (InTextOrder i k) := by
  unfold InTextOrder
  infer_instance

theorem inTextOrder_comm (i k : Int) : InTextOrder i k ↔ InTextOrder k i := by
  rw [InTextOrder, InTextOrder, leads_comm i.natAbs]
  grind

theorem toList_toString_of_nonneg {i : Int} (h : 0 ≤ i) :
    (toString i).toList = Nat.toDigits 10 i.natAbs := by
  cases i with
  | ofNat n => exact toList_toString_ofNat n
  | negSucc n => exact absurd h (by omega)

theorem toList_toString_of_neg {i : Int} (h : i < 0) :
    (toString i).toList = '-' :: Nat.toDigits 10 i.natAbs := by
  cases i with
  | ofNat n => exact absurd h (Int.not_lt.mpr (Int.natCast_nonneg n))
  | negSucc n => exact toList_toString_negSucc n

theorem minus_lt_toDigits (cs : List Char) (n : Nat) : '-' :: cs < Nat.toDigits 10 n := by
  obtain ⟨d, ds, digits⟩ := List.exists_cons_of_ne_nil (Nat.toDigits_ne_nil (n := n) (b := 10))
  have digit : d.isDigit = true := by
    refine isDigit_of_mem_toDigits (n := n) ?_
    rw [digits]
    exact List.mem_cons_self
  rw [digits, List.cons_lt_cons_iff]
  simp only [Char.isDigit, Bool.and_eq_true, decide_eq_true_eq, UInt32.le_iff_toNat_le] at digit
  left
  rw [Char.lt_def, UInt32.lt_iff_toNat_lt]
  have nought : '0'.val.toNat = 48 := rfl
  have minus : '-'.val.toNat = 45 := rfl
  omega

theorem toString_inj {i k : Int} : toString i = toString k ↔ i = k := by
  refine ⟨fun same => ?_, congrArg _⟩
  have lists := congrArg String.toList same
  have apart : ∀ (m : Nat) (cs : List Char), '-' :: cs ≠ Nat.toDigits 10 m := fun m cs equal =>
    List.lt_irrefl _ (equal ▸ minus_lt_toDigits cs m)
  rcases Int.lt_or_le i 0 with hi | hi <;> rcases Int.lt_or_le k 0 with hk | hk
  · rw [toList_toString_of_neg hi, toList_toString_of_neg hk, List.cons.injEq, toDigits_inj] at lists
    omega
  · rw [toList_toString_of_neg hi, toList_toString_of_nonneg hk] at lists
    exact absurd lists (apart _ _)
  · rw [toList_toString_of_nonneg hi, toList_toString_of_neg hk] at lists
    exact absurd lists.symm (apart _ _)
  · rw [toList_toString_of_nonneg hi, toList_toString_of_nonneg hk, toDigits_inj] at lists
    omega

theorem toString_lt_iff {i k : Int} (h : i < k) : toString i < toString k ↔ InTextOrder i k := by
  rw [String.lt_iff]
  rcases Int.lt_or_le i 0 with hi | hi <;> rcases Int.lt_or_le k 0 with hk | hk
  · have less : k.natAbs < i.natAbs := by omega
    rw [toList_toString_of_neg hi, toList_toString_of_neg hk, List.cons_lt_cons_iff,
      toDigits_lt_iff_not_leads less, leads_comm, InTextOrder]
    grind
  · rw [toList_toString_of_neg hi, toList_toString_of_nonneg hk]
    exact iff_of_true (minus_lt_toDigits _ _) (Or.inr (Or.inl ⟨hi, hk⟩))
  · omega
  · have less : i.natAbs < k.natAbs := by omega
    rw [toList_toString_of_nonneg hi, toList_toString_of_nonneg hk, toDigits_lt_iff_leads less,
      InTextOrder]
    grind

theorem compare_toString_of_lt {i k : Int} (h : i < k) :
    Ord.compare (toString i) (toString k) = if InTextOrder i k then .lt else .gt := by
  have apart : toString i ≠ toString k := fun same => Int.ne_of_lt h (toString_inj.mp same)
  change compareOfLessAndEq _ _ = _
  rw [compareOfLessAndEq, if_neg apart]
  simp only [toString_lt_iff h]

/-- The order of decimal texts is that of the numbers or the one turned around. -/
theorem compare_toString (i k : Int) :
    Ord.compare (toString i) (toString k) =
      if InTextOrder i k then Ord.compare i k else (Ord.compare i k).swap := by
  rcases Int.lt_trichotomy i k with less | rfl | greater
  · rw [compare_toString_of_lt less, Int.compare_eq_lt.mpr less]
    rfl
  · have same : InTextOrder i i := Or.inl rfl
    rw [if_pos same, Std.compare_self, Std.compare_self]
  · rw [Std.OrientedOrd.eq_swap, compare_toString_of_lt greater, Int.compare_eq_gt.mpr greater,
      apply_ite Ordering.swap]
    simp only [inTextOrder_comm k i]
    rfl

end Number

end AddressBook
