import AddressBook.Json.Printer
import AddressBook.Proofs.Number.Whole
import Mathlib.Data.List.TakeWhile

/-! The numbers that JSON writes as plain decimals: all whole ones, and the others unless they are so
large or so small that an exponent follows. In front of the exponent stands a decimal. -/

namespace AddressBook.Number

inductive IsDecimal : List Char → Prop where
  | whole {ds : List Char} : ds ≠ [] → (∀ d ∈ ds, d.isDigit = true) → IsDecimal ds
  | pointed {ds es : List Char} : ds ≠ [] → (∀ d ∈ ds, d.isDigit = true) →
      (∀ e ∈ es, e.isDigit = true) → IsDecimal (ds ++ '.' :: es)

inductive IsSigned : List Char → Prop where
  | positive {cs : List Char} : IsDecimal cs → IsSigned cs
  | negative {cs : List Char} : IsDecimal cs → IsSigned ('-' :: cs)

theorem IsDecimal.cons {cs : List Char} (h : IsDecimal cs) :
    ∃ d ds, cs = d :: ds ∧ d.isDigit = true ∧ ∀ e ∈ ds, (e.isDigit || e == '.') = true := by
  cases h with
  | whole nonempty digits =>
    obtain ⟨d, ds, rfl⟩ := List.exists_cons_of_ne_nil nonempty
    refine ⟨d, ds, rfl, digits d List.mem_cons_self, fun e he => ?_⟩
    rw [digits e (List.mem_cons_of_mem d he), Bool.true_or]
  | @pointed _ es nonempty digits places =>
    obtain ⟨d, ds, rfl⟩ := List.exists_cons_of_ne_nil nonempty
    refine ⟨d, ds ++ '.' :: es, rfl, digits d List.mem_cons_self, fun e he => ?_⟩
    rcases List.mem_append.mp he with he | he
    · rw [digits e (List.mem_cons_of_mem d he), Bool.true_or]
    · rcases List.mem_cons.mp he with rfl | he
      · rfl
      · rw [places e he, Bool.true_or]

theorem readUnsigned?_isDecimal (negative : Bool) {cs : List Char} (h : IsDecimal cs) :
    ∃ n, readUnsigned? negative cs = some n := by
  cases h with
  | whole nonempty digits => exact ⟨_, readUnsigned?_digits negative nonempty digits⟩
  | @pointed ds es nonempty digits places =>
    have taken : (ds ++ '.' :: es).takeWhile Char.isDigit = ds := by
      rw [List.takeWhile_append_of_pos digits, List.takeWhile_cons_of_neg (by decide),
        List.append_nil]
    have left : (ds ++ '.' :: es).dropWhile Char.isDigit = '.' :: es := by
      rw [List.dropWhile_append_of_pos digits, List.dropWhile_cons_of_neg (by decide)]
    have fraction : es.takeWhile Char.isDigit = es := List.takeWhile_eq_self_iff.mpr places
    have behind : es.dropWhile Char.isDigit = [] := List.dropWhile_eq_nil_iff.mpr places
    have full : ds.isEmpty = false := by simpa using nonempty
    simp [readUnsigned?, taken, left, fraction, behind, full, readExponent?]

theorem read?_isSigned {s : String} (h : IsSigned s.toList) : ∃ n, read? s = some n := by
  generalize written : s.toList = cs at h
  cases h with
  | positive decimal =>
    obtain ⟨d, ds, rfl, digit, -⟩ := decimal.cons
    have sign : takeSign s.toList = (false, d :: ds) := by
      rw [written]
      exact takeSign_of_isDigit digit
    rw [read?_of_takeSign sign digit]
    exact readUnsigned?_isDecimal false decimal
  | negative decimal =>
    obtain ⟨d, ds, rfl, digit, -⟩ := decimal.cons
    have sign : takeSign s.toList = (true, d :: ds) := by
      rw [written]
      rfl
    rw [read?_of_takeSign sign digit]
    exact readUnsigned?_isDecimal true decimal

theorem isDecimal_toDigits (n : Nat) : IsDecimal (Nat.toDigits 10 n) :=
  .whole Nat.toDigits_ne_nil fun _ h => isDigit_of_mem_toDigits h

theorem isSigned_toString (i : Int) : IsSigned (toString i).toList := by
  cases i with
  | ofNat n =>
    rw [show (toString (Int.ofNat n)).toList = Nat.toDigits 10 n from toList_toString_ofNat n]
    exact .positive (isDecimal_toDigits n)
  | negSucc n =>
    rw [toList_toString_negSucc]
    exact .negative (isDecimal_toDigits (n + 1))

theorem isDigit_of_mem_zeros {n : Nat} {c : Char} (h : c ∈ zeros n) : c.isDigit = true := by
  rw [List.eq_of_mem_replicate h]
  rfl

theorem isDigit_of_mem_nought : ∀ d ∈ ['0'], d.isDigit = true := List.forall_mem_singleton.mpr rfl

theorem isDecimal_withPoint (keepsPoint : Bool) {ds : List Char} (nonempty : ds ≠ [])
    (digits : ∀ d ∈ ds, d.isDigit = true) (before : Int) :
    IsDecimal (withPoint keepsPoint ds before) := by
  rw [withPoint]
  split
  · have places : ∀ e ∈ zeros (-before).toNat ++ ds, e.isDigit = true := by
      intro e he
      rcases List.mem_append.mp he with he | he
      · exact isDigit_of_mem_zeros he
      · exact digits e he
    exact .pointed (List.cons_ne_nil '0' []) isDigit_of_mem_nought places
  · split
    · refine .pointed ?_ (fun d hd => digits d (List.mem_of_mem_take hd))
        (fun e he => digits e (List.mem_of_mem_drop he))
      rw [Ne, List.take_eq_nil_iff, not_or]
      exact ⟨by omega, nonempty⟩
    · have filled : ∀ d ∈ ds ++ zeros (before.toNat - ds.length), d.isDigit = true := by
        intro d hd
        rcases List.mem_append.mp hd with hd | hd
        · exact digits d hd
        · exact isDigit_of_mem_zeros hd
      have full : ds ++ zeros (before.toNat - ds.length) ≠ [] := by simp [nonempty]
      cases keepsPoint with
      | false => simpa using IsDecimal.whole full filled
      | true => exact .pointed full filled isDigit_of_mem_nought

theorem withExponent_eq {ds : List Char} (nonempty : ds ≠ []) (digits : ∀ d ∈ ds, d.isDigit = true)
    (exponent : Int) : ∃ lead sign rest, withExponent true ds exponent = lead ++ 'e' :: sign :: rest ∧
      IsDecimal lead ∧ (sign = '-' ∨ sign = '+') ∧ ∀ d ∈ rest, d.isDigit = true := by
  obtain ⟨sign, marked, signed⟩ : ∃ sign : Char, (if exponent < 0 then ['-'] else ['+']) = [sign] ∧
      (sign = '-' ∨ sign = '+') := by
    split
    · exact ⟨'-', rfl, Or.inl rfl⟩
    · exact ⟨'+', rfl, Or.inr rfl⟩
  have places : ∀ d ∈ Nat.toDigits 10 exponent.natAbs, d.isDigit = true :=
    fun _ hd => isDigit_of_mem_toDigits hd
  obtain ⟨d, ds, rfl⟩ := List.exists_cons_of_ne_nil nonempty
  cases ds with
  | nil =>
    refine ⟨[d], sign, Nat.toDigits 10 exponent.natAbs, ?_, .whole nonempty digits, signed, places⟩
    simp [withExponent, marked]
  | cons e es =>
    have first : ∀ c ∈ [d], c.isDigit = true := fun c hc => digits c (by simp_all)
    refine ⟨[d] ++ '.' :: e :: es, sign, Nat.toDigits 10 exponent.natAbs, ?_,
      .pointed (List.cons_ne_nil d []) first fun c hc => digits c (List.mem_cons_of_mem d hc), signed,
      places⟩
    simp [withExponent, marked]

def leadingPlace (steps : Nat) : Int :=
  let decimal := shortest json.tie steps
  decimal.exponent + decimalLength decimal.coefficient - 1

/-- Whether the first digit of a number is too far from the point to be written with it. -/
def hasExponent : Number → Bool
  | .finite _ steps => steps != 0 && !json.positional (leadingPlace steps)
  | _ => false

theorem isDecimal_writeMagnitude {steps : Nat}
    (h : (steps != 0 && !json.positional (leadingPlace steps)) = false) :
    IsDecimal (writeMagnitude json steps) := by
  rw [writeMagnitude]
  split
  · exact .pointed (List.cons_ne_nil '0' []) isDigit_of_mem_nought isDigit_of_mem_nought
  · next positive =>
    have positional : json.positional (leadingPlace steps) = true := by simpa [positive] using h
    rw [leadingPlace, decimalLength] at positional
    dsimp only at positional ⊢
    rw [if_pos positional]
    exact isDecimal_withPoint _ Nat.toDigits_ne_nil (fun _ hd => isDigit_of_mem_toDigits hd) _

theorem writeMagnitude_eq {steps : Nat}
    (h : (steps != 0 && !json.positional (leadingPlace steps)) = true) :
    ∃ lead sign rest, writeMagnitude json steps = lead ++ 'e' :: sign :: rest ∧
      IsDecimal lead ∧ (sign = '-' ∨ sign = '+') ∧ ∀ d ∈ rest, d.isDigit = true := by
  rw [Bool.and_eq_true, bne_iff_ne, Bool.not_eq_true', leadingPlace, decimalLength] at h
  obtain ⟨positive, far⟩ := h
  rw [writeMagnitude, if_neg positive]
  dsimp only at far ⊢
  rw [if_neg (by rw [far]; exact Bool.false_ne_true)]
  exact withExponent_eq Nat.toDigits_ne_nil (fun _ hd => isDigit_of_mem_toDigits hd) _

theorem toList_compact_real {n : Number} (h : n.isFinite = true) :
    ∃ negative steps, n = .finite negative steps ∧
      (Json.real n).compact.toList =
        (if negative then ['-'] else []) ++ writeMagnitude json steps := by
  cases n with
  | nan => cases h
  | infinite negative => cases h
  | finite negative steps =>
    refine ⟨negative, steps, rfl, ?_⟩
    rw [Json.compact, Json.writeScalar, if_pos h, write, String.toList_ofList]
    all_goals simp

theorem isSigned_compact_real {n : Number} (finite : n.isFinite = true)
    (plain : n.hasExponent = false) : IsSigned (Json.real n).compact.toList := by
  obtain ⟨negative, steps, rfl, written⟩ := toList_compact_real finite
  have decimal := isDecimal_writeMagnitude plain
  rw [written]
  cases negative with
  | false => exact .positive decimal
  | true => exact .negative decimal

theorem compact_real_eq {n : Number} (h : n.hasExponent = true) :
    ∃ lead sign rest, (Json.real n).compact.toList = lead ++ 'e' :: sign :: rest ∧
      IsSigned lead ∧ (sign = '-' ∨ sign = '+') ∧ ∀ d ∈ rest, d.isDigit = true := by
  have finite : n.isFinite = true := by
    cases n with
    | finite negative steps => rfl
    | nan => cases h
    | infinite negative => cases h
  obtain ⟨negative, steps, rfl, written⟩ := toList_compact_real finite
  obtain ⟨lead, sign, rest, magnitude, decimal, signed⟩ := writeMagnitude_eq h
  rw [written, magnitude]
  cases negative with
  | false => exact ⟨lead, sign, rest, rfl, .positive decimal, signed⟩
  | true => exact ⟨'-' :: lead, sign, rest, rfl, .negative decimal, signed⟩

def isNumeric (c : Char) : Bool := c.isDigit || ['-', '+', '.', 'e'].contains c

theorem IsSigned.isNumeric {cs : List Char} (h : IsSigned cs) : ∀ c ∈ cs, isNumeric c = true := by
  have decimal : ∀ {ds : List Char}, IsDecimal ds → ∀ c ∈ ds, Number.isNumeric c = true := by
    intro ds h c hc
    obtain ⟨d, rest, rfl, first, others⟩ := h.cons
    rcases List.mem_cons.mp hc with rfl | hc
    · rw [Number.isNumeric, first, Bool.true_or]
    · rcases (Bool.or_eq_true _ _).mp (others c hc) with digit | point
      · rw [Number.isNumeric, digit, Bool.true_or]
      · rw [eq_of_beq point]
        decide
  cases h with
  | positive h => exact decimal h
  | negative h => exact List.forall_mem_cons.mpr ⟨by decide, decimal h⟩

theorem isNumeric_of_mem_compact {n : Number} (finite : n.isFinite = true) :
    ∀ c ∈ (Json.real n).compact.toList, isNumeric c = true := by
  cases exponent : n.hasExponent with
  | false => exact (isSigned_compact_real finite exponent).isNumeric
  | true =>
    obtain ⟨lead, sign, rest, written, signed, either, digits⟩ := compact_real_eq exponent
    have behind : ∀ c ∈ rest, isNumeric c = true := by
      intro c hc
      rw [isNumeric, digits c hc, Bool.true_or]
    rw [written]
    refine List.forall_mem_append.mpr ⟨signed.isNumeric, List.forall_mem_cons.mpr ⟨by decide, ?_⟩⟩
    refine List.forall_mem_cons.mpr ⟨?_, behind⟩
    rcases either with rfl | rfl <;> decide

end AddressBook.Number
