import AddressBook.Proofs.Text.Same

/-! Keys of a table. A key without NUL is compared as any text is, up to the case of ASCII letters; of two
keys without small letters none is the other up to case. -/

namespace AddressBook.Text

/-- Ids of which no two are the same up to case, and which a table compares up to case. -/
structure KeysApart (K : String → Prop) : Prop where
  distinct : ∀ a b, K a → K b → sameAscii a b = true → a = b
  compared : ∀ a, K a → ∀ text, sameKey a text = sameAscii a text

theorem utf8Size_toLower (c : Char) : c.toLower.utf8Size = c.utf8Size := by
  have size : ∀ d : Char, d.toNat ≤ 127 → d.utf8Size = 1 := by
    intro d hd
    rw [Char.utf8Size, if_pos]
    exact UInt32.le_iff_toNat_le.mpr hd
  have lowered := toNat_toLower c
  split at lowered
  · rw [size c.toLower (by omega), size c (by omega)]
  · rw [Char.toNat_inj.mp lowered]

theorem utf8ByteSize_of_map_toLower {as bs : List Char}
    (h : as.map Char.toLower = bs.map Char.toLower) :
    (String.ofList as).utf8ByteSize = (String.ofList bs).utf8ByteSize := by
  induction as generalizing bs with
  | nil => rw [List.map_eq_nil_iff.mp h.symm]
  | cons a as ih =>
    cases bs with
    | nil => cases h
    | cons b bs =>
      rw [List.map_cons, List.map_cons, List.cons.injEq] at h
      have first : a.utf8Size = b.utf8Size := by
        rw [← utf8Size_toLower a, h.1, utf8Size_toLower]
      rw [String.ofList_cons, String.ofList_cons, String.utf8ByteSize_append,
        String.utf8ByteSize_append, String.utf8ByteSize_singleton, String.utf8ByteSize_singleton,
        first, ih h.2]

theorem takeWhile_nul {cs : List Char} (h : ∀ c ∈ cs, c.toNat ≠ 0) :
    (cs.takeWhile fun c => c.toNat != 0) = cs := by
  rw [← List.append_nil cs, List.takeWhile_append_of_pos fun c hc => by simpa using h c hc,
    List.takeWhile_nil]

theorem beforeNul_eq_of_size {text : String}
    (h : (String.ofList (beforeNul text)).utf8ByteSize = text.utf8ByteSize) :
    beforeNul text = text.toList := by
  have parts := List.takeWhile_append_dropWhile (p := fun c : Char => c.toNat != 0) (l := text.toList)
  have whole : text.utf8ByteSize = (String.ofList (beforeNul text)).utf8ByteSize +
      (String.ofList (text.toList.dropWhile fun c => c.toNat != 0)).utf8ByteSize := by
    rw [← String.utf8ByteSize_append, ← String.ofList_append, beforeNul, parts, String.ofList_toList]
  have rest : (String.ofList (text.toList.dropWhile fun c => c.toNat != 0)).utf8ByteSize = 0 := by
    omega
  have none : (text.toList.dropWhile fun c => c.toNat != 0) = [] := by
    rw [String.utf8ByteSize_eq_zero_iff] at rest
    rw [← String.toList_ofList (l := text.toList.dropWhile _), rest]
    rfl
  rw [none, List.append_nil] at parts
  exact parts

theorem sameKey_eq_sameAscii {key : String} (h : ∀ c ∈ key.toList, c.toNat ≠ 0) (text : String) :
    sameKey key text = sameAscii key text := by
  have lowered : sameAscii key text = true ↔
      key.toList.map Char.toLower = text.toList.map Char.toLower := by
    rw [sameAscii_iff, asciiLower, asciiLower, String.ofList_inj]
  have kept : beforeNul key = key.toList := takeWhile_nul h
  rw [Bool.eq_iff_iff, sameKey, kept, Bool.and_eq_true, beq_iff_eq, beq_iff_eq, lowered]
  constructor
  · rintro ⟨size, same⟩
    have whole : beforeNul text = text.toList := beforeNul_eq_of_size <| by
      rw [← size, ← utf8ByteSize_of_map_toLower same, String.ofList_toList]
    rw [← whole]
    exact same
  · intro same
    have clear : ∀ c ∈ text.toList, c.toNat ≠ 0 := by
      intro c hc nul
      have held : c.toLower ∈ key.toList.map Char.toLower := by
        rw [same]
        exact List.mem_map_of_mem hc
      obtain ⟨d, hd, lower⟩ := List.mem_map.mp held
      have left := toNat_toLower d
      have there := h d hd
      rw [lower, toNat_toLower, nul, if_neg (by omega)] at left
      split at left <;> omega
    refine ⟨?_, by rw [beforeNul, takeWhile_nul clear, same]⟩
    rw [← String.ofList_toList (s := key), ← String.ofList_toList (s := text)]
    exact utf8ByteSize_of_map_toLower same

/-- Ids of capital letters and digits are told apart. -/
theorem keysApart_of_capitals {K : String → Prop}
    (h : ∀ id, K id → ∀ c ∈ id.toList, 48 ≤ c.toNat ∧ c.toNat ≤ 90) : KeysApart K where
  distinct a b ha hb same := by
    rw [sameAscii_iff, asciiLower, asciiLower, String.ofList_inj] at same
    rw [← String.toList_inj]
    have left := h a ha
    have right := h b hb
    generalize a.toList = as at same left
    generalize b.toList = bs at same right
    induction as generalizing bs with
    | nil => rw [List.map_eq_nil_iff.mp same.symm]
    | cons c as ih =>
      cases bs with
      | nil => cases same
      | cons d bs =>
        rw [List.map_cons, List.map_cons, List.cons.injEq] at same
        have first : c = d := by
          have lower := congrArg Char.toNat same.1
          rw [toNat_toLower, toNat_toLower] at lower
          have hc := left c List.mem_cons_self
          have hd := right d List.mem_cons_self
          refine Char.toNat_inj.mp ?_
          split at lower <;> split at lower <;> omega
        rw [first, ih (fun e he => left e (List.mem_cons_of_mem c he)) bs same.2
          fun e he => right e (List.mem_cons_of_mem d he)]
  compared id hid text := sameKey_eq_sameAscii (fun c hc => by have := h id hid c hc; omega) text

end AddressBook.Text
