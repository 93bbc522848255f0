import AddressBook.Proofs.Text.Key
import AddressBook.Text.Lowercase
import AddressBook.Text.Quoted

/-! Text in lower case, piece by piece. Only the sigma looks around: to the last character before it,
and the first one behind it, that are not passed over. A quotation mark or a backslash is looked at and
is not cased, so a quoted text is lowered as if it stood alone, and its escapes stay as they are. -/

namespace AddressBook.Text

/-- Where a search for a cased character ends without one. -/
def isWall (c : Char) : Bool := !isCased c && !isCaseIgnorable c

@[simp]
theorem meetsCased_cons (c : Char) (cs : List Char) :
    meetsCased (c :: cs) = if isCaseIgnorable c then meetsCased cs else isCased c := by
  rw [meetsCased, List.dropWhile_cons]
  cases isCaseIgnorable c <;> rfl

theorem meetsCased_wall {w : Char} (h : isWall w = true) (cs : List Char) :
    meetsCased (w :: cs) = false := by
  rw [isWall, Bool.and_eq_true, Bool.not_eq_true', Bool.not_eq_true'] at h
  rw [meetsCased_cons, h.1, h.2, if_neg Bool.false_ne_true]

theorem meetsCased_append_wall {w : Char} (h : isWall w = true) (cs rest : List Char) :
    meetsCased (cs ++ w :: rest) = meetsCased cs := by
  induction cs with
  | nil => exact meetsCased_wall h rest
  | cons c cs ih => rw [List.cons_append, meetsCased_cons, meetsCased_cons, ih]

theorem lowerAfter_congr {before before' : List Char} (h : meetsCased before = meetsCased before')
    (cs : List Char) : lowerAfter before cs = lowerAfter before' cs := by
  induction cs generalizing before before' with
  | nil => rfl
  | cons c cs ih =>
    have next : meetsCased (c :: before) = meetsCased (c :: before') := by
      rw [meetsCased_cons, meetsCased_cons, h]
    rw [lowerAfter, lowerAfter, h, ih next]

theorem lowerAfter_of_not_meetsCased {before : List Char} (h : meetsCased before = false)
    (cs : List Char) : lowerAfter before cs = lowerChars cs := lowerAfter_congr h cs

theorem lowerAfter_cons_of_ne {c : Char} (h : c ≠ capitalSigma) (before cs : List Char) :
    lowerAfter before (c :: cs) = lowerChar c ++ lowerAfter (c :: before) cs := by
  rw [lowerAfter, if_neg (by simpa using h)]

theorem lowerAfter_append_wall {w : Char} (h : isWall w = true) (fixed : lowerChar w = [w])
    (before cs rest : List Char) :
    lowerAfter before (cs ++ w :: rest) = lowerAfter before cs ++ w :: lowerChars rest := by
  have other : w ≠ capitalSigma := by
    rintro rfl
    revert h
    decide
  induction cs generalizing before with
  | nil =>
    rw [List.nil_append, lowerAfter_cons_of_ne other, fixed,
      lowerAfter_of_not_meetsCased (meetsCased_wall h before)]
    rfl
  | cons c cs ih =>
    rw [List.cons_append, lowerAfter, lowerAfter, meetsCased_append_wall h, ih, List.append_assoc]

def isCaseless (c : Char) : Bool := c != capitalSigma && lowerChar c == [c]

theorem lowerAfter_caseless {cs : List Char} (h : ∀ c ∈ cs, isCaseless c = true)
    (before rest : List Char) :
    lowerAfter before (cs ++ rest) = cs ++ lowerAfter (cs.reverse ++ before) rest := by
  induction cs generalizing before with
  | nil => rfl
  | cons c cs ih =>
    obtain ⟨first, others⟩ := List.forall_mem_cons.mp h
    rw [isCaseless, Bool.and_eq_true, bne_iff_ne, beq_iff_eq] at first
    rw [List.cons_append, lowerAfter_cons_of_ne first.1, first.2, ih others, List.reverse_cons,
      List.append_assoc]
    rfl

theorem lt_of_mem_smallCounterparts : ∀ run ∈ CaseTable.smallCounterparts, 0x5C < run.2.2.2 := by
  decide +kernel

def isEscaped (c : Char) : Bool := c == '"' || c == '\\'

theorem isEscaped_iff (c : Char) : isEscaped c = true ↔ c.toNat = 0x22 ∨ c.toNat = 0x5C := by
  rw [isEscaped, Bool.or_eq_true, beq_iff_eq, beq_iff_eq, ← Char.toNat_inj, ← Char.toNat_inj]
  rfl

theorem not_isEscaped_ofNat {n : Nat} (h : 0x5C < n) : isEscaped (Char.ofNat n) = false := by
  rw [Bool.eq_false_iff, Ne, isEscaped_iff]
  delta Char.ofNat
  by_cases valid : n.isValidChar
  · rw [dif_pos valid]
    change ¬(n = 0x22 ∨ n = 0x5C)
    omega
  · rw [dif_neg valid]
    decide

theorem not_isEscaped_smallCounterpart {c d : Char} (h : smallCounterpart? c = some d) :
    isEscaped d = false := by
  obtain ⟨⟨first, count, step, target⟩, run, found⟩ := List.exists_of_findSome?_eq_some h
  dsimp only at found
  split at found
  · cases found
    exact not_isEscaped_ofNat (Nat.lt_add_right _ (lt_of_mem_smallCounterparts _ run))
  · cases found

theorem not_isEscaped_of_mem_lowerChar {c d : Char} (h : isEscaped c = false) (hd : d ∈ lowerChar c) :
    isEscaped d = false := by
  rw [lowerChar] at hd
  split at hd
  · obtain rfl := List.mem_singleton.mp hd
    rw [Bool.eq_false_iff, Ne, isEscaped_iff] at h ⊢
    have lowered := toNat_toLower c
    split at lowered <;> omega
  · split at hd
    · rcases List.mem_cons.mp hd with rfl | hd
      · decide
      · rw [List.mem_singleton.mp hd]
        exact not_isEscaped_ofNat (by decide)
    · obtain rfl := List.mem_singleton.mp hd
      cases small : smallCounterpart? c with
      | none => exact h
      | some d => exact not_isEscaped_smallCounterpart small

theorem isWall_of_isEscaped {c : Char} (h : isEscaped c = true) :
    isWall c = true ∧ isCaseless c = true := by
  rcases (Bool.or_eq_true _ _).mp h with h | h <;> cases eq_of_beq h <;> decide

@[simp]
theorem escapeChars_cons (c : Char) (cs : List Char) :
    escapeChars (c :: cs) = (if isEscaped c then ['\\', c] else [c]) ++ escapeChars cs := rfl

theorem escapeChars_append (cs rest : List Char) :
    escapeChars (cs ++ rest) = escapeChars cs ++ escapeChars rest := List.flatMap_append

theorem escapeChars_of_not_isEscaped {cs : List Char} (h : ∀ c ∈ cs, isEscaped c = false) :
    escapeChars cs = cs := by
  induction cs with
  | nil => rfl
  | cons c cs ih =>
    obtain ⟨first, others⟩ := List.forall_mem_cons.mp h
    rw [escapeChars_cons, first, ih others]
    rfl

theorem meetsCased_escapeChars (cs : List Char) : meetsCased (escapeChars cs) = meetsCased cs := by
  induction cs with
  | nil => rfl
  | cons c cs ih =>
    rw [escapeChars_cons]
    cases escaped : isEscaped c with
    | true =>
      have slash : isWall '\\' = true := by decide
      rw [meetsCased_wall (isWall_of_isEscaped escaped).1]
      exact meetsCased_wall slash _
    | false =>
      rw [meetsCased_cons, ← ih, ← meetsCased_cons]
      rfl

theorem lowerAfter_escapeChars {before before' : List Char}
    (h : meetsCased before = meetsCased before') (cs : List Char) :
    lowerAfter before (escapeChars cs) = escapeChars (lowerAfter before' cs) := by
  induction cs generalizing before before' with
  | nil => rfl
  | cons c cs ih =>
    rw [escapeChars_cons]
    cases escaped : isEscaped c with
    | true =>
      obtain ⟨wall, caseless⟩ := isWall_of_isEscaped escaped
      have both : ∀ e ∈ ['\\', c], isCaseless e = true :=
        List.forall_mem_cons.mpr ⟨by decide, List.forall_mem_singleton.mpr caseless⟩
      have alone : lowerAfter before' (c :: cs) = c :: lowerAfter (c :: before') cs :=
        lowerAfter_caseless (List.forall_mem_singleton.mpr caseless) before' cs
      have next : meetsCased (c :: '\\' :: before) = meetsCased (c :: before') := by
        rw [meetsCased_wall wall, meetsCased_wall wall]
      rw [if_pos rfl, lowerAfter_caseless both, alone, escapeChars_cons, escaped, if_pos rfl]
      exact congrArg _ (ih next)
    | false =>
      have next : meetsCased (c :: before) = meetsCased (c :: before') := by
        rw [meetsCased_cons, meetsCased_cons, h]
      have small : ∀ d ∈ (if c == capitalSigma then
          [if meetsCased before' && !meetsCased cs then finalSigma else smallSigma]
          else lowerChar c), isEscaped d = false := by
        split
        · refine List.forall_mem_singleton.mpr ?_
          split <;> decide
        · exact fun d hd => not_isEscaped_of_mem_lowerChar escaped hd
      rw [if_neg Bool.false_ne_true, List.singleton_append, lowerAfter, lowerAfter, h,
        meetsCased_escapeChars, escapeChars_append, escapeChars_of_not_isEscaped small, ih next]

theorem lowerAfter_quote (before : List Char) (s : String) (rest : List Char) :
    lowerAfter before ((quote s).toList ++ rest) = (quote (lower s)).toList ++ lowerChars rest := by
  have mark : isWall '"' = true ∧ isCaseless '"' = true := isWall_of_isEscaped rfl
  have fixed : lowerChar '"' = ['"'] := by decide
  have opened := lowerAfter_caseless (List.forall_mem_singleton.mpr mark.2) before
    (escapeChars s.toList ++ '"' :: rest)
  have inside : lowerAfter (['"'].reverse ++ before) (escapeChars s.toList) =
      escapeChars (lowerChars s.toList) :=
    lowerAfter_escapeChars (meetsCased_wall mark.1 before) s.toList
  rw [lowerAfter_append_wall mark.1 fixed, inside] at opened
  simpa [quote, lower] using opened

/-! Lengths. -/

def loweredWidth (c : Char) : Nat := if c == capitalSigma then 1 else (lowerChar c).length

theorem loweredWidth_pos (c : Char) : 0 < loweredWidth c := by
  rw [loweredWidth, lowerChar]
  split
  · exact Nat.one_pos
  · split
    · exact Nat.one_pos
    · split <;> simp

def loweredLength : List Char → Nat
  | [] => 0
  | c :: cs => loweredWidth c + loweredLength cs

theorem length_lowerAfter (before cs : List Char) :
    (lowerAfter before cs).length = loweredLength cs := by
  induction cs generalizing before with
  | nil => rfl
  | cons c cs ih =>
    rw [lowerAfter, List.length_append, ih, loweredLength, loweredWidth]
    split <;> rfl

theorem loweredLength_of_sublist {cs ds : List Char} (part : cs.Sublist ds) :
    loweredLength cs ≤ loweredLength ds ∧ (loweredLength cs = loweredLength ds → cs = ds) := by
  induction part with
  | slnil => exact ⟨Nat.le_refl _, fun _ => rfl⟩
  | cons d part ih =>
    have more := loweredWidth_pos d
    rw [loweredLength]
    exact ⟨by omega, fun h => by omega⟩
  | cons_cons c part ih =>
    rw [loweredLength, loweredLength]
    exact ⟨Nat.add_le_add_left ih.1 _, fun h => by rw [ih.2 (Nat.add_left_cancel h)]⟩

/-- A text with some characters left out is another one also in lower case. -/
theorem eq_of_lower_eq_of_sublist {s t : String} (part : s.toList.Sublist t.toList)
    (h : lower s = lower t) : s = t := by
  have widths : loweredLength s.toList = loweredLength t.toList := by
    rw [← length_lowerAfter [], ← length_lowerAfter []]
    exact congrArg List.length (String.ofList_injective h)
  exact String.toList_injective ((loweredLength_of_sublist part).2 widths)

end AddressBook.Text
