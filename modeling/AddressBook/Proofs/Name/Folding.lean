import AddressBook.Proofs.Membership.Groups
import AddressBook.Proofs.Name.Abbreviated
import AddressBook.Proofs.Name.Nested
import AddressBook.Proofs.Text.Folding

/-! Stored names up to case. A label is made of letters that come from themselves and their capitals
alone, so a component is labelled in every case or in none. What a flat name refers to depends on its
label, and a name below an organization is what it is read as; names that are the same up to case refer
to the same. -/

namespace AddressBook.Name

open Text

/-- The text is the canonical rendering of some name. -/
def IsCanonical (s : String) : Prop := ∃ raw, canonicalize raw = .ok ⟨s⟩

/-! Labels. -/

theorem letter_of_label {s : String} {label : Label} (h : Label.ofText? s = some label) :
    ∀ c ∈ s.toList, c.toNat < 0x80 ∧ isSteady c.toLower = true := by
  have letters : (["CN", "OU", "O", "C"].all fun text => text.toList.all fun d =>
      [67, 78, 79, 85].contains d.toNat && isSteady (Char.ofNat (d.toNat + 32))) = true := by decide
  intro c hc
  have held : c.toUpper ∈ (asciiUpper s).toList := by
    rw [asciiUpper, String.toList_ofList]
    exact List.mem_map_of_mem hc
  have letter := List.all_eq_true.mp (List.all_eq_true.mp letters _ (asciiUpper_of_label h)) _ held
  rw [Bool.and_eq_true, List.contains_iff_mem] at letter
  obtain ⟨code, steady⟩ := letter
  have upper := toNat_toUpper c
  have lowered := toNat_toLower c
  simp only [List.mem_cons, List.not_mem_nil, or_false] at code
  have same : c.toUpper.toNat + 32 = c.toLower.toNat := by
    split at upper <;> split at lowered <;> omega
  rw [same, Char.ofNat_toNat] at steady
  exact ⟨by split at upper <;> omega, steady⟩

theorem ofText?_of_lower {s t : String} {label : Label} (h : Label.ofText? s = some label)
    (same : lower s = lower t) : Label.ofText? t = some label := by
  have letters := letter_of_label h
  have small : lowerChars s.toList = s.toList.map Char.toLower :=
    lowerAfter_of_ascii (fun c hc => (letters c hc).1) []
  have alike : lowerChars s.toList = lowerChars t.toList := String.ofList_injective same
  have steady : ∀ d ∈ lowerChars t.toList, isSteady d = true := by
    rw [← alike, small, List.forall_mem_map]
    exact fun c hc => (letters c hc).2
  have lowered : asciiLower t = asciiLower s := by
    rw [asciiLower, ← lowerAfter_eq_map steady]
    exact congrArg String.ofList (alike.symm.trans small)
  rw [← h, Label.ofText?, Label.ofText?, ← asciiUpper_asciiLower t, lowered, asciiUpper_asciiLower]

theorem labelled?_of_lower {s t value : String} {label : Label}
    (h : labelled? s = some (label, value)) (same : lower s = lower t) :
    ∃ value', labelled? t = some (label, value') ∧ lower value = lower value' := by
  obtain ⟨before, after, cut, named, rfl⟩ := labelled?_eq_some h
  obtain ⟨before', after', cut', opening, behind⟩ :=
    cutAtFirst_of_lower (String.ofList_injective same) cut
  have trimmed : ∀ {cs ds : List Char}, lowerChars cs = lowerChars ds →
      lower (trim (String.ofList cs)) = lower (trim (String.ofList ds)) := by
    intro cs ds alike
    rw [lower_trim, lower_trim, lower, lower, String.toList_ofList, String.toList_ofList, alike]
  exact ⟨_, labelled?_of_cut cut' (ofText?_of_lower named (trimmed opening)), trimmed behind⟩

/-! Flat names. -/

def unlabelled (part : String) : String :=
  match labelled? part with
  | some (.common, value) => if value.isEmpty then part else value
  | _ => part

theorem lower_unlabelled {s t : String} (h : lower s = lower t) :
    lower (unlabelled s) = lower (unlabelled t) := by
  have half : ∀ {s t value : String}, lower s = lower t → labelled? s = some (.common, value) →
      lower (unlabelled s) = lower (unlabelled t) := by
    intro s t value h labelled
    obtain ⟨value', labelled', same⟩ := labelled?_of_lower labelled h
    have solid : value.isEmpty = value'.isEmpty := by
      rw [Bool.eq_iff_iff, String.isEmpty_iff, String.isEmpty_iff, ← lower_eq_empty_iff, same,
        lower_eq_empty_iff]
    rw [unlabelled, unlabelled, labelled, labelled']
    dsimp only
    rw [solid]
    split
    · exact h
    · exact same
  by_cases named : ∃ value, labelled? s = some (.common, value)
  · exact half h named.choose_spec
  · by_cases named' : ∃ value, labelled? t = some (.common, value)
    · exact (half h.symm named'.choose_spec).symm
    · rw [unlabelled, unlabelled]
      split
      · next value found => exact absurd ⟨value, found⟩ named
      · split
        · next value found => exact absurd ⟨value, found⟩ named'
        · exact h

theorem ofComponents_common {part value : String} (h : labelled? part = some (.common, value))
    (solid : value ≠ "") : ofComponents [part] = .ok ⟨value, none⟩ := by
  simp [ofComponents, h, Draft.fill, solid, Draft.put, Draft.empty, Draft.finish, bind, Except.bind]

theorem refersTo_of_isPart {s : String} (h : IsPart s) (name : CanonicalName) :
    refersTo s name = (lower (unlabelled s) == name.folded) := by
  rw [refersTo]
  cases canonical : canonicalize s with
  | ok c =>
    obtain ⟨n, hread, rfl⟩ := canonicalize_ok_iff.mp canonical
    obtain ⟨formed, flat⟩ := read_ok hread
    have made := (ofComponents_of_read hread).2.1
    rw [h.trimmed, components_of_isPart h] at made flat
    have place := position_of_single made
    obtain ⟨part, single, source⟩ := flat place
    obtain rfl := List.singleton_inj.mp single
    have bare : unlabelled s = n.common := by
      rw [unlabelled]
      rcases source with ⟨none, same⟩ | labelled
      · rw [none, same]
      · rw [labelled]
        exact if_neg (by simpa using formed.common.solid)
    have flat : n.canonical = n.common := by rw [Name.canonical, place]
    dsimp only
    rw [CanonicalName.same, CanonicalName.folded, flat, bare]
  | error fault =>
    have bare : unlabelled s = s := by
      rw [unlabelled]
      split
      · next value labelled =>
        refine if_pos (Bool.of_not_eq_false fun solid => ?_)
        have whole : ∀ part ∈ [s], IsPart part := List.forall_mem_singleton.mpr h
        have readable : read s = .ok ⟨value, none⟩ :=
          read_of_components h.trimmed (components_of_isPart h) whole
            (ofComponents_common labelled (by simpa using solid)) (Nat.zero_le _)
        rw [canonicalize_ok_iff.mpr ⟨_, readable, rfl⟩] at canonical
        cases canonical
      · rfl
    dsimp only
    rw [h.trimmed, bare]

/-! Canonical names. -/

/-- A canonical name is a part, or it is read as itself and holds a slash. -/
theorem IsCanonical.cases {s : String} (h : IsCanonical s) :
    IsPart s ∨ '/' ∈ s.toList ∧ canonicalize s = .ok ⟨s⟩ := by
  obtain ⟨raw, h⟩ := h
  obtain ⟨n, hread, same⟩ := canonicalize_ok_iff.mp h
  cases same
  have formed := (read_ok hread).1
  cases position : n.position with
  | none =>
    rw [canonical, position]
    exact Or.inl formed.common
  | some p =>
    exact Or.inr ⟨slash_mem_canonical position,
      canonicalize_ok_iff.mpr ⟨n, read_canonical formed position, rfl⟩⟩

theorem refersTo_congr {s t : String} (hs : IsCanonical s) (ht : IsCanonical t)
    (h : sameName s t = true) (name : CanonicalName) : refersTo s name = refersTo t name := by
  have trimmed : ∀ {s : String}, IsCanonical s → trim s = s := fun h =>
    trim_of_canonicalize h.choose_spec
  rw [sameName_iff, trimmed hs, trimmed ht] at h
  have slash : '/' ∈ s.toList ↔ '/' ∈ t.toList := by
    rw [← mem_lower_iff (Or.inr rfl) [] s.toList, ← mem_lower_iff (Or.inr rfl) [] t.toList]
    exact iff_of_eq (congrArg _ (String.ofList_injective h))
  have apart : ∀ {s : String}, IsPart s → '/' ∉ s.toList := fun h there =>
    absurd (h.whole _ there) (by decide)
  rcases hs.cases with part | ⟨there, canonical⟩ <;> rcases ht.cases with part' | ⟨there', canonical'⟩
  · rw [refersTo_of_isPart part, refersTo_of_isPart part', lower_unlabelled h]
  · exact absurd (slash.mpr there') (apart part)
  · exact absurd (slash.mp there) (apart part')
  · rw [Membership.refersTo_of_canonical canonical, Membership.refersTo_of_canonical canonical', h]

theorem same_of_refersTo {stored : String} {a b : CanonicalName} (ha : refersTo stored a = true)
    (hb : refersTo stored b = true) : a.same b = true := by
  cases canonical : canonicalize stored with
  | ok c =>
    rw [refersTo, canonical] at ha hb
    exact beq_iff_eq.mpr ((eq_of_beq ha).symm.trans (eq_of_beq hb))
  | error fault =>
    rw [refersTo, canonical] at ha hb
    exact beq_iff_eq.mpr ((eq_of_beq ha).symm.trans (eq_of_beq hb))

end AddressBook.Name
