import AddressBook.Proofs.Name.Canonical
import AddressBook.Proofs.Text.Collapsing

/-! Names whose canonical rendering is not the one of itself: a single component with the label of
common names, the value of which starts with a label. Blanks have no part in this. -/

namespace AddressBook

/-- A canonical name that is the canonical rendering of itself. -/
def CanonicalName.Settled (name : CanonicalName) : Prop := Name.canonicalize name.text = .ok name

namespace Name

open Text

def isNested (raw : String) : Bool :=
  match components (trim raw) with
  | [part] =>
    match labelled? part with
    | some (.common, value) => (labelled? value).isSome
    | _ => false
  | _ => false

/-- The canonical rendering of a name is the one of itself, unless the name was nested. -/
theorem settled_of_canonicalize {raw : String} {c : CanonicalName} (h : canonicalize raw = .ok c)
    (hn : isNested raw = false) : c.Settled := by
  obtain ⟨n, hread, rfl⟩ := canonicalize_ok_iff.mp h
  refine canonicalize_ok_iff.mpr ⟨n, ?_, rfl⟩
  obtain ⟨formed, flat⟩ := read_ok hread
  cases position : n.position with
  | some p => exact read_canonical formed position
  | none =>
    obtain ⟨part, single, source⟩ := flat position
    have bare : labelled? n.common = none := by
      rcases source with ⟨bare, same⟩ | labelled
      · rw [same, bare]
      · rw [isNested, single] at hn
        simpa [labelled] using hn
    have alone : n = ⟨n.common, none⟩ := by
      rw [← position]
    rw [alone]
    exact read_flat formed.common bare

theorem length_lt_of_labelled? {part value : String} {label : Label}
    (h : labelled? part = some (label, value)) : value.length < part.length := by
  obtain ⟨before, after, cut, -, rfl⟩ := labelled?_eq_some h
  have kept : (trimChars after).length ≤ after.length :=
    Nat.le_trans (dropEndBlanks_isPrefixOf _).length_le (List.dropWhile_sublist isBlank).length_le
  have whole := congrArg List.length (cutAtFirst_eq_some_iff.mp cut).1
  rw [List.length_append, List.length_cons] at whole
  rw [← String.length_toList, ← String.length_toList, toList_trim, String.toList_ofList]
  omega

theorem canonicalize_of_isNested {raw : String} {c : CanonicalName}
    (h : canonicalize raw = .ok c) (nested : isNested raw = true) :
    IsPart c.text ∧ (labelled? c.text).isSome = true := by
  obtain ⟨n, hread, rfl⟩ := canonicalize_ok_iff.mp h
  obtain ⟨parts, found, -⟩ := ofComponents_of_read hread
  rw [isNested] at nested
  split at nested
  · next part single =>
    split at nested
    · next value labelled =>
      rw [single] at parts found
      have filled : ofComponents [part] = (if value.isEmpty then .error .emptyComponent
          else .ok ⟨value, none⟩) := by
        have one : [part].filterMap labelled? = [(Label.common, value)] := by
          rw [List.filterMap_cons_some labelled]
          rfl
        rw [ofComponents, one]
        simp only [List.length_singleton, beq_self_eq_true, if_true, Draft.fill, Option.map_none,
          Option.getD_none]
        cases value.isEmpty <;> rfl
      rw [filled] at found
      split at found
      · cases found
      · next solid =>
        cases found
        have whole := parts part List.mem_cons_self
        have solid : value ≠ "" := by simpa using solid
        exact ⟨isPart_of_labelled? whole labelled solid, nested⟩
    · cases nested
  · cases nested

/-- A canonical name is the canonical rendering of itself if and only if the name was not nested. -/
theorem settled_canonicalize_iff {raw : String} {c : CanonicalName} (h : canonicalize raw = .ok c) :
    c.Settled ↔ isNested raw = false := by
  refine ⟨fun settled => Bool.eq_false_iff.mpr fun nested => ?_, settled_of_canonicalize h⟩
  obtain ⟨part, labelled⟩ := canonicalize_of_isNested h nested
  obtain ⟨n, hread, same⟩ := canonicalize_ok_iff.mp settled
  have rendered : n.canonical = c.text := (congrArg CanonicalName.text same).symm
  cases position : n.position with
  | some p =>
    have slash := slash_mem_canonical position
    rw [rendered] at slash
    exact absurd (part.whole '/' slash) (by decide)
  | none =>
    obtain ⟨only, single, source⟩ := (read_ok hread).2 position
    rw [part.trimmed, components_of_isPart part, List.singleton_inj] at single
    subst single
    rcases source with ⟨bare, -⟩ | again
    · rw [bare] at labelled
      cases labelled
    · have shorter := length_lt_of_labelled? again
      rw [← rendered, canonical, position] at shorter
      exact Nat.lt_irrefl _ shorter

/-- Without its label the value of a nested name is read again, and this one lacks a common name. -/
theorem not_always_settled : ¬ ∀ raw c, canonicalize raw = .ok c → c.Settled := by
  intro settled
  have again : canonicalize "OU=Staff" = .ok ⟨"OU=Staff"⟩ := settled "CN=OU=Staff" _ rfl
  cases again

theorem settled_canonicalize_iff_sample :
    canonicalize "Ann Lee/Acme" = .ok ⟨"CN=Ann Lee/O=Acme"⟩ ∧
      (CanonicalName.Settled ⟨"CN=Ann Lee/O=Acme"⟩ ↔ isNested "Ann Lee/Acme" = false) :=
  ⟨rfl, settled_canonicalize_iff rfl⟩

/-! Blanks. -/

theorem asciiUpper_of_label {s : String} {label : Label} (h : Label.ofText? s = some label) :
    asciiUpper s ∈ ["CN", "OU", "O", "C"] := by
  rw [Label.ofText?] at h
  split at h <;> simp_all

theorem isBlank_of_label {s : String} {label : Label} (h : Label.ofText? s = some label) :
    ∀ c ∈ s.toList, isBlank c = false := by
  intro c hc
  rw [Bool.eq_false_iff]
  intro blank
  have upper : c.toUpper = c := by
    delta Char.toUpper
    rw [dif_neg]
    intro small
    simp only [isBlank, Bool.or_eq_true, Bool.and_eq_true, decide_eq_true_eq, beq_iff_eq] at blank
    have bounds : 97 ≤ c.toNat ∧ c.toNat ≤ 122 :=
      ⟨UInt32.le_iff_toNat_le.mp small.1, UInt32.le_iff_toNat_le.mp small.2⟩
    omega
  have held : c ∈ (asciiUpper s).toList := by
    rw [asciiUpper, String.toList_ofList, ← upper]
    exact List.mem_map_of_mem hc
  have solid : ∀ text ∈ ["CN", "OU", "O", "C"], text.toList.any isBlank = false := by decide
  exact List.any_eq_false.mp (solid _ (asciiUpper_of_label h)) c held blank

theorem isBlank_equals : isBlank '=' = false := by decide

theorem trim_ofList {cs ds : List Char} (h : trimChars cs = trimChars ds) :
    trim (String.ofList cs) = trim (String.ofList ds) := by
  rw [trim, trim, String.toList_ofList, String.toList_ofList, h]

theorem labelled?_trim {s value : String} {label : Label}
    (h : labelled? s = some (label, value)) : labelled? (trim s) = some (label, value) := by
  obtain ⟨before, after, cut, hl, rfl⟩ := labelled?_eq_some h
  obtain ⟨whole, free⟩ := cutAtFirst_eq_some_iff.mp cut
  have trimmed : cutAtFirst '=' (trim s).toList =
      some (before.dropWhile isBlank, dropEndBlanks after) := by
    refine cutAtFirst_eq_some_iff.mpr ⟨?_, fun hmem => ?_⟩
    · rw [toList_trim, whole, trimChars_append_cons isBlank_equals]
    · exact free ((List.dropWhile_sublist isBlank).subset hmem)
  rw [← trim_ofList (trimChars_dropWhile before)] at hl
  rw [labelled?_of_cut trimmed hl, trim_ofList (trimChars_dropEndBlanks after)]

theorem labelled?_of_collapseBlanks {s value : String} {label : Label}
    (h : labelled? (collapseBlanks s) = some (label, value)) :
    ∃ rest, labelled? s = some (label, trim rest) ∧ value = collapseBlanks rest := by
  obtain ⟨before', after', cut', hl, rfl⟩ := labelled?_eq_some h
  rw [toList_collapseBlanks] at cut'
  cases cut : cutAtFirst '=' s.toList with
  | none =>
    have held : '=' ∈ collapseChars s.toList := by
      rw [(cutAtFirst_eq_some_iff.mp cut').1]
      exact List.mem_append_right _ List.mem_cons_self
    exact absurd ((mem_collapseChars isBlank_equals _).mp held) (cutAtFirst_eq_none cut)
  | some pieces =>
    obtain ⟨before, after⟩ := pieces
    obtain ⟨first, last, cut₂, ends, behind⟩ := cutAtFirst_collapseChars isBlank_equals cut
    rw [cut', Option.some.injEq, Prod.mk.injEq] at cut₂
    obtain ⟨rfl, rfl⟩ := cut₂
    have opening : trimChars before' = collapseChars before := by
      rw [← trimChars_dropEndBlanks, ends, trimChars_collapseChars]
    have word : collapseChars before = trimChars before := by
      refine collapseChars_eq_trimChars fun c hc => isBlank_of_label hl c ?_
      rw [toList_trim, String.toList_ofList, opening]
      exact hc
    rw [trim_ofList (opening.trans word)] at hl
    refine ⟨String.ofList after, labelled?_of_cut cut hl, ?_⟩
    apply String.toList_injective
    rw [toList_trim, toList_collapseBlanks, String.toList_ofList, String.toList_ofList, behind]

theorem isNested_iff {raw : String} :
    isNested raw = true ↔ (∀ c ∈ (trim raw).toList, (c == '/') = false) ∧
      ∃ value, labelled? (trim raw) = some (.common, value) ∧ (labelled? value).isSome = true := by
  constructor
  · intro h
    rw [isNested] at h
    split at h
    · next part single =>
      rw [components, List.map_eq_singleton_iff] at single
      obtain ⟨piece, cut, rfl⟩ := single
      obtain ⟨rfl, whole⟩ := splitOn_eq_singleton cut
      rw [trim_trim] at h
      refine ⟨whole, ?_⟩
      split at h
      · next value found => exact ⟨value, found, h⟩
      · cases h
    · cases h
  · rintro ⟨whole, value, found, again⟩
    have single : components (trim raw) = [trim raw] := by
      rw [components, splitOn_of_forall whole, List.map_singleton, trim_trim]
    simp [isNested, single, found, again]

theorem isNested_of_collapseBlanks {raw : String} (h : isNested (collapseBlanks raw) = true) :
    isNested raw = true := by
  have trimmed := trim_collapseBlanks raw
  obtain ⟨whole, value, found, again⟩ := isNested_iff.mp h
  rw [trimmed] at whole found
  refine isNested_iff.mpr ⟨fun c hc => ?_, ?_⟩
  · rw [toList_trim] at hc
    cases slash : c == '/' with
    | false => rfl
    | true =>
      rw [beq_iff_eq] at slash
      subst slash
      have held : '/' ∈ (collapseBlanks raw).toList := by
        rw [toList_collapseBlanks, mem_collapseChars (by decide)]
        exact trimChars_subset _ hc
      exact absurd (whole '/' held) (by decide)
  · obtain ⟨rest, labelled, rfl⟩ := labelled?_of_collapseBlanks found
    obtain ⟨⟨label, inner⟩, starts⟩ := Option.isSome_iff_exists.mp again
    obtain ⟨last, below, _⟩ := labelled?_of_collapseBlanks starts
    refine ⟨trim rest, labelled?_trim labelled, ?_⟩
    rw [labelled?_trim below]
    rfl

end Name

end AddressBook
