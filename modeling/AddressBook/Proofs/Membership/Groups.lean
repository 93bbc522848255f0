import AddressBook.Membership.Update
import AddressBook.Proofs.Directory.Store
import AddressBook.Proofs.Query.Meaning

/-! The groups that list a name. The query for them is written as text, read again and evaluated on
every group; what it finds and what then lists the name are all the groups that list it. -/

namespace AddressBook

namespace Note

/-- The members are texts, and each is the canonical rendering of itself. -/
def HasCanonicalMembers (n : Note) : Prop :=
  ∀ v ∈ (n.item? "Members").getD [], ∃ s, v = .text s ∧ Name.canonicalize s = .ok ⟨s⟩

def HasGroupForm (n : Note) : Prop := n.form? = some EntryClass.group.form

theorem mem_item?_of_form? {n : Note} {form : String} (h : n.form? = some form) :
    Value.text form ∈ (n.item? "Form").getD [] := by
  rw [form?, text?, Option.bind_eq_some_iff] at h
  obtain ⟨values, hv, found⟩ := h
  obtain ⟨v, hmem, htext⟩ := List.exists_of_findSome?_eq_some found
  cases v with
  | text s =>
    cases htext
    rw [hv]
    exact hmem
  | number x => cases htext
  | moment m => cases htext

theorem hasCanonicalMembers_of_item? {n : Note} {texts : List String}
    (h : n.item? "Members" = some (texts.map .text))
    (canonical : ∀ t ∈ texts, Name.canonicalize t = .ok ⟨t⟩) : n.HasCanonicalMembers := by
  intro v hv
  rw [h, Option.getD_some, List.mem_map] at hv
  obtain ⟨t, ht, rfl⟩ := hv
  exact ⟨t, rfl, canonical t ht⟩

theorem canonicalize_of_mem_members {n : Note} (h : n.HasCanonicalMembers) {s : String}
    (hs : s ∈ n.members) : Name.canonicalize s = .ok ⟨s⟩ := by
  rw [members, texts, List.mem_filterMap] at hs
  obtain ⟨v, hv, htext⟩ := hs
  obtain ⟨t, rfl, canonical⟩ := h v hv
  cases htext
  exact canonical

end Note

namespace Membership

open Formula

theorem refersTo_of_canonical {s : String} (h : Name.canonicalize s = .ok ⟨s⟩)
    (name : CanonicalName) : Name.refersTo s name = (Text.lower s == name.folded) := by
  rw [Name.refersTo, h]
  rfl

theorem hasMember_iff {n : Note} (h : n.HasCanonicalMembers) (name : CanonicalName) :
    n.hasMember name = true ↔ ∃ s ∈ n.members, Text.lower s = name.folded := by
  rw [Note.hasMember, List.any_eq_true]
  constructor
  · rintro ⟨s, hs, refers⟩
    rw [refersTo_of_canonical (n.canonicalize_of_mem_members h hs), beq_iff_eq] at refers
    exact ⟨s, hs, refers⟩
  · rintro ⟨s, hs, same⟩
    refine ⟨s, hs, ?_⟩
    rw [refersTo_of_canonical (n.canonicalize_of_mem_members h hs), beq_iff_eq, same]

def listing (member : CanonicalName) : Formula :=
  .compare .equal (.lowerCase (.field "Members")) (.literal [.text member.folded])

def listingField : Query.Field := ⟨"Members", true⟩

def listingTokens (member : CanonicalName) : List Token :=
  listingField.tokens ++ .comparison .equal :: [.text member.folded]

theorem derives_listing (member : CanonicalName) :
    Derives .disjunction (listingTokens member) (listing member) :=
  Query.disjunction_of_comparison
    (.compare .equal (.single listingField.derives) (.single (.text member.folded)))

theorem scans_equal_text {f : Query.Field} (hf : Text.isIdentifier f.name = true) (s : String)
    (rest : List Char) :
    Scans (f.write ++ " = " ++ Text.quote s).toList (f.tokens ++ .comparison .equal :: [.text s])
      rest := by
  have blank : ∀ rest, Scans [' '] [] rest := fun rest => scans_blank rfl
  have equal : ∀ rest, Scans ['='] [.comparison .equal] (' ' :: rest) :=
    fun rest => scans_mark rfl rfl
  have last := scans_quote s rest
  have sign : " = ".toList = [' ', '=', ' '] := rfl
  rw [String.toList_append, String.toList_append, sign]
  -- What is quoted does not matter in front of it.
  generalize (Text.quote s).toList = quoted at last ⊢
  have field : Scans f.write.toList f.tokens (' ' :: '=' :: ' ' :: (quoted ++ rest)) :=
    Query.Field.scans hf (by decide)
  have spaced : Scans (f.write.toList ++ [' ']) (f.tokens ++ []) ('=' :: ' ' :: (quoted ++ rest)) :=
    Scans.append field (blank _)
  have compared : Scans (f.write.toList ++ [' '] ++ ['=']) (f.tokens ++ [] ++ [.comparison .equal])
      (' ' :: (quoted ++ rest)) := Scans.append spaced (equal _)
  have before : Scans (f.write.toList ++ [' '] ++ ['='] ++ [' '])
      (f.tokens ++ [] ++ [.comparison .equal] ++ []) (quoted ++ rest) :=
    Scans.append compared (blank _)
  have whole := before.append last
  simpa only [List.append_assoc, List.cons_append, List.nil_append, List.append_nil] using whole

theorem read_queryFor (member : CanonicalName) :
    Formula.read (queryFor member) = .ok (.both (Query.formFormula .group) (listing member)) := by
  have written : "@LowerCase(Members) = " = listingField.write ++ " = " := by decide
  rw [queryFor, written]
  exact Query.read_confined_some .group (fun rest => scans_equal_text (by decide) _ _)
    (derives_listing member)

theorem holds_listing {n : Note} (h : n.HasCanonicalMembers) {member : CanonicalName}
    (hm : n.hasMember member = true) : (listing member).holds n = true := by
  obtain ⟨s, hs, same⟩ := (hasMember_iff h member).mp hm
  rw [Note.members, Note.texts, List.mem_filterMap] at hs
  obtain ⟨v, hv, htext⟩ := hs
  have held : Scalar.text s ∈ n.fieldValues "Members" := by
    have other : Text.sameAscii "Members" "NoteID" = false := by decide
    rw [Note.fieldValues, other, if_neg Bool.false_ne_true]
    cases v with
    | text t =>
      cases htext
      split
      · next none =>
        rw [none] at hv
        cases hv
      · exact List.mem_map.mpr ⟨.text s, hv, rfl⟩
    | number x => cases htext
    | moment m => cases htext
  rw [listing, holds_compare]
  simp only [Comparison.holds, values, List.any_eq_true, beq_iff_eq]
  refine ⟨(Scalar.text s).lowerCase, List.mem_map_of_mem held, .text member.folded,
    List.mem_singleton.mpr rfl, ?_⟩
  rw [Scalar.lowerCase, Scalar.order_text]
  exact same

theorem groupsOf_eq {s : Store} (hs : s.Faithful)
    (hg : ∀ g ∈ s.notesOf .group, g.HasGroupForm ∧ g.HasCanonicalMembers)
    (member : CanonicalName) :
    s.groupsOf member =
      s.checkReadable.map fun _ => (s.notesOf .group).filter (·.hasMember member) := by
  rw [Store.groupsOf, Store.search, read_queryFor]
  simp only [bind, Except.bind, Store.ofClass_eq hs]
  cases s.checkReadable with
  | error fault => rfl
  | ok u =>
    simp only [Except.map, pure, Except.pure, List.filter_filter, Except.ok.injEq]
    apply List.filter_congr
    intro g hmem
    obtain ⟨form, canonical⟩ := hg g hmem
    cases lists : g.hasMember member with
    | false => rfl
    | true =>
      rw [holds_both, (Query.holds_formFormula .group g).mpr (g.mem_item?_of_form? form),
        holds_listing canonical lists]
      rfl

theorem groupsOf_of_readable {s : Store} (hs : s.Faithful)
    (hg : ∀ g ∈ s.notesOf .group, g.HasGroupForm ∧ g.HasCanonicalMembers)
    (readable : s.checkReadable = .ok ()) (member : CanonicalName) :
    s.groupsOf member = .ok ((s.notesOf .group).filter (·.hasMember member)) := by
  rw [groupsOf_eq hs hg, readable]
  rfl

theorem groupsOf_ok {s : Store} {member : CanonicalName} {found : List Note} (hs : s.Faithful)
    (hg : ∀ g ∈ s.notesOf .group, g.HasGroupForm ∧ g.HasCanonicalMembers)
    (h : s.groupsOf member = .ok found) :
    found = (s.notesOf .group).filter (·.hasMember member) := by
  rw [groupsOf_eq hs hg] at h
  cases readable : s.checkReadable with
  | error fault =>
    rw [readable] at h
    cases h
  | ok u =>
    rw [readable] at h
    cases h
    rfl

end Membership

end AddressBook
