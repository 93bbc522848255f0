import AddressBook.Proofs.Name.Abbreviated
import AddressBook.Proofs.Provisioning.Reading
import AddressBook.Proofs.Query.Meaning
import AddressBook.Proofs.Text.Lowering

/-! Searching for names as they are shown. Members and mail servers are stored in full, shown
abbreviated, and compared with what a filter gives as it was given; so a shown name finds its note
where it is shown as it is stored. -/

namespace AddressBook

def EntryClass.namesItem : EntryClass → String
  | .account => "MailServer"
  | .group => "Members"

/-- Whether texts are equal as a search on a field compares them. -/
def SearchRules.Agree (rules : SearchRules) (field a b : String) : Prop :=
  if rules.isExact field then a = b else Text.lower a = Text.lower b

instance (rules : SearchRules) (field a b : String) : Decidable (rules.Agree field a b) := by
  unfold SearchRules.Agree
  infer_instance

theorem SearchRules.Agree.refl (rules : SearchRules) (field a : String) : rules.Agree field a a := by
  rw [SearchRules.Agree]
  split <;> rfl

theorem SearchRules.Agree.sameName {rules : SearchRules} {field a b : String}
    (h : rules.Agree field a b) (ha : Text.trim a = a) (hb : Text.trim b = b) :
    Text.sameName a b = true := by
  rw [Text.sameName_iff, ha, hb]
  rw [SearchRules.Agree] at h
  split at h
  · rw [h]
  · exact h

namespace Entry

variable {kind : EntryClass} {n : Note}

theorem valuesOf_namesItem (n : Note) :
    valuesOf kind n kind.namesItem =
      ((n.item? kind.namesItem).getD []).map fun value =>
        .text (shownText kind.namesItem value.shown) := by
  have known : ∃ a, Schema.find? kind kind.namesItem = some a ∧ a.readable = true ∧
      a.type = .text := by
    cases kind <;> exact ⟨_, rfl, rfl, rfl⟩
  obtain ⟨a, known, readable, text⟩ := known
  exact valuesOf_textual known readable text (by cases kind <;> decide) (by cases kind <;> decide) n

theorem exists_of_mem_texts {selection : Selection} {e : Entry}
    (made : ofNote kind n selection = .ok e) {v : String} (read : v ∈ e.texts kind.namesItem) :
    ∃ value ∈ (n.item? kind.namesItem).getD [], shownText kind.namesItem value.shown = v := by
  have header : kind.namesItem ∉ headerNames := by cases kind <;> decide
  rw [texts] at read
  obtain ⟨value, hv, hread⟩ := List.mem_filterMap.mp read
  cases found : e.get? kind.namesItem with
  | none =>
    rw [found] at hv
    cases hv
  | some values =>
    rw [found, Option.getD_some, get?_ofNote made header found, valuesOf_namesItem] at hv
    obtain ⟨stored, held, rfl⟩ := List.mem_map.mp hv
    exact ⟨stored, held, Option.some.inj hread⟩

theorem sublist_shownText {raw item : String} {c : CanonicalName}
    (h : Name.canonicalize raw = .ok c) :
    (shownText item c.text).toList.Sublist c.text.toList := by
  rw [shownText]
  split
  · split
    · next short made => exact Name.sublist_of_abbreviate h made
    · exact List.Sublist.refl _
  · exact List.Sublist.refl _

end Entry

namespace Query

open AddressBook.Filter

variable {rules : SearchRules} {kind : EntryClass} {n : Note}

theorem hasEqual_texts {field v : String} {stored : List String}
    (plain : Text.sameAscii field "NoteID" = false) (holds : n.item? field = some (stored.map .text))
    (some : stored ≠ []) :
    hasEqual rules field n [.text v] = true ↔ ∃ t ∈ stored, rules.Agree field t v := by
  have values : n.fieldValues field = stored.map Scalar.text := by
    rw [Note.fieldValues, plain, if_neg Bool.false_ne_true, holds, Option.getD_some]
    cases stored with
    | nil => exact absurd rfl some
    | cons t stored => simp [Scalar.ofValue, Function.comp_def]
  rw [hasEqual, sides, values]
  cases exact : rules.isExact field with
  | true => simp [SearchRules.Agree, exact, Scalar.isText, Scalar.order_text]
  | false =>
    simp [SearchRules.Agree, exact, Scalar.isText, Scalar.lowerCase, Scalar.order_text]

theorem fieldName_namesItem (kind : EntryClass) : fieldName kind kind.namesItem = kind.namesItem := by
  cases kind <;> rfl

theorem storedForm_namesItem (kind : EntryClass) (v : String) :
    storedForm kind kind.namesItem v = .ok v := by
  cases kind <;> rfl

theorem agree_shownText_iff {raw item : String} {c : CanonicalName}
    (h : Name.canonicalize raw = .ok c) :
    rules.Agree item c.text (Entry.shownText item c.text) ↔ Entry.shownText item c.text = c.text := by
  rw [SearchRules.Agree]
  split
  · exact eq_comm
  · constructor
    · intro same
      exact Text.eq_of_lower_eq_of_sublist (Entry.sublist_shownText h) same.symm
    · intro same
      rw [same]

/-- What the names of others are compared with is the text that was given. -/
def namesQuery (rules : SearchRules) (kind : EntryClass) (v : String) : Query :=
  equalityOf rules false kind.namesItem [.text v]

theorem ofFilter_namesItem (rules : SearchRules) (kind : EntryClass) (v : String) :
    ofFilter rules kind (.equals kind.namesItem [.text v]) = .ok (some (namesQuery rules kind v)) := by
  rw [ofFilter, compile, literals, literals, literal?, if_neg Bool.false_ne_true,
    storedForm_namesItem, fieldName_namesItem]
  rfl

theorem read_namesQuery (rules : SearchRules) (kind : EntryClass) (v : String) :
    Formula.read (confined kind (some (namesQuery rules kind v).write)) =
      .ok (confinedFormula kind (some (namesQuery rules kind v))) := by
  have readable : ∀ q ∈ some (namesQuery rules kind v), q.Readable := by
    intro q hq
    obtain rfl := Option.mem_some_iff.mp hq
    refine readable_equalityOf (by cases kind <;> decide) (List.cons_ne_nil _ _) fun l hl => ?_
    rw [List.mem_singleton.mp hl]
    trivial
  have taken := read_confined kind readable
  rwa [Option.map_some] at taken

theorem holds_namesQuery {stored : List String} {v : String}
    (holds : n.item? kind.namesItem = some (stored.map .text)) (solid : stored ≠ []) :
    (confinedFormula kind (some (namesQuery rules kind v))).holds n = true ↔
      Note.Value.text kind.form ∈ (n.item? "Form").getD [] ∧
        ∃ t ∈ stored, rules.Agree kind.namesItem t v := by
  have plain : Text.sameAscii kind.namesItem "NoteID" = false := by cases kind <;> decide
  rw [confinedFormula, Formula.holds_both, Bool.and_eq_true, holds_formFormula, namesQuery,
    holds_equalityOf, Bool.false_xor]
  exact and_congr_right fun _ => hasEqual_texts plain holds solid

/-- A name that was read finds its note when the note has the form of the class and a stored name
agrees with the text that was read; the name that the text stands for does so if and only if it is
shown as it is stored. -/
theorem holds_shown_iff {stored : List String}
    (holds : n.item? kind.namesItem = some (stored.map .text))
    (canonical : ∀ t ∈ stored, ∃ raw, Name.canonicalize raw = .ok ⟨t⟩) {selection : Selection}
    {e : Entry} (made : Entry.ofNote kind n selection = .ok e) {v : String}
    (read : v ∈ e.texts kind.namesItem) :
    ∃ q formula, ofFilter rules kind (.equals kind.namesItem [.text v]) = .ok (some q) ∧
      Formula.read (confined kind (some q.write)) = .ok formula ∧
      (formula.holds n = true ↔ Note.Value.text kind.form ∈ (n.item? "Form").getD [] ∧
        ∃ t ∈ stored, rules.Agree kind.namesItem t v) ∧
      ∃ t ∈ stored, Entry.shownText kind.namesItem t = v ∧
        (rules.Agree kind.namesItem t v ↔ v = t) := by
  obtain ⟨value, held, shown⟩ := Entry.exists_of_mem_texts made read
  rw [holds, Option.getD_some] at held
  obtain ⟨own, owned, rfl⟩ := List.mem_map.mp held
  rw [Note.Value.shown] at shown
  refine ⟨_, _, ofFilter_namesItem rules kind v, read_namesQuery rules kind v,
    holds_namesQuery holds (List.ne_nil_of_mem owned), own, owned, shown, ?_⟩
  obtain ⟨raw, made⟩ := canonical own owned
  rw [← shown]
  exact agree_shownText_iff made

def teamNote : Note :=
  { id := some "G1",
    items := [("Form", [.text "Group"]), ("Members", [.text "CN=Ann Lee/O=Acme", .text "Bob"])] }

def teamMembers : List String := ["CN=Ann Lee/O=Acme", "Bob"]

theorem canonical_teamMembers : ∀ t ∈ teamMembers, ∃ raw, Name.canonicalize raw = .ok ⟨t⟩ := by
  intro t ht
  refine ⟨t, eq_ok_of_toOption ?_⟩
  revert t
  decide

def teamEntry : Entry :=
  Entry.fill teamNote (Entry.groupHeader teamNote ⟨["Members"]⟩) "Members"

/-- The first member is shown without its labels and looked for without them. -/
theorem not_always_holds_shown :
    ¬ ∀ (rules : SearchRules) (kind : EntryClass) (n : Note) (stored : List String)
        (selection : Selection) (e : Entry) (v : String),
      n.item? kind.namesItem = some (stored.map .text) →
      (∀ t ∈ stored, ∃ raw, Name.canonicalize raw = .ok ⟨t⟩) →
      Note.Value.text kind.form ∈ (n.item? "Form").getD [] →
      Entry.ofNote kind n selection = .ok e → v ∈ e.texts kind.namesItem →
      ∃ q formula, ofFilter rules kind (.equals kind.namesItem [.text v]) = .ok (some q) ∧
        Formula.read (confined kind (some q.write)) = .ok formula ∧ formula.holds n = true := by
  intro found
  have stored : teamNote.item? EntryClass.group.namesItem = some (teamMembers.map .text) := rfl
  obtain ⟨q, formula, compiled, taken, holds⟩ := found {} .group teamNote teamMembers ⟨["Members"]⟩
    teamEntry "Ann Lee/Acme" stored canonical_teamMembers (by decide) rfl (by decide)
  rw [ofFilter_namesItem] at compiled
  cases compiled
  rw [read_namesQuery] at taken
  cases taken
  rw [holds_namesQuery stored (by decide)] at holds
  revert holds
  decide

theorem holds_shown_iff_sample :
    teamNote.item? EntryClass.group.namesItem = some (teamMembers.map .text) ∧
      (∀ t ∈ teamMembers, ∃ raw, Name.canonicalize raw = .ok ⟨t⟩) ∧
      Entry.ofNote .group teamNote ⟨["Members"]⟩ = .ok teamEntry ∧
      "Bob" ∈ teamEntry.texts EntryClass.group.namesItem ∧
      ∃ q formula, ofFilter {} .group (.equals EntryClass.group.namesItem [.text "Bob"]) = .ok (some q) ∧
        Formula.read (confined .group (some q.write)) = .ok formula ∧
        (formula.holds teamNote = true ↔ Note.Value.text "Group" ∈ (teamNote.item? "Form").getD [] ∧
          ∃ t ∈ teamMembers, SearchRules.Agree {} "Members" t "Bob") ∧
        ∃ t ∈ teamMembers, Entry.shownText EntryClass.group.namesItem t = "Bob" ∧
          (SearchRules.Agree {} "Members" t "Bob" ↔ "Bob" = t) := by
  have made : Entry.ofNote .group teamNote ⟨["Members"]⟩ = .ok teamEntry := rfl
  have read : "Bob" ∈ teamEntry.texts EntryClass.group.namesItem := by decide
  exact ⟨rfl, canonical_teamMembers, made, read,
    holds_shown_iff rfl canonical_teamMembers made read⟩

end Query

end AddressBook
