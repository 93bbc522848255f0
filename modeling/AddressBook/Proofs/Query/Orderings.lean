import AddressBook.Entry.Update
import AddressBook.Proofs.Note.Items
import AddressBook.Proofs.Number.Ordering
import AddressBook.Proofs.Query.Meaning
import AddressBook.Proofs.Schema.Lookup

/-! Orderings on integer attributes. An attribute that is stored as a number is compared as one. One
that is stored as text is compared as text, with the decimal text of the number that is given; the
order is then that of the numbers only while the texts stand in it. -/

namespace AddressBook

namespace Schema.Coercion

def order (c : Coercion) (stored given : Int) : Ordering :=
  match c with
  | .fromNumber => Ord.compare stored given
  | .fromText => Ord.compare (toString stored) (toString given)

def store (c : Coercion) (i : Int) : Note.Value :=
  match c with
  | .fromNumber => .number (Number.ofInt i)
  | .fromText => .text (toString i)

theorem order_eq (c : Coercion) (i k : Int) :
    c.order i k = if c = .fromNumber ∨ Number.InTextOrder i k then Ord.compare i k
      else (Ord.compare i k).swap := by
  cases c with
  | fromNumber => rw [if_pos (Or.inl rfl), order]
  | fromText =>
    rw [order, Number.compare_toString]
    simp

theorem order_store (c : Coercion) {i k : Int} (hi : i.natAbs < 2 ^ 53) (hk : k.natAbs < 2 ^ 53) :
    (Scalar.ofValue (c.store i)).order (.number (Number.ofInt k)) = c.order i k := by
  cases c with
  | fromNumber =>
    rw [store, Scalar.ofValue, Scalar.order, Number.compare?_ofInt hi hk]
    rfl
  | fromText =>
    rw [store, Scalar.ofValue, Scalar.order, Number.shown_ofInt hk]
    · rfl
    · rintro _ _ ⟨⟩

end Schema.Coercion

namespace Entry

variable {kind : EntryClass} {name : String} {a : Schema.Attribute} {coercion : Schema.Coercion}

theorem storedValues_integer (known : Schema.find? kind name = some a)
    (stored : a.coercion = some coercion) (i : Int) :
    storedValues kind name [.integer i] = .ok [coercion.store i] := by
  have whole : (Schema.find? kind name).bind (·.coercion) = some coercion := by
    rw [known, Option.bind_some, stored]
  have value : storedValue kind name (.integer i) = .ok (coercion.store i) := by
    rw [storedValue, whole]
    · cases coercion <;> rfl
    · rintro _ ⟨⟩
  rw [storedValues, List.mapM_cons, value]
  rfl

end Entry

namespace Query

variable {kind : EntryClass} {name : String} {a : Schema.Attribute} {coercion : Schema.Coercion}

theorem fieldName_integral (known : Schema.find? kind name = some a)
    (stored : a.coercion.isSome = true) : fieldName kind name = a.name := by
  have same := Schema.sameAscii_of_find? known
  have other : ∀ special ∈ Schema.namesApart, name ≠ special := by
    rintro special hs rfl
    rw [Schema.sameAscii_integral known stored hs] at same
    cases same
  rw [fieldName, if_neg (other _ (by decide)), if_neg (other _ (by decide)), known]
  rfl

theorem fieldValues_integral (known : Schema.find? kind name = some a)
    (stored : a.coercion = some coercion) {n : Note} {i : Int}
    (held : n.item? name = some [coercion.store i]) :
    n.fieldValues (fieldName kind name) = [Scalar.ofValue (coercion.store i)] := by
  have whole : a.coercion.isSome = true := by rw [stored]; rfl
  have other : Text.sameAscii a.name "NoteID" = false :=
    Schema.sameAscii_integral known whole (by decide)
  rw [fieldName_integral known whole, Note.fieldValues, other,
    Note.item?_congr (Schema.sameAscii_of_find? known), held]
  rfl

/-- An ordering on an attribute, or its negation. -/
def orderingFilter (negated : Bool) (relation : Relation) (name : String) (k : Int) : Filter :=
  let ordering := .ordered relation name (.integer k)
  if negated then .negation ordering else ordering

def orderingQuery (kind : EntryClass) (negated : Bool) (relation : Relation) (name : String)
    (k : Int) : Query :=
  .ordering (if negated then relation.complement else relation) (fieldName kind name)
    (.number (.integer k))

theorem ofFilter_orderingFilter (rules : SearchRules) (kind : EntryClass) (negated : Bool)
    (relation : Relation) (name : String) (k : Int) :
    ofFilter rules kind (orderingFilter negated relation name k) =
      .ok (some (orderingQuery kind negated relation name k)) := by
  cases negated <;> rfl

theorem holds_orderingQuery (known : Schema.find? kind name = some a)
    (stored : a.coercion = some coercion) {i k : Int} (hi : i.natAbs < 2 ^ 53)
    (hk : k.natAbs < 2 ^ 53) {n : Note} (held : n.item? name = some [coercion.store i])
    (negated : Bool) (relation : Relation) :
    (orderingQuery kind negated relation name k).formula.holds n =
      (negated ^^ relation.holds (coercion.order i k)) := by
  rw [orderingQuery, formula, Formula.holds_compare, Formula.values, Formula.values,
    fieldValues_integral known stored held, scalar_integer]
  simp only [Comparison.holds, List.any_cons, List.any_nil, Bool.or_false,
    Schema.Coercion.order_store coercion hi hk]
  cases negated with
  | false => simp
  | true => simp [Relation.holds_complement]

theorem readable_orderingQuery (known : Schema.find? kind name = some a) (negated : Bool)
    (relation : Relation) (k : Int) : (orderingQuery kind negated relation name k).Readable :=
  ⟨isIdentifier_fieldName (.inr (by rw [known]; rfl)), readable_integer k⟩

/-- Numbers that 32 bits hold. -/
def IsShort (i : Int) : Prop := Int.least32 ≤ i ∧ i ≤ Int.most32

instance (i : Int) : Decidable (IsShort i) := inferInstanceAs (Decidable (_ ∧ _))

theorem IsShort.natAbs_lt {i : Int} (h : IsShort i) : i.natAbs < 2 ^ 53 := by
  obtain ⟨least, most⟩ := h
  rw [Int.least32] at least
  rw [Int.most32] at most
  omega

theorem reads_orderingFilter (known : Schema.find? kind name = some a)
    (stored : a.coercion = some coercion) {i k : Int} (hi : IsShort i) (hk : IsShort k)
    (rules : SearchRules) (negated : Bool) (relation : Relation) :
    ∃ query formula,
      ofFilter rules kind (orderingFilter negated relation name k) = .ok (some query) ∧
        Formula.read (confined kind (some query.write)) = .ok formula ∧
        ∀ n : Note, n.item? name = some [coercion.store i] →
          (formula.holds n = true ↔ Note.Value.text kind.form ∈ (n.item? "Form").getD [] ∧
            (negated ^^ relation.holds (coercion.order i k)) = true) := by
  have readable : ∀ q ∈ some (orderingQuery kind negated relation name k), q.Readable := fun q hq =>
    Option.mem_some.mp hq ▸ readable_orderingQuery known negated relation k
  have read := read_confined kind readable
  rw [Option.map_some] at read
  refine ⟨_, _, ofFilter_orderingFilter rules kind negated relation name k, read, fun n held => ?_⟩
  rw [confinedFormula, Formula.holds_both, Bool.and_eq_true, holds_formFormula,
    holds_orderingQuery known stored hi.natAbs_lt hk.natAbs_lt held]

/-- An ordering on an integer attribute holds of what is stored for a number if the number stands in
the relation in the order of what is stored. This is the order of the numbers if they are stored as
numbers or their decimal texts stand in it, and else the one turned around. -/
theorem orders_as_stored (known : Schema.find? kind name = some a)
    (stored : a.coercion = some coercion) {i k : Int} (hi : IsShort i) (hk : IsShort k)
    (rules : SearchRules) (negated : Bool) (relation : Relation) :
    (∃ values query formula,
      Entry.storedValues kind name [.integer i] = .ok values ∧
        ofFilter rules kind (orderingFilter negated relation name k) = .ok (some query) ∧
        Formula.read (confined kind (some query.write)) = .ok formula ∧
        ∀ n : Note, n.item? name = some values →
          (formula.holds n = true ↔ Note.Value.text kind.form ∈ (n.item? "Form").getD [] ∧
            (negated ^^ relation.holds (coercion.order i k)) = true)) ∧
      coercion.order i k = if coercion = .fromNumber ∨ Number.InTextOrder i k then Ord.compare i k
        else (Ord.compare i k).swap := by
  have kept := Entry.storedValues_integer known stored i
  obtain ⟨query, formula, reading⟩ := reads_orderingFilter known stored hi hk rules negated relation
  exact ⟨⟨_, query, formula, kept, reading⟩, coercion.order_eq i k⟩

def sampleGroup : Note := (Note.ofClass .group).setText "GroupType" "10"

def sampleAccount : Note :=
  (Note.ofClass .account).setItem "PasswordGracePeriod" [.number (Number.ofInt 10)]

theorem isShort_samples : IsShort 10 ∧ IsShort 9 := by decide

theorem find?_grouptype :
    ∃ a, Schema.find? .group "grouptype" = some a ∧ a.coercion = some .fromText :=
  Option.map_eq_some_iff.mp (by decide)

theorem item?_sampleGroup :
    sampleGroup.item? "grouptype" = some [Schema.Coercion.fromText.store 10] ∧
      Note.Value.text EntryClass.group.form ∈ (sampleGroup.item? "Form").getD [] := by
  decide

theorem order_samples :
    Schema.Coercion.fromText.order 10 9 = .lt ∧ Schema.Coercion.fromNumber.order 10 9 = .gt := by
  decide

theorem orders_as_stored_samples :
    (∃ query formula,
      ofFilter {} .group (orderingFilter false .greater "grouptype" 9) = .ok (some query) ∧
      Formula.read (confined .group (some query.write)) = .ok formula ∧
        formula.holds sampleGroup = false) ∧
    ∃ query formula,
      ofFilter {} .account (orderingFilter false .greater "PasswordGracePeriod" 9) =
        .ok (some query) ∧
        Formula.read (confined .account (some query.write)) = .ok formula ∧
          formula.holds sampleAccount = true := by
  obtain ⟨ten, nine⟩ := isShort_samples
  obtain ⟨less, greater⟩ := order_samples
  constructor
  · obtain ⟨group, known, stored⟩ := find?_grouptype
    obtain ⟨⟨_, query, formula, kept, compiled, read, meaning⟩, -⟩ :=
      orders_as_stored known stored ten nine {} false .greater
    rw [Entry.storedValues_integer known stored] at kept
    cases kept
    refine ⟨query, formula, compiled, read, ?_⟩
    rw [Bool.eq_false_iff, Ne, meaning _ item?_sampleGroup.1, less]
    exact fun matched => Bool.false_ne_true matched.2
  · have asNumber : (Schema.find? .account "PasswordGracePeriod").map (·.coercion) =
        some (some .fromNumber) := by
      decide
    obtain ⟨account, known, stored⟩ := Option.map_eq_some_iff.mp asNumber
    obtain ⟨⟨_, query, formula, kept, compiled, read, meaning⟩, -⟩ :=
      orders_as_stored known stored ten nine {} false .greater
    rw [Entry.storedValues_integer known stored] at kept
    cases kept
    have held : sampleAccount.item? "PasswordGracePeriod" =
        some [Schema.Coercion.fromNumber.store 10] := by
      decide +kernel
    refine ⟨query, formula, compiled, read, (meaning _ held).mpr ⟨by decide, ?_⟩⟩
    rw [greater]
    rfl

/-- The texts of ten and nine stand the other way round. -/
theorem not_always_orders_integers :
    ¬ ∀ (rules : SearchRules) (kind : EntryClass) (name : String) (a : Schema.Attribute) (i k : Int)
      (negated : Bool) (relation : Relation) (values : List Note.Value) (query : Query)
      (formula : Formula) (n : Note),
      Schema.find? kind name = some a → a.coercion.isSome = true → IsShort i → IsShort k →
      Entry.storedValues kind name [.integer i] = .ok values →
      ofFilter rules kind (orderingFilter negated relation name k) = .ok (some query) →
      Formula.read (confined kind (some query.write)) = .ok formula →
      n.item? name = some values → Note.Value.text kind.form ∈ (n.item? "Form").getD [] →
        (formula.holds n = true ↔ (negated ^^ relation.holds (Ord.compare i k)) = true) := by
  intro always
  obtain ⟨ten, nine⟩ := isShort_samples
  obtain ⟨group, known, stored⟩ := find?_grouptype
  obtain ⟨held, form⟩ := item?_sampleGroup
  obtain ⟨query, formula, compiled, read, meaning⟩ :=
    reads_orderingFilter known stored ten nine {} false .greater
  have whole : group.coercion.isSome = true := by rw [stored]; rfl
  have numeric := always {} .group "grouptype" group 10 9 false .greater _ query formula sampleGroup
    known whole ten nine (Entry.storedValues_integer known stored 10) compiled read held form
  rw [meaning _ held, order_samples.1] at numeric
  exact Bool.false_ne_true (numeric.mpr rfl).2

end Query

end AddressBook
