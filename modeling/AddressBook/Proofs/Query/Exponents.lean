import AddressBook.Proofs.Filter.Query
import AddressBook.Proofs.Formula.Derived

/-! Which compiled filters the directory can read. A number with an exponent is no numeral of
formulas: it scans to a number and a field side by side, if it scans at all, and nothing derives from
the grammar with these as neighbours. All other numbers are read, so that only exponents matter. -/

namespace AddressBook

namespace Formula

/-- In front of the rest a text does not scan to tokens that a formula could have. -/
def Stumbles (cs rest : List Char) : Prop :=
  ∀ ts, scan (cs ++ rest) = .ok ts → ¬ Unclashing ts

theorem Scans.tokens {cs rest : List Char} {ts us : List Token} (h : Scans cs ts rest)
    (scanned : scan (cs ++ rest) = .ok us) : ∃ vs, scan rest = .ok vs ∧ us = ts ++ vs := by
  rw [Scans, scanned] at h
  cases behind : scan rest with
  | error flaw =>
    rw [behind] at h
    cases h
  | ok vs =>
    rw [behind] at h
    cases h
    exact ⟨vs, rfl, rfl⟩

theorem Stumbles.behind {cs ds rest : List Char} {ts : List Token} (h : Stumbles ds rest)
    (first : Scans cs ts (ds ++ rest)) : Stumbles (cs ++ ds) rest := by
  intro us scanned unclashing
  rw [List.append_assoc] at scanned
  obtain ⟨vs, behind, rfl⟩ := first.tokens scanned
  exact h vs behind (List.isChain_append.mp unclashing).2.1

theorem Stumbles.cons {c : Char} {ds rest : List Char} {ts : List Token} (h : Stumbles ds rest)
    (first : Scans [c] ts (ds ++ rest)) : Stumbles (c :: ds) rest := h.behind first

theorem Stumbles.before {cs ds rest : List Char} (h : Stumbles cs (ds ++ rest)) :
    Stumbles (cs ++ ds) rest := by
  intro us scanned
  rw [List.append_assoc] at scanned
  exact h us scanned

theorem stumbles_of_scans {cs rest : List Char} {n : Number} {name : String}
    (h : Scans cs [.number n, .field name] rest) : Stumbles cs rest := by
  intro us scanned unclashing
  obtain ⟨vs, -, rfl⟩ := h.tokens scanned
  exact (List.isChain_cons_cons.mp unclashing).1 ⟨⟨n, rfl⟩, name, rfl⟩

theorem stumbles_exponent {lead rest : List Char} {sign : Char} (decimal : Number.IsSigned lead)
    (signed : sign = '-' ∨ sign = '+') : Stumbles (lead ++ ['e']) (sign :: rest) := by
  obtain ⟨n, -, number⟩ := @scans_signed lead decimal 'e' (sign :: rest) (by decide)
  have letter : Scans ['e'] [wordToken ['e']] (sign :: rest) := by
    have ends : isWordChar sign = false := by rcases signed with rfl | rfl <;> decide
    exact scans_word (by decide) (by decide) (by decide) rfl (by decide) (by simp) ends
  exact stumbles_of_scans (number.append letter)

theorem not_read_of_stumbles {text : String} (h : Stumbles text.toList []) (f : Formula) :
    Formula.read text ≠ .ok f := by
  intro read
  rw [Formula.read] at read
  cases result : (scan text.toList).bind ofTokens with
  | error flaw =>
    rw [result] at read
    cases read
  | ok g =>
    obtain ⟨ts, scanned, made⟩ := bind_eq_ok result
    exact h ts (by rwa [List.append_nil]) (unclashing_of_ofTokens made)

end Formula

namespace Query

open Formula Text

namespace Literal

def HasExponent : Literal → Prop
  | .number (.real n) => n.hasExponent = true
  | _ => False

theorem stumbles {l : Literal} (h : l.HasExponent) (rest : List Char) :
    Stumbles l.write.toList rest := by
  cases l with
  | text s => cases h
  | number json =>
    cases json with
    | real n =>
      obtain ⟨lead, sign, places, written, decimal, signed, -⟩ := Number.compact_real_eq h
      rw [write, written, List.append_cons]
      exact (stumbles_exponent decimal signed).before
    | null | bool b | integer i | text s | list items | object members => cases h

variable {ls : List Literal}

theorem stumbles_joined (each : ∀ l ∈ ls, l.Readable ∨ l.HasExponent)
    (some : ∃ l ∈ ls, l.HasExponent) (rest : List Char) :
    Stumbles (ls.flatMap fun m => ':' :: m.write.toList) rest := by
  induction ls with
  | nil =>
    obtain ⟨l, hl, -⟩ := some
    cases hl
  | cons l ls ih =>
    obtain ⟨first, others⟩ := List.forall_mem_cons.mp each
    have colon : ∀ rest, Scans [':'] [.colon] rest := fun rest => scans_mark rfl rfl
    rw [List.flatMap_cons, List.cons_append]
    refine Stumbles.cons ?_ (colon _)
    by_cases exponent : l.HasExponent
    · exact (stumbles exponent _).before
    · have later : ∃ m ∈ ls, m.HasExponent := by simpa [exponent] using some
      obtain ⟨m, ms, rfl⟩ := List.exists_cons_of_ne_nil (List.ne_nil_of_mem later.choose_spec.1)
      exact (ih others later).behind (scans (first.resolve_right exponent) rfl)

theorem stumbles_list {l : Literal} (each : ∀ m ∈ l :: ls, m.Readable ∨ m.HasExponent)
    (some : ∃ m ∈ l :: ls, m.HasExponent) (rest : List Char) :
    Stumbles (listText (l :: ls)) rest := by
  obtain ⟨first, others⟩ := List.forall_mem_cons.mp each
  rw [listText_cons]
  by_cases exponent : l.HasExponent
  · exact (stumbles exponent _).before
  · have later : ∃ m ∈ ls, m.HasExponent := by simpa [exponent] using some
    obtain ⟨m, ms, rfl⟩ := List.exists_cons_of_ne_nil (List.ne_nil_of_mem later.choose_spec.1)
    exact (stumbles_joined others later rest).behind (scans (first.resolve_right exponent) rfl)

end Literal

/-- Fields are identifiers, and each number is written as a decimal or has an exponent. -/
structure Numeric (q : Query) : Prop where
  listed : q.Listed
  fields : ∀ name ∈ q.fieldNames, isIdentifier name = true
  literals : ∀ l ∈ q.writtenLiterals, l.Readable ∨ l.HasExponent

def HasExponent (q : Query) : Prop := ∃ l ∈ q.writtenLiterals, l.HasExponent

theorem Numeric.readable {q : Query} (h : q.Numeric) (none : ¬ q.HasExponent) : q.Readable :=
  (readable_iff h.listed).mpr
    ⟨h.fields, fun l hl => (h.literals l hl).resolve_right fun exponent => none ⟨l, hl, exponent⟩⟩

theorem numeric_sides {left right : Query} (listed : left.Listed ∧ right.Listed)
    (fields : ∀ name ∈ left.fieldNames ++ right.fieldNames, isIdentifier name = true)
    (literals : ∀ l ∈ left.writtenLiterals ++ right.writtenLiterals, l.Readable ∨ l.HasExponent) :
    left.Numeric ∧ right.Numeric := by
  obtain ⟨fields, fields'⟩ := List.forall_mem_append.mp fields
  obtain ⟨literals, literals'⟩ := List.forall_mem_append.mp literals
  exact ⟨⟨listed.1, fields, literals⟩, ⟨listed.2, fields', literals'⟩⟩

theorem exists_mem_append_literals {ls ms : List Literal}
    (h : ∃ l ∈ ls ++ ms, l.HasExponent) :
    (∃ l ∈ ls, l.HasExponent) ∨ ∃ l ∈ ms, l.HasExponent := by
  obtain ⟨l, hl, exponent⟩ := h
  exact (List.mem_append.mp hl).imp (fun hl => ⟨l, hl, exponent⟩) fun hl => ⟨l, hl, exponent⟩

theorem stumbles_connected {left right : Query} {c : Char} {joint : Token} {rest : List Char}
    (hj : ∀ rest, Scans [c] [joint] (' ' :: rest)) (numeric : left.Numeric)
    (first : left.HasExponent → ∀ rest, Stumbles left.write.toList rest)
    (second : right.HasExponent → ∀ rest, Stumbles right.write.toList rest)
    (some : left.HasExponent ∨ right.HasExponent) :
    Stumbles ('(' :: (left.write.toList ++ [')']) ++
      ' ' :: c :: ' ' :: '(' :: (right.write.toList ++ [')'])) rest := by
  have opening : ∀ rest, Scans ['('] [.opening] rest := fun rest => scans_mark rfl rfl
  by_cases exponent : left.HasExponent
  · exact Stumbles.before ((first exponent _).before.cons (opening _))
  · have blank : ∀ rest, Scans [' '] [] rest := fun rest => scans_blank rfl
    have between : Scans (' ' :: c :: ' ' :: ['(']) [joint, .opening]
        (right.write.toList ++ [')'] ++ rest) :=
      (blank _).append ((hj _).append ((blank _).append (opening _)))
    have later := second (some.resolve_left exponent)
    refine Stumbles.behind ?_ (scans_enclosed (scans (numeric.readable exponent) _))
    exact (later _).before.behind between

theorem stumbles {q : Query} (numeric : q.Numeric) (some : q.HasExponent) (rest : List Char) :
    Stumbles q.write.toList rest := by
  induction q generalizing rest with
  | equality negated f values =>
    obtain ⟨l, ls, rfl⟩ := List.exists_cons_of_ne_nil (show values ≠ [] from numeric.listed)
    have list := Literal.stumbles_list numeric.literals some
    have head := scans_equalityHead negated (numeric.fields _ List.mem_cons_self)
    rw [toList_write_equality]
    exact (list _).before.behind (head _)
  | ordering relation name value =>
    obtain ⟨l, hl, exponent⟩ := some
    cases List.mem_singleton.mp hl
    have head := scans_orderingHead relation (numeric.fields _ List.mem_cons_self)
    rw [toList_write_ordering]
    exact (Literal.stumbles exponent rest).behind (head _)
  | matching negated place f value =>
    obtain ⟨l, hl, exponent⟩ := some
    cases List.mem_singleton.mp hl
    have head := scans_matchingHead negated place (numeric.fields _ List.mem_cons_self)
    rw [toList_write_matching]
    exact (Literal.stumbles exponent _).before.behind (head _)
  | both left right ihl ihr =>
    obtain ⟨numeric, numeric'⟩ := numeric_sides numeric.listed numeric.fields numeric.literals
    rw [toList_write_both]
    exact stumbles_connected (fun rest => scans_mark rfl rfl) numeric (ihl numeric) (ihr numeric')
      (exists_mem_append_literals some)
  | either left right ihl ihr =>
    obtain ⟨numeric, numeric'⟩ := numeric_sides numeric.listed numeric.fields numeric.literals
    rw [toList_write_either]
    exact stumbles_connected (fun rest => scans_mark rfl rfl) numeric (ihl numeric) (ihr numeric')
      (exists_mem_append_literals some)

theorem not_read_confined (kind : EntryClass) {q : Query} (numeric : q.Numeric)
    (some : q.HasExponent) (f : Formula) :
    Formula.read (confined kind (.some q.write)) ≠ .ok f := by
  have inner := stumbles numeric some
  have nonempty : q.write.isEmpty = false := by
    rw [Bool.eq_false_iff]
    intro empty
    have none : q.write.toList = [] := by simpa [String.isEmpty_iff] using empty
    have nothing := inner []
    rw [none] at nothing
    exact nothing [] (by rw [List.append_nil, scan.eq_def]) List.isChain_nil
  have blank : ∀ rest, Scans [' '] [] rest := fun rest => scans_blank rfl
  have both : ∀ rest, Scans ['&'] [.both] rest := fun rest => scans_mark rfl rfl
  have opening : ∀ rest, Scans ['('] [.opening] rest := fun rest => scans_mark rfl rfl
  have head := (scans_form kind _).append
    ((blank _).append ((both _).append ((blank _).append (opening (q.write.toList ++ [')'] ++ [])))))
  rw [confined]
  simp only [nonempty, Bool.false_eq_true, if_false]
  refine not_read_of_stumbles ?_ f
  have marks : " & (".toList = [' '] ++ (['&'] ++ ([' '] ++ ['('])) ∧ ")".toList = [')'] :=
    ⟨rfl, rfl⟩
  rw [String.toList_append, String.toList_append, String.toList_append (t := " & ("),
    marks.1, marks.2, List.append_assoc]
  exact (inner _).before.behind head

end Query

namespace Filter

variable {rules : SearchRules} {kind : EntryClass} {name : String}

theorem real_of_folded {field : String} {l : Query.Literal} {json : Json} :
    folded rules field l = .number json ↔ l = .number json := by
  rw [folded]
  split
  · exact Iff.rfl
  · cases l <;> simp [Query.Literal.lowerCase]

theorem literal?_eq_real {isPattern : Bool} {value : Json} {n : Number} :
    literal? kind name isPattern value = some (.number (.real n)) ↔ value = .real n := by
  cases value <;> simp [literal?]

theorem real_mem_literals_iff (f : Filter) {n : Number} :
    Query.Literal.number (.real n) ∈ f.literals rules kind ↔ Json.real n ∈ f.soughtValues rules := by
  induction f with
  | equals name values | containsAll name values =>
    simp [literals, soughtValues, real_of_folded, literal?_eq_real]
  | ordered relation name value | matching place name value =>
    simp [literals, soughtValues, real_of_folded, literal?_eq_real, eq_comm]
  | both left right ihl ihr | either left right ihl ihr =>
    rw [literals, soughtValues, List.mem_append, List.mem_append, ihl, ihr]
  | negation inner ih => exact ih

def IsGiven : Query.Literal → Prop
  | .text _ => True
  | .number (.integer _) => True
  | .number (.real _) => True
  | .number _ => False

theorem isGiven_folded {field : String} {l : Query.Literal} (h : IsGiven l) :
    IsGiven (folded rules field l) := by
  rw [folded]
  split
  · exact h
  · cases l <;> exact h

theorem isGiven_of_literal? {isPattern : Bool} {value : Json} {l : Query.Literal}
    (h : literal? kind name isPattern value = some l) : IsGiven l := by
  cases value <;> cases h <;> trivial

theorem isGiven_of_mem_literals {f : Filter} {l : Query.Literal} (h : l ∈ f.literals rules kind) :
    IsGiven l := by
  induction f with
  | equals name values | containsAll name values =>
    obtain ⟨m, hm, rfl⟩ := List.mem_map.mp h
    obtain ⟨value, -, given⟩ := List.mem_filterMap.mp hm
    exact isGiven_folded (isGiven_of_literal? given)
  | ordered relation name value => exact isGiven_of_literal? (Option.mem_toList.mp h)
  | matching place name value =>
    obtain ⟨m, hm, rfl⟩ := List.mem_map.mp h
    exact isGiven_folded (isGiven_of_literal? (Option.mem_toList.mp hm))
  | both left right ihl ihr | either left right ihl ihr =>
    exact (List.mem_append.mp h).elim ihl ihr
  | negation inner ih => exact ih h

theorem readable_or_hasExponent {f : Filter}
    (finite : ∀ n, Json.real n ∈ f.soughtValues rules → n.isFinite = true) {l : Query.Literal}
    (h : l ∈ f.literals rules kind) : l.Readable ∨ l.HasExponent := by
  have given := isGiven_of_mem_literals h
  cases l with
  | text s => exact Or.inl trivial
  | number json =>
    cases json with
    | integer i => exact Or.inl (Query.readable_integer i)
    | real n =>
      have sought := finite n ((real_mem_literals_iff f).mp h)
      cases exponent : n.hasExponent with
      | false => exact Or.inl (Number.isSigned_compact_real sought exponent)
      | true => exact Or.inr exponent
    | null | bool b | text s | list items | object members => cases given

end Filter

namespace Query

variable {rules : SearchRules} {kind : EntryClass} {f : Filter} {q : Option Query}

theorem numeric_of_ofFilter
    (known : ∀ name ∈ f.names, Text.isIdentifier name = true ∨ (Schema.find? kind name).isSome = true)
    (finite : ∀ n, Json.real n ∈ f.soughtValues rules → n.isFinite = true)
    (h : ofFilter rules kind f = .ok q) :
    (q.map writtenLiterals).getD [] = f.literals rules kind ∧ ∀ c ∈ q, c.Numeric := by
  obtain rfl := Filter.query_of_compile h
  have written := @Filter.writtenLiterals_query rules kind f false
  refine ⟨written, fun c hc => ?_⟩
  obtain ⟨listed, fields⟩ := Filter.within_query (fun name => List.mem_map_of_mem) false c hc
  refine ⟨listed, fun field hf => ?_, fun l hl => ?_⟩
  · obtain ⟨name, hn, rfl⟩ := List.mem_map.mp (fields field hf)
    exact isIdentifier_fieldName (known name hn)
  · rw [hc, Option.map_some, Option.getD_some] at written
    exact Filter.readable_or_hasExponent finite (written ▸ hl)

/-- What a filter compiles to can be read exactly if no number that is looked for has an exponent. -/
theorem reads_ofFilter_iff
    (known : ∀ name ∈ f.names, Text.isIdentifier name = true ∨ (Schema.find? kind name).isSome = true)
    (finite : ∀ n, Json.real n ∈ f.soughtValues rules → n.isFinite = true)
    (h : ofFilter rules kind f = .ok q) :
    (∃ formula, Formula.read (confined kind (q.map write)) = .ok formula) ↔
      ∀ n, Json.real n ∈ f.soughtValues rules → n.hasExponent = false := by
  obtain ⟨written, numeric⟩ := numeric_of_ofFilter known finite h
  constructor
  · rintro ⟨formula, read⟩ n sought
    rw [Bool.eq_false_iff]
    intro exponent
    have literal : Literal.number (.real n) ∈ f.literals rules kind :=
      (Filter.real_mem_literals_iff f).mpr sought
    rw [← written] at literal
    cases q with
    | none => cases literal
    | some c => exact not_read_confined kind (numeric c rfl) ⟨_, literal, exponent⟩ formula read
  · intro plain
    refine ⟨confinedFormula kind q, read_confined kind fun c hc => ?_⟩
    refine (numeric c hc).readable ?_
    rintro ⟨l, hl, exponent⟩
    obtain rfl := Option.mem_def.mp hc
    cases l with
    | text s => cases exponent
    | number json =>
      cases json with
      | real n =>
        have literal : Literal.number (.real n) ∈ f.literals rules kind := written ▸ hl
        have none := plain n ((Filter.real_mem_literals_iff f).mp literal)
        rw [Literal.HasExponent, none] at exponent
        cases exponent
      | null | bool b | integer i | text s | list items | object members => cases exponent

def sampleOrdering (n : Number) : Filter := .ordered .atLeast "GroupType" (.real n)

theorem ofFilter_sampleOrdering (n : Number) :
    ofFilter {} .group (sampleOrdering n) =
      .ok (some (.ordering .atLeast "GroupType" (.number (.real n)))) := by
  have field : fieldName .group "GroupType" = "GroupType" := by decide
  rw [ofFilter, sampleOrdering, compile, field]
  rfl

theorem isSome_of_mem_sampleOrdering (n : Number) :
    ∀ name ∈ (sampleOrdering n).names, (Schema.find? .group name).isSome = true := by
  intro name hn
  cases List.mem_singleton.mp hn
  decide

theorem eq_of_mem_sampleOrdering {n m : Number} (h : Json.real m ∈ (sampleOrdering n).soughtValues {}) :
    m = n := by
  cases List.mem_singleton.mp h
  rfl

theorem isFinite_of_mem_sampleOrdering (i : Int) (h : (Number.ofInt i).isFinite = true) :
    ∀ m, Json.real m ∈ (sampleOrdering (Number.ofInt i)).soughtValues {} → m.isFinite = true :=
  fun _ sought => eq_of_mem_sampleOrdering sought ▸ h

theorem hasExponent_sample :
    (Number.ofInt (10 ^ 15)).isFinite = true ∧ (Number.ofInt (10 ^ 15)).hasExponent = false ∧
      (Number.ofInt (10 ^ 16)).isFinite = true ∧ (Number.ofInt (10 ^ 16)).hasExponent = true := by
  decide +kernel

theorem reads_ofFilter_iff_sample :
    ∃ p q, ofFilter {} .group (sampleOrdering (Number.ofInt (10 ^ 15))) = .ok (some p) ∧
      ofFilter {} .group (sampleOrdering (Number.ofInt (10 ^ 16))) = .ok (some q) ∧
      (∃ formula, Formula.read (confined .group (some p.write)) = .ok formula) ∧
      ¬ ∃ formula, Formula.read (confined .group (some q.write)) = .ok formula := by
  have known : ∀ n, ∀ name ∈ (sampleOrdering n).names, Text.isIdentifier name = true ∨
      (Schema.find? .group name).isSome = true :=
    fun n name hn => Or.inr (isSome_of_mem_sampleOrdering n name hn)
  obtain ⟨finite, short, finite', long⟩ := hasExponent_sample
  have first := reads_ofFilter_iff (known _) (isFinite_of_mem_sampleOrdering (10 ^ 15) finite)
    (ofFilter_sampleOrdering _)
  have second := reads_ofFilter_iff (known _) (isFinite_of_mem_sampleOrdering (10 ^ 16) finite')
    (ofFilter_sampleOrdering _)
  refine ⟨_, _, ofFilter_sampleOrdering _, ofFilter_sampleOrdering _, first.mpr fun m sought => ?_,
    fun read => ?_⟩
  · rw [eq_of_mem_sampleOrdering sought, short]
  · have plain := second.mp read (Number.ofInt (10 ^ 16)) (List.mem_singleton_self _)
    rw [long] at plain
    cases plain

/-- A filter on an attribute is compiled to what is no formula. -/
theorem not_always_reads_ofFilter :
    ¬ ∀ (rules : SearchRules) (kind : EntryClass) (f : Filter) (q : Query),
      (∀ name ∈ f.names, (Schema.find? kind name).isSome = true) →
      (∀ n, Json.real n ∈ f.soughtValues rules → n.isFinite = true) →
      ofFilter rules kind f = .ok (some q) →
        ∃ formula, Formula.read (confined kind (some q.write)) = .ok formula := by
  intro always
  obtain ⟨-, -, finite, long⟩ := hasExponent_sample
  obtain ⟨formula, read⟩ := always {} .group _ _ (isSome_of_mem_sampleOrdering _)
    (isFinite_of_mem_sampleOrdering (10 ^ 16) finite) (ofFilter_sampleOrdering _)
  have exponent : (Literal.number (.real (Number.ofInt (10 ^ 16)))).HasExponent := long
  have numeric : Numeric (.ordering .atLeast "GroupType"
      (.number (.real (Number.ofInt (10 ^ 16))))) := by
    refine ⟨trivial, ?_, fun l hl => Or.inr ?_⟩
    · simp only [fieldNames, List.forall_mem_singleton]
      decide
    · rwa [List.mem_singleton.mp hl]
  exact not_read_confined .group numeric ⟨_, List.mem_singleton_self _, exponent⟩ formula read

end Query

end AddressBook
