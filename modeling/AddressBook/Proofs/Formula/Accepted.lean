import AddressBook.Proofs.Formula.Derived
import AddressBook.Proofs.Text.Same

/-! Reading decides the grammar. The allowance of the readers is never what ends them: from some
steps for each token on, a larger one changes nothing, so that what is refused is refused for its
tokens. With both halves of the grammar, a formula is read exactly when the tokens derive it. -/

namespace AddressBook.Formula

theorem Takes.length_le {level : Level} {before ts rest : List Token} {f : Formula}
    (h : Takes level before ts f rest) : rest.length ≤ ts.length := by
  obtain ⟨us, rfl, -⟩ := h
  rw [List.length_append]
  exact Nat.le_add_left _ _

theorem length_of_expect {wanted : Token} {ts rest : List Token} (h : expect wanted ts = .ok rest) :
    ts.length = rest.length + 1 := by
  rw [expect_eq_ok h, List.length_cons]

/-- The allowance from which on one step more changes nothing for a reader. Between two tokens the
readers pass through at most six levels, and a call is one step more. -/
structure Settled (fuel : Nat) : Prop where
  either : ∀ {ts}, 8 * ts.length + 6 ≤ fuel → readEither (fuel + 1) ts = readEither fuel ts
  eitherTail : ∀ {left ts}, 8 * ts.length + 1 ≤ fuel →
    readEitherTail (fuel + 1) left ts = readEitherTail fuel left ts
  both : ∀ {ts}, 8 * ts.length + 5 ≤ fuel → readBoth (fuel + 1) ts = readBoth fuel ts
  bothTail : ∀ {left ts}, 8 * ts.length + 1 ≤ fuel →
    readBothTail (fuel + 1) left ts = readBothTail fuel left ts
  negation : ∀ {ts}, 8 * ts.length + 4 ≤ fuel → readNegation (fuel + 1) ts = readNegation fuel ts
  compare : ∀ {ts}, 8 * ts.length + 3 ≤ fuel → readCompare (fuel + 1) ts = readCompare fuel ts
  list : ∀ {ts}, 8 * ts.length + 2 ≤ fuel → readList (fuel + 1) ts = readList fuel ts
  listTail : ∀ {values ts}, 8 * ts.length + 1 ≤ fuel →
    readListTail (fuel + 1) values ts = readListTail fuel values ts
  atom : ∀ {ts}, 8 * ts.length + 1 ≤ fuel → readAtom (fuel + 1) ts = readAtom fuel ts
  call : ∀ {name ts}, 8 * ts.length + 7 ≤ fuel →
    readCall (fuel + 1) name ts = readCall fuel name ts

namespace Settled

theorem zero : Settled 0 := by
  constructor <;> intros <;> omega

variable {fuel : Nat} (settled : Settled fuel)

include settled

theorem succ_either {ts : List Token} (h : 8 * ts.length + 6 ≤ fuel + 1) :
    readEither (fuel + 2) ts = readEither (fuel + 1) ts := by
  rw [readEither, readEither, settled.both (by omega)]
  refine bind_congr_of_ok ?_
  rintro ⟨first, rest⟩ read
  have shorter := ((Taking.all fuel).both read).length_le
  exact settled.eitherTail (by omega)

theorem succ_eitherTail {left : Formula} {ts : List Token} (h : 8 * ts.length + 1 ≤ fuel + 1) :
    readEitherTail (fuel + 2) left ts = readEitherTail (fuel + 1) left ts := by
  unfold readEitherTail
  split
  · next us =>
    rw [List.length_cons] at h
    rw [settled.both (by omega)]
    refine bind_congr_of_ok ?_
    rintro ⟨right, rest⟩ read
    have shorter := ((Taking.all fuel).both read).length_le
    exact settled.eitherTail (by omega)
  · rfl

theorem succ_both {ts : List Token} (h : 8 * ts.length + 5 ≤ fuel + 1) :
    readBoth (fuel + 2) ts = readBoth (fuel + 1) ts := by
  rw [readBoth, readBoth, settled.negation (by omega)]
  refine bind_congr_of_ok ?_
  rintro ⟨first, rest⟩ read
  have shorter := ((Taking.all fuel).negation read).length_le
  exact settled.bothTail (by omega)

theorem succ_bothTail {left : Formula} {ts : List Token} (h : 8 * ts.length + 1 ≤ fuel + 1) :
    readBothTail (fuel + 2) left ts = readBothTail (fuel + 1) left ts := by
  unfold readBothTail
  split
  · next us =>
    rw [List.length_cons] at h
    rw [settled.negation (by omega)]
    refine bind_congr_of_ok ?_
    rintro ⟨right, rest⟩ read
    have shorter := ((Taking.all fuel).negation read).length_le
    exact settled.bothTail (by omega)
  · rfl

theorem succ_negation {ts : List Token} (h : 8 * ts.length + 4 ≤ fuel + 1) :
    readNegation (fuel + 2) ts = readNegation (fuel + 1) ts := by
  unfold readNegation
  split
  · next us =>
    rw [List.length_cons] at h
    rw [settled.negation (by omega)]
  · exact settled.compare (by omega)

theorem succ_compare {ts : List Token} (h : 8 * ts.length + 3 ≤ fuel + 1) :
    readCompare (fuel + 2) ts = readCompare (fuel + 1) ts := by
  rw [readCompare, readCompare, settled.list (by omega)]
  refine bind_congr_of_ok ?_
  rintro ⟨left, rest⟩ read
  have shorter := ((Taking.all fuel).list read).length_le
  dsimp only
  split
  · rw [List.length_cons] at shorter
    rw [settled.list (by omega)]
  · rfl

theorem succ_list {ts : List Token} (h : 8 * ts.length + 2 ≤ fuel + 1) :
    readList (fuel + 2) ts = readList (fuel + 1) ts := by
  rw [readList, readList, settled.atom (by omega)]
  refine bind_congr_of_ok ?_
  rintro ⟨first, rest⟩ read
  have shorter := ((Taking.all fuel).atom read).length_le
  dsimp only
  split
  · refine bind_congr_of_ok fun values _ => settled.listTail (by omega)
  · rfl

theorem succ_listTail {values : List Scalar} {ts : List Token} (h : 8 * ts.length + 1 ≤ fuel + 1) :
    readListTail (fuel + 2) values ts = readListTail (fuel + 1) values ts := by
  unfold readListTail
  split
  · next us =>
    rw [List.length_cons] at h
    rw [settled.atom (by omega)]
    refine bind_congr_of_ok ?_
    rintro ⟨next, rest⟩ read
    have shorter := ((Taking.all fuel).atom read).length_le
    exact bind_congr_of_ok fun more _ => settled.listTail (by omega)
  · rfl

theorem succ_atom {ts : List Token} (h : 8 * ts.length + 1 ≤ fuel + 1) :
    readAtom (fuel + 2) ts = readAtom (fuel + 1) ts := by
  unfold readAtom
  split
  · rw [List.length_cons] at h
    rw [settled.either (by omega)]
  · rfl
  · rfl
  · rfl
  · rw [List.length_cons] at h
    refine bind_congr_of_ok fun behind opened => ?_
    have shorter := length_of_expect opened
    exact settled.call (by omega)
  · rfl
  · rfl

theorem succ_call {name : String} {ts : List Token} (h : 8 * ts.length + 7 ≤ fuel + 1) :
    readCall (fuel + 2) name ts = readCall (fuel + 1) name ts := by
  rw [readCall, readCall]
  split
  · rfl
  · rw [settled.either (by omega)]
  · rw [settled.either (by omega)]
    refine bind_congr_of_ok ?_
    rintro ⟨text, rest⟩ read
    have shorter := ((Taking.all fuel).either read).length_le
    refine bind_congr_of_ok fun behind parted => ?_
    have shorter' := length_of_expect parted
    rw [settled.either (by omega)]

theorem succ : Settled (fuel + 1) :=
  ⟨settled.succ_either, settled.succ_eitherTail, settled.succ_both, settled.succ_bothTail,
    settled.succ_negation, settled.succ_compare, settled.succ_list, settled.succ_listTail,
    settled.succ_atom, settled.succ_call⟩

omit settled in
theorem all (fuel : Nat) : Settled fuel := by
  induction fuel with
  | zero => exact zero
  | succ fuel ih => exact ih.succ

end Settled

def Function.name : Function → String
  | .lowerCase => "@LowerCase"
  | .matching place => place.function

theorem ofName?_eq_some_iff {name : String} {function : Function} :
    Function.ofName? name = some function ↔ Text.sameAscii name function.name = true := by
  rw [Text.sameAscii_iff]
  constructor
  · intro h
    rw [Function.ofName?] at h
    split at h
    · next spelled => cases h; rw [spelled]; decide
    · next spelled => cases h; rw [spelled]; decide
    · next spelled => cases h; rw [spelled]; decide
    · next spelled => cases h; rw [spelled]; decide
    · cases h
  · intro h
    rw [Function.ofName?, h]
    obtain _ | (_ | _ | _) := function <;> rfl

theorem readEither_allowed (ts : List Token) (more : Nat) :
    readEither (8 * ts.length + 8 + more) ts = readEither (8 * ts.length + 8) ts := by
  induction more with
  | zero => rfl
  | succ more ih => rw [← ih, ← Nat.add_assoc, (Settled.all _).either (by omega)]

theorem ofTokens_eq_ok_iff {ts : List Token} {f : Formula} :
    ofTokens ts = .ok f ↔ Derives .disjunction ts f :=
  ⟨derives_of_ofTokens, ofTokens_of_derives⟩

theorem Derives.unique {ts : List Token} {f g : Formula} (hf : Derives .disjunction ts f)
    (hg : Derives .disjunction ts g) : f = g := by
  have both := (ofTokens_of_derives hf).symm.trans (ofTokens_of_derives hg)
  exact Except.ok.inj both

theorem read_of_scan {text : String} {ts : List Token} (h : scan text.toList = .ok ts) :
    read text = (ofTokens ts).mapError fun flaw => .filterParse (flaw.reason text) := by
  rw [read, h]
  rfl

theorem read_eq_ok_iff {text : String} {f : Formula} :
    read text = .ok f ↔ ∃ ts, scan text.toList = .ok ts ∧ Derives .disjunction ts f := by
  cases scanned : scan text.toList with
  | error flaw =>
    have refused : read text = .error (.filterParse (flaw.reason text)) := by rw [read, scanned]; rfl
    simp [refused]
  | ok ts =>
    simp only [read_of_scan scanned, mapError_eq_ok, ofTokens_eq_ok_iff, Except.ok.injEq,
      exists_eq_left']

theorem read_eq_error {text : String} (h : ∀ f, read text ≠ .ok f) :
    ∃ flaw : Flaw, read text = .error (.filterParse (flaw.reason text)) := by
  rw [read] at h ⊢
  cases outcome : (scan text.toList).bind ofTokens with
  | error flaw => exact ⟨flaw, rfl⟩
  | ok f =>
    rw [outcome] at h
    exact absurd rfl (h f)

/-- Tokens are read as a formula if and only if they derive it, of which there is at most one, and
the allowance of the readers is never what refuses them; a text is read as what its tokens derive,
and one without tokens or without a derivation is refused as no formula. -/
theorem reads_exactly_derived :
    (∀ ts f, ofTokens ts = .ok f ↔ Derives .disjunction ts f) ∧
      (∀ ts f g, Derives .disjunction ts f → Derives .disjunction ts g → f = g) ∧
      (∀ ts more, readEither (8 * ts.length + 8 + more) ts = readEither (8 * ts.length + 8) ts) ∧
      (∀ name function, Function.ofName? name = some function ↔
        Text.sameAscii name function.name = true) ∧
      (∀ text f, read text = .ok f ↔ ∃ ts, scan text.toList = .ok ts ∧ Derives .disjunction ts f) ∧
      ∀ text, (¬ ∃ ts f, scan text.toList = .ok ts ∧ Derives .disjunction ts f) →
        ∃ flaw : Flaw, read text = .error (.filterParse (flaw.reason text)) := by
  refine ⟨fun _ _ => ofTokens_eq_ok_iff, fun _ _ _ => Derives.unique, readEither_allowed,
    fun _ _ => ofName?_eq_some_iff, fun _ _ => read_eq_ok_iff, fun text none => ?_⟩
  refine read_eq_error fun f taken => none ?_
  obtain ⟨ts, scanned, derives⟩ := read_eq_ok_iff.mp taken
  exact ⟨ts, f, scanned, derives⟩

def sampleText : String := "!(ShortName=\"x\":\"y\") & @BEGINS(@lowercase(Title); \"b\")"

def sampleFormula : Formula :=
  .both (.negation (.compare .equal (.field "ShortName") (.literal [.text "x", .text "y"])))
    (.matching .atStart (.lowerCase (.field "Title")) (.literal [.text "b"]))

theorem reads_exactly_derived_sample :
    (∃ ts, scan sampleText.toList = .ok ts ∧ Derives .disjunction ts sampleFormula ∧
        ∀ f, Derives .disjunction ts f → f = sampleFormula) ∧
      ∃ flaw : Flaw, read "(A=1" = .error (.filterParse (flaw.reason "(A=1")) := by
  obtain ⟨-, unique, -, -, texts, refused⟩ := reads_exactly_derived
  have taken : read sampleText = .ok sampleFormula := eq_ok_of_toOption (by decide +kernel)
  obtain ⟨ts, scanned, derives⟩ := (texts _ _).mp taken
  refine ⟨⟨ts, scanned, derives, fun f derived => unique ts _ _ derived derives⟩, ?_⟩
  refine refused "(A=1" ?_
  rintro ⟨us, f, derived⟩
  have ended : (read "(A=1").toOption = none := by decide +kernel
  rw [(texts _ f).mpr ⟨us, derived⟩] at ended
  cases ended

end AddressBook.Formula
