import AddressBook.Proofs.Except
import AddressBook.Proofs.Formula.Grammar
import Mathlib.Data.List.Chain

/-! The other half of the grammar: what is read derives from the tokens that were taken for it. In
what derives, a number never stands directly before a field, so that a text which scans to such
neighbours is no formula. -/

namespace AddressBook.Formula

theorem expect_eq_ok {wanted : Token} {ts rest : List Token} (h : expect wanted ts = .ok rest) :
    ts = wanted :: rest := by
  cases ts with
  | nil => cases h
  | cons t us =>
    rw [expect] at h
    split at h
    · next same =>
      cases h
      rw [same]
    · cases h

theorem literals_eq_ok {f : Formula} {values : List Scalar} (h : literals f = .ok values) :
    f = .literal values := by
  cases f <;> cases h
  rfl

/-- From the tokens a phrase was taken that, behind the tokens taken before, derives the formula. -/
def Takes (level : Level) (before ts : List Token) (f : Formula) (rest : List Token) : Prop :=
  ∃ us, ts = us ++ rest ∧ Derives level (before ++ us) f

theorem Takes.mono {loose tight : Level} {before ts rest : List Token} {f g : Formula}
    (h : Takes tight before ts f rest)
    (hd : ∀ us, Derives tight us f → Derives loose us g) : Takes loose before ts g rest := by
  obtain ⟨us, rfl, derives⟩ := h
  exact ⟨us, rfl, hd _ derives⟩

theorem takes_nil {level : Level} {before rest : List Token} {f : Formula}
    (h : Derives level before f) : Takes level before rest f rest :=
  ⟨[], rfl, by rwa [List.append_nil]⟩

theorem Takes.trans {level first : Level} {before ts mid rest : List Token} {f g : Formula}
    (h : Takes first before ts f mid)
    (hd : ∀ us, Derives first us f → Takes level us mid g rest) : Takes level before ts g rest := by
  obtain ⟨us, rfl, derives⟩ := h
  obtain ⟨vs, rfl, derived⟩ := hd _ derives
  exact ⟨us ++ vs, (List.append_assoc us vs rest).symm, by rwa [← List.append_assoc]⟩

theorem Takes.link {level tight : Level} {before ts rest : List Token} {joint : Token}
    {f g : Formula} (h : Takes tight [] ts f rest)
    (hd : ∀ us, Derives tight us f → Derives level (before ++ joint :: us) g) :
    Takes level before (joint :: ts) g rest := by
  obtain ⟨us, rfl, derives⟩ := h
  exact ⟨joint :: us, rfl, hd us derives⟩

structure Taking (fuel : Nat) : Prop where
  either : ∀ {ts f rest}, readEither fuel ts = .ok (f, rest) → Takes .disjunction [] ts f rest
  eitherTail : ∀ {left before ts f rest}, Derives .disjunction before left →
    readEitherTail fuel left ts = .ok (f, rest) → Takes .disjunction before ts f rest
  both : ∀ {ts f rest}, readBoth fuel ts = .ok (f, rest) → Takes .conjunction [] ts f rest
  bothTail : ∀ {left before ts f rest}, Derives .conjunction before left →
    readBothTail fuel left ts = .ok (f, rest) → Takes .conjunction before ts f rest
  negation : ∀ {ts f rest}, readNegation fuel ts = .ok (f, rest) → Takes .negation [] ts f rest
  compare : ∀ {ts f rest}, readCompare fuel ts = .ok (f, rest) → Takes .comparison [] ts f rest
  list : ∀ {ts f rest}, readList fuel ts = .ok (f, rest) → Takes .list [] ts f rest
  listTail : ∀ {values before ts f rest}, Derives .list before (.literal values) →
    readListTail fuel values ts = .ok (f, rest) → Takes .list before ts f rest
  atom : ∀ {ts f rest}, readAtom fuel ts = .ok (f, rest) → Takes .atom [] ts f rest
  call : ∀ {name ts f rest}, readCall fuel name ts = .ok (f, rest) →
    Takes .atom [.function name, .opening] ts f rest

namespace Taking

theorem zero : Taking 0 := by
  constructor <;> intros <;> rename_i h <;> cases h

variable {fuel : Nat} (taking : Taking fuel)

include taking

theorem succ_either {ts rest : List Token} {f : Formula}
    (h : readEither (fuel + 1) ts = .ok (f, rest)) : Takes .disjunction [] ts f rest := by
  rw [readEither] at h
  obtain ⟨⟨first, mid⟩, read, h⟩ := bind_eq_ok h
  exact (taking.both read).trans fun us derives => taking.eitherTail (.conjunct derives) h

theorem succ_eitherTail {left f : Formula} {before ts rest : List Token}
    (hl : Derives .disjunction before left)
    (h : readEitherTail (fuel + 1) left ts = .ok (f, rest)) : Takes .disjunction before ts f rest := by
  unfold readEitherTail at h
  split at h
  · next us =>
    obtain ⟨⟨right, mid⟩, read, h⟩ := bind_eq_ok h
    have link : Takes .disjunction before (.either :: us) (.either left right) mid :=
      (taking.both read).link fun vs derives => .either hl derives
    exact link.trans fun vs derives => taking.eitherTail derives h
  · cases h
    exact takes_nil hl

theorem succ_both {ts rest : List Token} {f : Formula}
    (h : readBoth (fuel + 1) ts = .ok (f, rest)) : Takes .conjunction [] ts f rest := by
  rw [readBoth] at h
  obtain ⟨⟨first, mid⟩, read, h⟩ := bind_eq_ok h
  exact (taking.negation read).trans fun us derives => taking.bothTail (.unary derives) h

theorem succ_bothTail {left f : Formula} {before ts rest : List Token}
    (hl : Derives .conjunction before left)
    (h : readBothTail (fuel + 1) left ts = .ok (f, rest)) : Takes .conjunction before ts f rest := by
  unfold readBothTail at h
  split at h
  · next us =>
    obtain ⟨⟨right, mid⟩, read, h⟩ := bind_eq_ok h
    have link : Takes .conjunction before (.both :: us) (.both left right) mid :=
      (taking.negation read).link fun vs derives => .both hl derives
    exact link.trans fun vs derives => taking.bothTail derives h
  · cases h
    exact takes_nil hl

theorem succ_negation {ts rest : List Token} {f : Formula}
    (h : readNegation (fuel + 1) ts = .ok (f, rest)) : Takes .negation [] ts f rest := by
  unfold readNegation at h
  split at h
  · next us =>
    obtain ⟨⟨inner, mid⟩, read, h⟩ := bind_eq_ok h
    cases h
    exact (taking.negation read).link fun vs derives => .negation derives
  · exact (taking.compare h).mono fun us derives => .affirmed derives

theorem succ_compare {ts rest : List Token} {f : Formula}
    (h : readCompare (fuel + 1) ts = .ok (f, rest)) : Takes .comparison [] ts f rest := by
  rw [readCompare] at h
  obtain ⟨⟨left, mid⟩, first, h⟩ := bind_eq_ok h
  dsimp only at h
  split at h
  · next c us =>
    obtain ⟨⟨right, last⟩, second, h⟩ := bind_eq_ok h
    cases h
    exact (taking.list first).trans fun vs derives =>
      (taking.list second).link fun us derived => .compare c derives derived
  · cases h
    exact (taking.list first).mono fun us derives => .alone derives

theorem succ_list {ts rest : List Token} {f : Formula}
    (h : readList (fuel + 1) ts = .ok (f, rest)) : Takes .list [] ts f rest := by
  rw [readList] at h
  obtain ⟨⟨first, mid⟩, read, h⟩ := bind_eq_ok h
  dsimp only at h
  split at h
  · obtain ⟨values, plain, h⟩ := bind_eq_ok h
    cases literals_eq_ok plain
    exact (taking.atom read).trans fun us derives => taking.listTail (.single derives) h
  · cases h
    exact (taking.atom read).mono fun us derives => .single derives

theorem succ_listTail {values : List Scalar} {f : Formula} {before ts rest : List Token}
    (hl : Derives .list before (.literal values))
    (h : readListTail (fuel + 1) values ts = .ok (f, rest)) : Takes .list before ts f rest := by
  unfold readListTail at h
  split at h
  · next us =>
    obtain ⟨⟨next, mid⟩, read, h⟩ := bind_eq_ok h
    obtain ⟨more, plain, h⟩ := bind_eq_ok h
    cases literals_eq_ok plain
    have link : Takes .list before (.colon :: us) (.literal (values ++ more)) mid :=
      (taking.atom read).link fun vs derives => .join hl derives
    exact link.trans fun vs derives => taking.listTail derives h
  · cases h
    exact takes_nil hl

theorem succ_atom {ts rest : List Token} {f : Formula}
    (h : readAtom (fuel + 1) ts = .ok (f, rest)) : Takes .atom [] ts f rest := by
  unfold readAtom at h
  split at h
  · obtain ⟨⟨inner, mid⟩, read, h⟩ := bind_eq_ok h
    obtain ⟨last, closed, h⟩ := bind_eq_ok h
    cases h
    cases expect_eq_ok closed
    obtain ⟨vs, rfl, derives⟩ := taking.either read
    exact ⟨.opening :: (vs ++ [Token.closing]), by simp, .enclosed derives⟩
  · cases h
    exact ⟨[_], rfl, .text _⟩
  · cases h
    exact ⟨[_], rfl, .number _⟩
  · cases h
    exact ⟨[_], rfl, .field _⟩
  · obtain ⟨mid, opened, h⟩ := bind_eq_ok h
    cases expect_eq_ok opened
    obtain ⟨vs, rfl, derives⟩ := taking.call h
    exact ⟨_ :: .opening :: vs, rfl, derives⟩
  · cases h
  · cases h

theorem succ_call {name : String} {ts rest : List Token} {f : Formula}
    (h : readCall (fuel + 1) name ts = .ok (f, rest)) :
    Takes .atom [.function name, .opening] ts f rest := by
  rw [readCall] at h
  split at h
  · cases h
  · next known =>
    obtain ⟨⟨inner, mid⟩, read, h⟩ := bind_eq_ok h
    obtain ⟨last, closed, h⟩ := bind_eq_ok h
    cases h
    cases expect_eq_ok closed
    obtain ⟨vs, rfl, derives⟩ := taking.either read
    exact ⟨vs ++ [.closing], by simp, .lowerCase known derives⟩
  · next place known =>
    obtain ⟨⟨text, mid⟩, first, h⟩ := bind_eq_ok h
    obtain ⟨behind, parted, h⟩ := bind_eq_ok h
    obtain ⟨⟨pattern, last⟩, second, h⟩ := bind_eq_ok h
    obtain ⟨rest, closed, h⟩ := bind_eq_ok h
    cases h
    cases expect_eq_ok parted
    cases expect_eq_ok closed
    obtain ⟨us, rfl, derives⟩ := taking.either first
    obtain ⟨vs, rfl, derived⟩ := taking.either second
    exact ⟨us ++ .semicolon :: (vs ++ [.closing]), by simp, .matching known derives derived⟩

theorem succ : Taking (fuel + 1) :=
  ⟨taking.succ_either, taking.succ_eitherTail, taking.succ_both, taking.succ_bothTail,
    taking.succ_negation, taking.succ_compare, taking.succ_list, taking.succ_listTail,
    taking.succ_atom, taking.succ_call⟩

omit taking in
theorem all (fuel : Nat) : Taking fuel := by
  induction fuel with
  | zero => exact zero
  | succ fuel ih => exact ih.succ

end Taking

/-- What is read as a formula derives it. -/
theorem derives_of_ofTokens {ts : List Token} {f : Formula} (h : ofTokens ts = .ok f) :
    Derives .disjunction ts f := by
  rw [ofTokens] at h
  obtain ⟨⟨g, rest⟩, read, h⟩ := bind_eq_ok h
  cases rest with
  | cons t us => cases h
  | nil =>
    cases h
    obtain ⟨us, rfl, derives⟩ := (Taking.all _).either read
    rwa [List.append_nil]

/-- Neighbours of which the first is a number and the second a field. -/
def Clash (t u : Token) : Prop := (∃ n, t = .number n) ∧ ∃ name, u = .field name

theorem not_clash_of_left {t u : Token} (h : ∀ n, t ≠ .number n) : ¬ Clash t u := by
  rintro ⟨⟨n, rfl⟩, -⟩
  exact h n rfl

theorem not_clash_of_right {t u : Token} (h : ∀ name, u ≠ .field name) : ¬ Clash t u := by
  rintro ⟨-, name, rfl⟩
  exact h name rfl

def Unclashing (ts : List Token) : Prop := ts.IsChain fun t u => ¬ Clash t u

theorem Unclashing.joined {ts us : List Token} {joint : Token} (hn : ∀ n, joint ≠ .number n)
    (hf : ∀ name, joint ≠ .field name) (ht : Unclashing ts) (hu : Unclashing us) :
    Unclashing (ts ++ joint :: us) := by
  refine List.isChain_append.mpr ⟨ht, ?_, ?_⟩
  · refine List.isChain_cons.mpr ⟨fun u _ => not_clash_of_left hn, hu⟩
  · rintro t - u hu
    rw [List.head?_cons, Option.mem_def, Option.some.injEq] at hu
    subst hu
    exact not_clash_of_right hf

theorem Unclashing.cons {ts : List Token} {first : Token} (hn : ∀ n, first ≠ .number n)
    (ht : Unclashing ts) : Unclashing (first :: ts) :=
  List.isChain_cons.mpr ⟨fun _ _ => not_clash_of_left hn, ht⟩

theorem Unclashing.closed {ts : List Token} (ht : Unclashing ts) : Unclashing (ts ++ [.closing]) :=
  ht.joined (by simp) (by simp) List.isChain_nil

theorem Derives.unclashing {level : Level} {ts : List Token} {f : Formula}
    (h : Derives level ts f) : Unclashing ts := by
  induction h with
  | conjunct _ ih => exact ih
  | either _ _ ih ih' => exact ih.joined (by simp) (by simp) ih'
  | unary _ ih => exact ih
  | both _ _ ih ih' => exact ih.joined (by simp) (by simp) ih'
  | affirmed _ ih => exact ih
  | negation _ ih => exact ih.cons (by simp)
  | alone _ ih => exact ih
  | compare c _ _ ih ih' => exact ih.joined (by simp) (by simp) ih'
  | single _ ih => exact ih
  | join _ _ ih ih' => exact ih.joined (by simp) (by simp) ih'
  | enclosed _ ih => exact ih.closed.cons (by simp)
  | text | number | field => exact List.isChain_singleton _
  | lowerCase _ _ ih => exact (ih.closed.cons (by simp)).cons (by simp)
  | matching _ _ _ ih ih' =>
    exact ((ih.joined (by simp) (by simp) ih'.closed).cons (by simp)).cons (by simp)

theorem unclashing_of_ofTokens {ts : List Token} {f : Formula} (h : ofTokens ts = .ok f) :
    Unclashing ts := (derives_of_ofTokens h).unclashing

end AddressBook.Formula
