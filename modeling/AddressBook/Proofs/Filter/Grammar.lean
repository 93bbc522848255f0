import AddressBook.Filter.Reader
import AddressBook.Proofs.Number.Whole
import AddressBook.Proofs.Text.Identifier
import AddressBook.Proofs.Text.Lowering
import AddressBook.Proofs.Text.Trimming

/-! The grammar of written filters, with one level for each strength of binding. Nothing in a derived
text is blank at its ends, and brackets and quotes outside of each other come in pairs. -/

namespace AddressBook

namespace Filter

open Text

def Operator.word : Operator → String
  | .equal => "eq"
  | .unequal => "ne"
  | .holdsAll => "ca"
  | .ordered .greater => "gt"
  | .ordered .atLeast => "ge"
  | .ordered .less => "lt"
  | .ordered .atMost => "le"
  | .matching .anywhere => "co"
  | .matching .atStart => "sw"
  | .matching .atEnd => "ew"

/-- What an operator says of an attribute and one value. -/
def Operator.filter (name : String) (value : Json) : Operator → Filter
  | .equal => .equals name [value]
  | .unequal => .negation (.equals name [value])
  | .holdsAll => .containsAll name [value]
  | .ordered relation => .ordered relation name value
  | .matching place => .matching place name value

def isReserved (name : String) : Bool := ["and", "or", "not"].any (sameAscii name)

inductive Decimal : List Char → Int → Prop
  | unsigned {digits : List Char} (h : isDigits digits = true) : Decimal digits (digitsValue digits)
  | positive {digits : List Char} (h : isDigits digits = true) :
      Decimal ('+' :: digits) (digitsValue digits)
  | negative {digits : List Char} (h : isDigits digits = true) :
      Decimal ('-' :: digits) (-(digitsValue digits : Int))

/-- The ways in which a value is written. -/
inductive WrittenValue : List Char → Json → Prop
  | truth : WrittenValue "true".toList (.bool true)
  | falsity : WrittenValue "false".toList (.bool false)
  | integer {cs : List Char} {i : Int} (h : Decimal cs i) (low : Int.least64 ≤ i)
      (high : i ≤ Int.most64) : WrittenValue cs (.integer i)
  | text (s : String) : WrittenValue (quote s).toList (.text s)

inductive Level where
  | disjunction
  | conjunction
  | negation
  deriving DecidableEq

/-- The texts of a level and the filter that each stands for. -/
inductive Derives : Level → List Char → Filter → Prop
  | leaf {name : String} {cs : List Char} {value : Json} (operator : Operator)
      (identifier : isIdentifier name = true) (free : isReserved name = false)
      (h : WrittenValue cs value) :
      Derives .negation (name.toList ++ ' ' :: (operator.word.toList ++ ' ' :: cs))
        (operator.filter name value)
  | enclosed {cs : List Char} {f : Filter} (h : Derives .disjunction cs f) :
      Derives .negation ('(' :: (cs ++ [')'])) f
  | negation {cs : List Char} {f : Filter} (h : Derives .negation cs f) :
      Derives .negation ("not ".toList ++ cs) (.negation f)
  | single {cs : List Char} {f : Filter} (h : Derives .negation cs f) : Derives .conjunction cs f
  | both {cs ds : List Char} {f g : Filter} (left : Derives .negation cs f)
      (right : Derives .conjunction ds g) :
      Derives .conjunction (cs ++ (" and ".toList ++ ds)) (.both f g)
  | only {cs : List Char} {f : Filter} (h : Derives .conjunction cs f) : Derives .disjunction cs f
  | either {cs ds : List Char} {f g : Filter} (left : Derives .conjunction cs f)
      (right : Derives .disjunction ds g) :
      Derives .disjunction (cs ++ (" or ".toList ++ ds)) (.either f g)

end Filter

namespace Text

def isSolid (c : Char) : Bool :=
  let n := c.toNat
  (48 ≤ n && n ≤ 57) || (65 ≤ n && n ≤ 90) || (97 ≤ n && n ≤ 122) || n == 95 || n == 43 || n == 45

theorem isSolid_iff {c : Char} : isSolid c = true ↔
    48 ≤ c.toNat ∧ c.toNat ≤ 57 ∨ 65 ≤ c.toNat ∧ c.toNat ≤ 90 ∨ 97 ≤ c.toNat ∧ c.toNat ≤ 122 ∨
      c.toNat = 95 ∨ c.toNat = 43 ∨ c.toNat = 45 := by
  simp [isSolid, or_assoc]

theorem isSolid_of_isDigit {c : Char} (h : c.isDigit = true) : isSolid c = true :=
  isSolid_iff.mpr (Or.inl (toNat_of_isDigit h))

theorem isSolid_of_isIdentifierChar {c : Char} (h : isIdentifierChar c = true) :
    isSolid c = true := by
  rw [isIdentifierChar, Bool.or_eq_true] at h
  rcases h with start | digit
  · have bounds := toNat_of_isIdentifierStart start
    rw [isSolid_iff]
    omega
  · exact isSolid_of_isDigit digit

theorem isBlank_of_isSolid {c : Char} (h : isSolid c = true) : isBlank c = false := by
  have bounds := isSolid_iff.mp h
  simp only [isBlank, Bool.or_eq_false_iff, Bool.and_eq_false_iff, beq_eq_false_iff_ne,
    decide_eq_false_iff_not]
  omega

theorem isSolid_toLower {c : Char} (h : isSolid c = true) : isSolid c.toLower = true := by
  have lowered := toNat_toLower c
  rw [isSolid_iff] at *
  split at lowered <;> omega

theorem ne_of_isSolid {c d : Char} (h : isSolid c = true) (hd : isSolid d = false) : c ≠ d := by
  rintro rfl
  rw [h] at hd
  cases hd

theorem exists_of_isIdentifier {s : String} (h : isIdentifier s = true) :
    ∃ c cs, s.toList = c :: cs ∧ isIdentifierStart c = true ∧ ∀ d ∈ s.toList, isSolid d = true := by
  obtain ⟨c, cs, chars, start, all⟩ := chars_of_isIdentifier h
  exact ⟨c, cs, chars, start, fun d hd => isSolid_of_isIdentifierChar (all d hd)⟩

def Firm (cs : List Char) : Prop :=
  (∃ c ds, cs = c :: ds ∧ isBlank c = false) ∧ ∃ ds c, cs = ds ++ [c] ∧ isBlank c = false

namespace Firm

variable {cs ds : List Char}

theorem ne_nil (h : Firm cs) : cs ≠ [] := by
  obtain ⟨⟨c, rest, rfl, -⟩, -⟩ := h
  exact List.cons_ne_nil c rest

theorem trimChars_eq (h : Firm cs) : trimChars cs = cs := by
  refine trimChars_eq_self (fun c hc => ?_) fun c hc => ?_
  · obtain ⟨⟨first, rest, rfl, solid⟩, -⟩ := h
    rw [List.head?_cons, Option.mem_some_iff] at hc
    rwa [← hc]
  · obtain ⟨-, rest, last, rfl, solid⟩ := h
    rw [List.getLast?_concat, Option.mem_some_iff] at hc
    rwa [← hc]

theorem append (h : Firm cs) (middle : List Char) (h' : Firm ds) : Firm (cs ++ (middle ++ ds)) := by
  obtain ⟨⟨first, rest, rfl, solid⟩, -⟩ := h
  obtain ⟨-, front, last, rfl, solid'⟩ := h'
  exact ⟨⟨first, _, rfl, solid⟩, first :: rest ++ (middle ++ front), last, by simp, solid'⟩

theorem of_solid (hne : cs ≠ []) (h : ∀ c ∈ cs, isSolid c = true) : Firm cs := by
  refine ⟨?_, cs.dropLast, cs.getLast hne, (List.dropLast_concat_getLast hne).symm,
    isBlank_of_isSolid (h _ (List.getLast_mem hne))⟩
  obtain ⟨c, rest, rfl⟩ := List.exists_cons_of_ne_nil hne
  exact ⟨c, rest, rfl, isBlank_of_isSolid (h c List.mem_cons_self)⟩

end Firm

theorem firm_quote (s : String) : Firm (quote s).toList := by
  rw [quote, String.toList_ofList]
  exact ⟨⟨'"', _, rfl, rfl⟩, '"' :: escapeChars s.toList, '"', rfl, rfl⟩

end Text

namespace Filter

open Text

/-- A text in which brackets and quotes outside of each other come in pairs. -/
inductive Balanced : List Char → Prop
  | nil : Balanced []
  | solid {c : Char} {cs : List Char} (hc : isSolid c = true) (h : Balanced cs) : Balanced (c :: cs)
  | blank {cs : List Char} (h : Balanced cs) : Balanced (' ' :: cs)
  | quoted (s : String) {cs : List Char} (h : Balanced cs) : Balanced ((quote s).toList ++ cs)
  | bracketed {inner cs : List Char} (hi : Balanced inner) (h : Balanced cs) :
      Balanced ('(' :: (inner ++ ')' :: cs))

namespace Balanced

variable {cs ds : List Char}

theorem append (h : Balanced cs) (h' : Balanced ds) : Balanced (cs ++ ds) := by
  induction h with
  | nil => exact h'
  | solid hc _ ih => exact .solid hc ih
  | blank _ ih => exact .blank ih
  | quoted s _ ih =>
    rw [List.append_assoc]
    exact .quoted s ih
  | bracketed hi _ _ ih =>
    rw [List.cons_append, List.append_assoc, List.cons_append]
    exact .bracketed hi ih

theorem of_solid (h : ∀ c ∈ cs, isSolid c = true) : Balanced cs := by
  induction cs with
  | nil => exact .nil
  | cons c cs ih =>
    exact .solid (h c List.mem_cons_self) (ih fun d hd => h d (List.mem_cons_of_mem c hd))

end Balanced

namespace Operator

theorem solid_word (operator : Operator) : ∀ c ∈ operator.word.toList, isSolid c = true := by
  rw [← List.all_eq_true]
  rcases operator with _ | _ | _ | (_ | _ | _ | _) | (_ | _ | _) <;> decide

def initials : List Char := ['e', 'n', 'c', 's', 'g', 'l']

theorem exists_word (operator : Operator) :
    ∃ a b, operator.word.toList = [a, b] ∧ a ∈ initials ∧ a.toLower = a ∧ b.toLower = b := by
  rcases operator with _ | _ | _ | (_ | _ | _ | _) | (_ | _ | _) <;> exact ⟨_, _, rfl, by decide⟩

end Operator

namespace WrittenValue

variable {cs : List Char} {value : Json}

theorem solid_or_quote (h : WrittenValue cs value) :
    (cs ≠ [] ∧ ∀ c ∈ cs, isSolid c = true) ∨ ∃ s, cs = (quote s).toList := by
  have number : ∀ {digits : List Char}, isDigits digits = true →
      digits ≠ [] ∧ ∀ c ∈ digits, isSolid c = true := by
    intro digits h
    rw [isDigits, Bool.and_eq_true, Bool.not_eq_true', List.all_eq_true] at h
    exact ⟨by simpa using h.1, fun c hc => isSolid_of_isDigit (h.2 c hc)⟩
  cases h with
  | truth => exact Or.inl ⟨by decide, List.all_eq_true.mp (by decide)⟩
  | falsity => exact Or.inl ⟨by decide, List.all_eq_true.mp (by decide)⟩
  | text s => exact Or.inr ⟨s, rfl⟩
  | integer decimal low high =>
    refine Or.inl ?_
    cases decimal with
    | unsigned h => exact number h
    | positive h =>
      exact ⟨List.cons_ne_nil _ _, List.forall_mem_cons.mpr ⟨by decide, (number h).2⟩⟩
    | negative h =>
      exact ⟨List.cons_ne_nil _ _, List.forall_mem_cons.mpr ⟨by decide, (number h).2⟩⟩

theorem exists_cons (h : WrittenValue cs value) :
    ∃ c ds, cs = c :: ds ∧ c.toLower ∉ 'a' :: 'o' :: Operator.initials := by
  have letters : ('a' :: 'o' :: Operator.initials).all (!Char.isDigit ·) = true := by decide
  have number : ∀ {digits : List Char}, isDigits digits = true →
      ∃ c ds, digits = c :: ds ∧ c.toLower ∉ 'a' :: 'o' :: Operator.initials := by
    intro digits h
    cases digits with
    | nil => cases h
    | cons c ds =>
      rw [isDigits, Bool.and_eq_true, List.all_cons, Bool.and_eq_true] at h
      refine ⟨c, ds, rfl, fun hc => ?_⟩
      rw [Number.toLower_of_isDigit h.2.1] at hc
      have letter := List.all_eq_true.mp letters c hc
      rw [h.2.1] at letter
      cases letter
  cases h with
  | truth => exact ⟨_, _, rfl, by decide⟩
  | falsity => exact ⟨_, _, rfl, by decide⟩
  | text s =>
    rw [quote, String.toList_ofList]
    exact ⟨'"', _, rfl, by decide⟩
  | integer decimal low high =>
    cases decimal with
    | unsigned h => exact number h
    | positive h => exact ⟨_, _, rfl, by decide⟩
    | negative h => exact ⟨_, _, rfl, by decide⟩

theorem firm (h : WrittenValue cs value) : Firm cs := by
  rcases h.solid_or_quote with ⟨hne, solid⟩ | ⟨s, rfl⟩
  · exact .of_solid hne solid
  · exact firm_quote s

theorem balanced (h : WrittenValue cs value) : Balanced cs := by
  rcases h.solid_or_quote with ⟨-, solid⟩ | ⟨s, rfl⟩
  · exact .of_solid solid
  · simpa using Balanced.quoted s .nil

end WrittenValue

namespace Derives

variable {level : Level} {cs : List Char} {f : Filter}

theorem firm (h : Derives level cs f) : Firm cs := by
  have word : Firm ['n', 'o', 't'] := .of_solid (by decide) (List.all_eq_true.mp (by decide))
  induction h with
  | leaf operator identifier _ h =>
    obtain ⟨c, rest, chars, -, solid⟩ := exists_of_isIdentifier identifier
    have name := Firm.of_solid (by rw [chars]; exact List.cons_ne_nil c rest) solid
    simpa using name.append (' ' :: (operator.word.toList ++ [' '])) h.firm
  | @enclosed cs _ _ _ => exact ⟨⟨'(', _, rfl, rfl⟩, '(' :: cs, ')', rfl, rfl⟩
  | negation _ ih => exact word.append [' '] ih
  | single _ ih => exact ih
  | both _ _ left right => exact left.append _ right
  | only _ ih => exact ih
  | either _ _ left right => exact left.append _ right

theorem balanced (h : Derives level cs f) : Balanced cs := by
  have word : ∀ {w : List Char}, (∀ c ∈ w, isSolid c = true) → ∀ {cs}, Balanced cs →
      Balanced (w ++ ' ' :: cs) := fun solid _ h => (Balanced.of_solid solid).append (.blank h)
  induction h with
  | leaf operator identifier _ h =>
    obtain ⟨-, -, -, -, solid⟩ := exists_of_isIdentifier identifier
    exact word solid (word operator.solid_word h.balanced)
  | enclosed _ ih => exact .bracketed ih .nil
  | negation _ ih => exact word (w := ['n', 'o', 't']) (List.all_eq_true.mp (by decide)) ih
  | single _ ih => exact ih
  | both _ _ left right =>
    have joined := word (w := ['a', 'n', 'd']) (List.all_eq_true.mp (by decide)) right
    exact left.append (.blank joined)
  | only _ ih => exact ih
  | either _ _ left right =>
    have joined := word (w := ['o', 'r']) (List.all_eq_true.mp (by decide)) right
    exact left.append (.blank joined)

end Derives

end Filter

end AddressBook
