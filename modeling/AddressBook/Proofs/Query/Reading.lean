import AddressBook.Proofs.Formula.Grammar
import AddressBook.Proofs.Formula.Scan
import AddressBook.Query.Basic

/-! Queries as the directory reads them. The written form of a query scans to tokens that derive the
formula of the query from the grammar, so that reading gives this formula back. This needs fields
that are identifiers and numbers that are written as decimals; one with an exponent would be cut in
two. -/

namespace AddressBook.Query

open Formula Text

namespace Literal

def Readable : Literal → Prop
  | .text _ => True
  | .number json => Number.IsSigned json.compact.toList

def scalar : Literal → Scalar
  | .text s => .text s
  | .number json => .number ((Number.read? json.compact).getD .nan)

def token (l : Literal) : Token :=
  match l.scalar with
  | .text s => .text s
  | .number n => .number n

theorem derives (l : Literal) : Derives .atom [l.token] (.literal [l.scalar]) := by
  rw [token]
  cases l.scalar with
  | text s => exact .text s
  | number n => exact .number n

theorem scans {l : Literal} (h : l.Readable) {d : Char} {rest : List Char}
    (hd : isNumeral d = false) : Scans l.write.toList [l.token] (d :: rest) := by
  cases l with
  | text s => exact scans_quote s _
  | number json =>
    obtain ⟨n, read, scans⟩ := scans_signed h hd
    rw [String.ofList_toList] at read
    have value : (Literal.number json).token = .number n := by rw [token, scalar, read]; rfl
    rw [write, value]
    exact scans

end Literal

namespace Literal

def listTokens : List Literal → List Token
  | [] => []
  | l :: ls => l.token :: ls.flatMap fun m => [.colon, m.token]

def listText (ls : List Literal) : List Char := (Text.join ":" (ls.map write)).toList

@[simp]
theorem listText_cons (l : Literal) (ls : List Literal) :
    listText (l :: ls) = l.write.toList ++ ls.flatMap fun m => ':' :: m.write.toList := by
  rw [listText, Text.join, String.toList_ofList]
  induction ls generalizing l with
  | nil => simp
  | cons m ls ih =>
    have tail := ih m
    simp only [List.map_cons] at tail ⊢
    rw [List.intercalate_cons_cons, tail, List.flatMap_cons]
    simp

theorem derives_joined {ts : List Token} {values : List Scalar}
    (h : Derives .list ts (.literal values)) (ls : List Literal) :
    Derives .list (ts ++ ls.flatMap fun m => [.colon, m.token])
      (.literal (values ++ ls.map scalar)) := by
  induction ls generalizing ts values with
  | nil => simpa using h
  | cons l ls ih =>
    have longer := ih (.join h l.derives)
    simpa using longer

theorem derives_list (l : Literal) (ls : List Literal) :
    Derives .list (listTokens (l :: ls)) (.literal ((l :: ls).map scalar)) :=
  derives_joined (.single l.derives) ls

theorem scans_joined {ls : List Literal} (h : ∀ l ∈ ls, l.Readable) {d : Char} {rest : List Char}
    (hd : isNumeral d = false) :
    Scans (ls.flatMap fun m => ':' :: m.write.toList) (ls.flatMap fun m => [.colon, m.token])
      (d :: rest) := by
  induction ls with
  | nil => exact Scans.nil _
  | cons l ls ih =>
    have readable := h l List.mem_cons_self
    have others := ih fun m hm => h m (List.mem_cons_of_mem l hm)
    have colon : ∀ rest, Scans [':'] [.colon] rest := fun rest => scans_mark rfl rfl
    rw [List.flatMap_cons, List.flatMap_cons]
    have first : Scans l.write.toList [l.token]
        ((ls.flatMap fun m => ':' :: m.write.toList) ++ d :: rest) := by
      cases ls with
      | nil => exact scans readable hd
      | cons m ls => exact scans readable rfl
    exact ((colon _).append first).append others

theorem scans_list {l : Literal} {ls : List Literal} (h : ∀ m ∈ l :: ls, m.Readable) {d : Char}
    {rest : List Char} (hd : isNumeral d = false) :
    Scans (listText (l :: ls)) (listTokens (l :: ls)) (d :: rest) := by
  have readable := h l List.mem_cons_self
  have others : Scans (ls.flatMap fun m => ':' :: m.write.toList)
      (ls.flatMap fun m => [.colon, m.token]) (d :: rest) :=
    scans_joined (fun m hm => h m (List.mem_cons_of_mem l hm)) hd
  have first : Scans l.write.toList [l.token]
      ((ls.flatMap fun m => ':' :: m.write.toList) ++ d :: rest) := by
    cases ls with
    | nil => exact scans readable hd
    | cons m ls => exact scans readable rfl
  rw [listText_cons, listTokens]
  exact first.append others

end Literal

namespace Field

def formula (f : Field) : Formula := if f.lowered then .lowerCase (.field f.name) else .field f.name

def tokens (f : Field) : List Token :=
  if f.lowered then [.function "@LowerCase", .opening, .field f.name, .closing] else [.field f.name]

theorem derives (f : Field) : Derives .atom f.tokens f.formula := by
  rw [tokens, formula]
  split
  · have name : Derives .disjunction [.field f.name] (.field f.name) :=
      .conjunct (.unary (.affirmed (.alone (.single (.field _)))))
    exact .lowerCase rfl name
  · exact .field _

theorem scans_name {name : String} (h : isIdentifier name = true) {d : Char} {rest : List Char}
    (hd : isWordChar d = false) : Scans name.toList [.field name] (d :: rest) := by
  rw [isIdentifier] at h
  split at h
  · cases h
  · next c cs hcs =>
    simp only [Bool.and_eq_true, List.all_eq_true] at h
    obtain ⟨start, others⟩ := h
    have digit := not_isDigit_of_isIdentifierStart start
    have other : ∀ m ∈ '"' :: '@' :: '-' :: marks, c ≠ m := by
      rintro m hm rfl
      have none : ('"' :: '@' :: '-' :: marks).any isIdentifierStart = false := by decide
      exact List.any_eq_false.mp none c hm start
    have starts : startsNumber (c :: cs ++ d :: rest) = false := by
      rw [List.cons_append, startsNumber]
      · exact digit
      · rintro _ _ rfl
        exact absurd rfl (other '-' (by decide))
    have token : wordToken (c :: cs) = .field name := by
      have sign : (some c == some '@') = false := by simpa using other '@' (by decide)
      rw [wordToken, List.head?_cons, sign, if_neg Bool.false_ne_true, ← hcs, String.ofList_toList]
    rw [hcs, ← token]
    exact scans_word (isBlank_of_isIdentifierStart start)
      (fun hm => other c (by simp only [List.mem_cons]; simp [hm]) rfl) (other '"' (by decide))
      starts (isWordStart_of_isIdentifierStart start)
      (fun a ha => isWordChar_of_isIdentifierChar (others a ha)) hd

theorem scans {f : Field} (h : isIdentifier f.name = true) {d : Char} {rest : List Char}
    (hd : isWordChar d = false) : Scans f.write.toList f.tokens (d :: rest) := by
  rw [write, tokens]
  split
  · have function : Scans "@LowerCase".toList [.function "@LowerCase"]
        ('(' :: (f.name.toList ++ ')' :: d :: rest)) :=
      scans_function "LowerCase" (by decide) (by decide) (by decide)
    have opening : Scans ['('] [.opening] (f.name.toList ++ ')' :: d :: rest) := scans_mark rfl rfl
    have closing : Scans [')'] [.closing] (d :: rest) := scans_mark rfl rfl
    have name : Scans f.name.toList [.field f.name] (')' :: d :: rest) := scans_name h (by decide)
    have whole := ((function.append opening).append name).append closing
    have text : "@LowerCase(".toList = "@LowerCase".toList ++ ['('] := by decide
    rw [String.toList_append, String.toList_append, text]
    exact whole
  · exact scans_name h hd

end Field

/-- The formula that a query is read as. -/
def formula : Query → Formula
  | .equality negated f values =>
    .compare (if negated then .unequal else .equal) f.formula
      (.literal (values.map Literal.scalar))
  | .ordering relation name value =>
    .compare (.ordered relation) (.field name) (.literal [value.scalar])
  | .matching negated place f value =>
    let found := .matching place f.formula (.literal [value.scalar])
    if negated then .negation found else found
  | .both left right => .both left.formula right.formula
  | .either left right => .either left.formula right.formula

def tokens : Query → List Token
  | .equality negated f values =>
    .opening :: (f.tokens ++ .comparison (if negated then .unequal else .equal) ::
      Literal.listTokens values) ++ [.closing]
  | .ordering relation name value =>
    [.field name, .comparison (.ordered relation), value.token]
  | .matching negated place f value =>
    (if negated then [.negation] else []) ++ .function place.function :: .opening ::
      (f.tokens ++ .semicolon :: ([value.token] ++ [.closing]))
  | .both left right =>
    (.opening :: (left.tokens ++ [.closing])) ++ .both :: .opening :: (right.tokens ++ [.closing])
  | .either left right =>
    (.opening :: (left.tokens ++ [.closing])) ++ .either :: .opening :: (right.tokens ++ [.closing])

def Readable : Query → Prop
  | .equality _ f values =>
    isIdentifier f.name = true ∧ values ≠ [] ∧ ∀ l ∈ values, l.Readable
  | .ordering _ name value => isIdentifier name = true ∧ value.Readable
  | .matching _ _ f value => isIdentifier f.name = true ∧ value.Readable
  | .both left right => left.Readable ∧ right.Readable
  | .either left right => left.Readable ∧ right.Readable

theorem conjunction_of_atom {ts : List Token} {f : Formula} (h : Derives .atom ts f) :
    Derives .conjunction ts f := .unary (.affirmed (.alone (.single h)))

theorem disjunction_of_atom {ts : List Token} {f : Formula} (h : Derives .atom ts f) :
    Derives .disjunction ts f := .conjunct (conjunction_of_atom h)

theorem disjunction_of_comparison {ts : List Token} {f : Formula} (h : Derives .comparison ts f) :
    Derives .disjunction ts f := .conjunct (.unary (.affirmed h))

theorem ofName?_function (place : Place) :
    Function.ofName? place.function = some (.matching place) := by
  cases place <;> decide

theorem derives {q : Query} (h : q.Readable) : Derives .disjunction q.tokens q.formula := by
  induction q with
  | equality negated f values =>
    obtain ⟨_, nonempty, _⟩ := h
    obtain ⟨l, ls, rfl⟩ := List.exists_cons_of_ne_nil nonempty
    have inner := Derives.compare (if negated then .unequal else .equal) (.single f.derives)
      (Literal.derives_list l ls)
    exact disjunction_of_atom (.enclosed (disjunction_of_comparison inner))
  | ordering relation name value =>
    have item : Derives .list [.field name] (.field name) := .single (.field name)
    exact disjunction_of_comparison (.compare (.ordered relation) item (.single value.derives))
  | matching negated place f value =>
    have found := Derives.matching (ofName?_function place) (disjunction_of_atom f.derives)
      (disjunction_of_atom value.derives)
    cases negated with
    | false => exact disjunction_of_atom found
    | true => exact .conjunct (.unary (.negation (.affirmed (.alone (.single found)))))
  | both left right ihl ihr =>
    exact .conjunct (.both (conjunction_of_atom (.enclosed (ihl h.1)))
      (.affirmed (.alone (.single (.enclosed (ihr h.2))))))
  | either left right ihl ihr =>
    exact .either (disjunction_of_atom (.enclosed (ihl h.1)))
      (conjunction_of_atom (.enclosed (ihr h.2)))

theorem scans_enclosed {cs : List Char} {ts : List Token} {rest : List Char}
    (h : Scans cs ts (')' :: rest)) :
    Scans ('(' :: (cs ++ [')'])) (.opening :: (ts ++ [.closing])) rest := by
  have opening : Scans ['('] [.opening] (cs ++ [')'] ++ rest) := scans_mark rfl rfl
  have closing : Scans [')'] [.closing] rest := scans_mark rfl rfl
  exact opening.append (Scans.append (by simpa using h) closing)

theorem scans_equalityHead (negated : Bool) {f : Field} (hf : isIdentifier f.name = true)
    (rest : List Char) :
    Scans ('(' :: (f.write.toList ++ (if negated then "!=" else "=").toList))
      (.opening :: (f.tokens ++ [.comparison (if negated then .unequal else .equal)])) rest := by
  have opening : ∀ rest, Scans ['('] [.opening] rest := fun rest => scans_mark rfl rfl
  cases negated with
  | false =>
    have sign : Scans ['='] [.comparison .equal] rest := scans_mark rfl rfl
    exact (opening _).append ((Field.scans hf (by decide)).append sign)
  | true =>
    have sign : Scans ['!', '='] [.comparison .unequal] rest := scans_mark rfl rfl
    exact (opening _).append ((Field.scans hf (by decide)).append sign)

theorem toList_write_equality (negated : Bool) (f : Field) (values : List Literal) :
    (Query.equality negated f values).write.toList =
      '(' :: (f.write.toList ++ (if negated then "!=" else "=").toList) ++
        (Literal.listText values ++ [')']) := by
  have outer : "(".toList = ['('] ∧ ")".toList = [')'] := ⟨rfl, rfl⟩
  simp only [write, String.toList_append, outer.1, outer.2]
  simp [Literal.listText]

theorem scans_equality {f : Field} {l : Literal} {ls : List Literal} (negated : Bool)
    (hf : isIdentifier f.name = true) (hl : ∀ m ∈ l :: ls, m.Readable) (rest : List Char) :
    Scans (Query.equality negated f (l :: ls)).write.toList
      (Query.equality negated f (l :: ls)).tokens rest := by
  have list : Scans (Literal.listText (l :: ls)) (Literal.listTokens (l :: ls)) (')' :: rest) :=
    Literal.scans_list hl (by decide)
  have closing : Scans [')'] [.closing] rest := scans_mark rfl rfl
  have whole := (scans_equalityHead negated hf _).append (list.append closing)
  rw [toList_write_equality]
  simpa [tokens] using whole

theorem scans_orderingHead (relation : Relation) {name : String} (hn : isIdentifier name = true)
    (rest : List Char) :
    Scans (name.toList ++ ' ' :: (relation.symbol.toList ++ [' ']))
      [.field name, .comparison (.ordered relation)] rest := by
  have blank : ∀ rest, Scans [' '] [] rest := fun rest => scans_blank rfl
  have symbol : Scans relation.symbol.toList [.comparison (.ordered relation)] (' ' :: rest) := by
    cases relation <;> exact scans_mark rfl rfl
  exact (Field.scans_name hn (by decide)).append ((blank _).append (symbol.append (blank rest)))

theorem toList_write_ordering (relation : Relation) (name : String) (value : Literal) :
    (Query.ordering relation name value).write.toList =
      name.toList ++ ' ' :: (relation.symbol.toList ++ [' ']) ++ value.write.toList := by
  have space : " ".toList = [' '] := rfl
  simp only [write, String.toList_append, space]
  simp

theorem scans_ordering (relation : Relation) {name : String} {value : Literal}
    (hn : isIdentifier name = true) (hv : value.Readable) (rest : List Char) :
    Scans (Query.ordering relation name value).write.toList
      (Query.ordering relation name value).tokens (')' :: rest) := by
  have last : Scans value.write.toList [value.token] (')' :: rest) :=
    Literal.scans hv (by decide)
  rw [toList_write_ordering]
  exact (scans_orderingHead relation hn _).append last

theorem scans_place (place : Place) (rest : List Char) :
    Scans place.function.toList [.function place.function] ('(' :: rest) := by
  cases place with
  | anywhere => exact scans_function "Contains" (by decide) (by decide) (by decide)
  | atStart => exact scans_function "Begins" (by decide) (by decide) (by decide)
  | atEnd => exact scans_function "Ends" (by decide) (by decide) (by decide)

theorem scans_negation (place : Place) (rest : List Char) :
    Scans ['!'] [.negation] (place.function.toList ++ rest) := by
  cases place <;> exact scans_mark rfl rfl

theorem scans_matchingHead (negated : Bool) (place : Place) {f : Field}
    (hf : isIdentifier f.name = true) (rest : List Char) :
    Scans ((if negated then "!" else "").toList ++
        (place.function.toList ++ '(' :: (f.write.toList ++ [';', ' '])))
      ((if negated then [.negation] else []) ++
        .function place.function :: .opening :: (f.tokens ++ [.semicolon])) rest := by
  have opening : ∀ rest, Scans ['('] [.opening] rest := fun rest => scans_mark rfl rfl
  have semicolon : ∀ rest, Scans [';'] [.semicolon] rest := fun rest => scans_mark rfl rfl
  have blank : ∀ rest, Scans [' '] [] rest := fun rest => scans_blank rfl
  have call : Scans (place.function.toList ++ '(' :: (f.write.toList ++ [';', ' ']))
      (.function place.function :: .opening :: (f.tokens ++ [.semicolon])) rest :=
    (scans_place place _).append ((opening _).append
      ((Field.scans hf (by decide)).append ((semicolon _).append (blank rest))))
  cases negated with
  | false => exact call
  | true =>
    have sign : Scans ['!'] [.negation]
        (place.function.toList ++ '(' :: (f.write.toList ++ [';', ' ']) ++ rest) := by
      rw [List.append_assoc]
      exact scans_negation place _
    exact sign.append call

theorem toList_write_matching (negated : Bool) (place : Place) (f : Field) (value : Literal) :
    (Query.matching negated place f value).write.toList =
      (if negated then "!" else "").toList ++
        (place.function.toList ++ '(' :: (f.write.toList ++ [';', ' '])) ++
        (value.write.toList ++ [')']) := by
  have marks : "(".toList = ['('] ∧ "; ".toList = [';', ' '] ∧ ")".toList = [')'] :=
    ⟨rfl, rfl, rfl⟩
  simp only [write, String.toList_append, marks.1, marks.2.1, marks.2.2]
  simp

theorem scans_matching (negated : Bool) (place : Place) {f : Field} {value : Literal}
    (hf : isIdentifier f.name = true) (hv : value.Readable) (rest : List Char) :
    Scans (Query.matching negated place f value).write.toList
      (Query.matching negated place f value).tokens rest := by
  have last : Scans value.write.toList [value.token] (')' :: rest) :=
    Literal.scans hv (by decide)
  have closing : Scans [')'] [.closing] rest := scans_mark rfl rfl
  have whole := (scans_matchingHead negated place hf _).append (last.append closing)
  rw [toList_write_matching]
  simpa [tokens] using whole

theorem scans_connected {cs ds : List Char} {ts us : List Token} {c : Char} {joint : Token}
    (hj : ∀ rest, Scans [c] [joint] (' ' :: rest)) (hc : ∀ rest, Scans cs ts (')' :: rest))
    (hd : ∀ rest, Scans ds us (')' :: rest)) (rest : List Char) :
    Scans ('(' :: (cs ++ [')']) ++ ' ' :: c :: ' ' :: '(' :: (ds ++ [')']))
      (.opening :: (ts ++ [.closing]) ++ joint :: .opening :: (us ++ [.closing])) rest := by
  have blank : ∀ rest, Scans [' '] [] rest := fun rest => scans_blank rfl
  have whole := ((((scans_enclosed (hc _)).append (blank _)).append (hj _)).append
    (blank _)).append (scans_enclosed (hd rest))
  simpa using whole

theorem toList_write_both (left right : Query) :
    (Query.both left right).write.toList =
      '(' :: (left.write.toList ++ [')']) ++ ' ' :: '&' :: ' ' :: '(' :: (right.write.toList ++ [')']) := by
  have marks : "(".toList = ['('] ∧ ") & (".toList = [')', ' ', '&', ' ', '('] ∧
    ")".toList = [')'] := ⟨rfl, rfl, rfl⟩
  simp only [write, String.toList_append, marks.1, marks.2.1, marks.2.2]
  simp

theorem toList_write_either (left right : Query) :
    (Query.either left right).write.toList =
      '(' :: (left.write.toList ++ [')']) ++ ' ' :: '|' :: ' ' :: '(' :: (right.write.toList ++ [')']) := by
  have marks : "(".toList = ['('] ∧ ") | (".toList = [')', ' ', '|', ' ', '('] ∧
    ")".toList = [')'] := ⟨rfl, rfl, rfl⟩
  simp only [write, String.toList_append, marks.1, marks.2.1, marks.2.2]
  simp

theorem scans {q : Query} (h : q.Readable) (rest : List Char) :
    Scans q.write.toList q.tokens (')' :: rest) := by
  induction q generalizing rest with
  | equality negated f values =>
    obtain ⟨identifier, nonempty, readable⟩ := h
    obtain ⟨l, ls, rfl⟩ := List.exists_cons_of_ne_nil nonempty
    exact scans_equality negated identifier readable _
  | ordering relation name value => exact scans_ordering relation h.1 h.2 rest
  | matching negated place f value => exact scans_matching negated place h.1 h.2 _
  | both left right ihl ihr =>
    have joint : ∀ rest, Scans ['&'] [.both] (' ' :: rest) := fun rest => scans_mark rfl rfl
    rw [toList_write_both]
    exact scans_connected joint (ihl h.1) (ihr h.2) (')' :: rest)
  | either left right ihl ihr =>
    have joint : ∀ rest, Scans ['|'] [.either] (' ' :: rest) := fun rest => scans_mark rfl rfl
    rw [toList_write_either]
    exact scans_connected joint (ihl h.1) (ihr h.2) (')' :: rest)

theorem isEmpty_of_scans {text : String} {ts : List Token} (hs : Scans text.toList ts [')'])
    (hts : 0 < ts.length) : text.isEmpty = false := by
  rw [Bool.eq_false_iff]
  intro empty
  have none : text.toList = [] := by simpa [String.isEmpty_iff] using empty
  have closing : scan [')'] = .ok [.closing] := (scans_mark rfl rfl : Scans [')'] [_] []).scan_eq
  rw [none, Scans, List.nil_append, closing] at hs
  have tokens : [Token.closing] = ts ++ [.closing] := Except.ok.inj hs
  have lengths := congrArg List.length tokens
  simp only [List.length_append, List.length_singleton] at lengths
  omega

def formFormula (kind : EntryClass) : Formula :=
  .compare .equal (.field "Form") (.literal [.text kind.form])

def formTokens (kind : EntryClass) : List Token :=
  [.opening, .field "Form", .comparison .equal, .text kind.form, .closing]

theorem derives_form (kind : EntryClass) : Derives .atom (formTokens kind) (formFormula kind) := by
  have item : Derives .list [.field "Form"] (.field "Form") := .single (.field "Form")
  have form : Derives .list [.text kind.form] (.literal [.text kind.form]) :=
    .single (.text kind.form)
  exact .enclosed (disjunction_of_comparison (.compare .equal item form))

theorem scans_form (kind : EntryClass) (rest : List Char) :
    Scans ("(Form = " ++ quote kind.form ++ ")").toList (formTokens kind) rest := by
  have opening : ∀ rest, Scans ['('] [.opening] rest := fun rest => scans_mark rfl rfl
  have blank : ∀ rest, Scans [' '] [] rest := fun rest => scans_blank rfl
  have closing : Scans [')'] [.closing] rest := scans_mark rfl rfl
  have equal : ∀ rest, Scans ['='] [.comparison .equal] (' ' :: rest) :=
    fun rest => scans_mark rfl rfl
  have name : ∀ rest, Scans "Form".toList [.field "Form"] (' ' :: rest) :=
    fun rest => Field.scans_name (by decide) (by decide)
  have whole := ((((((opening _).append (name _)).append (blank _)).append (equal _)).append
    (blank _)).append (scans_quote kind.form _)).append closing
  have marks : "(Form = ".toList = '(' :: "Form".toList ++ [' ', '=', ' '] ∧ ")".toList = [')'] :=
    ⟨by decide, rfl⟩
  rw [String.toList_append, String.toList_append, marks.1, marks.2, formTokens]
  simpa using whole

theorem read_eq {text : String} {ts : List Token} {f : Formula} (hs : Scans text.toList ts [])
    (hd : Derives .disjunction ts f) : Formula.read text = .ok f := by
  rw [Formula.read, hs.scan_eq, Except.bind, ofTokens_of_derives hd]
  rfl

theorem read_confined_some (kind : EntryClass) {text : String} {ts : List Token} {f : Formula}
    (hs : ∀ rest, Scans text.toList ts (')' :: rest)) (hd : Derives .disjunction ts f) :
    Formula.read (confined kind (some text)) = .ok (.both (formFormula kind) f) := by
  have nonempty := isEmpty_of_scans (hs []) hd.length_pos
  have whole := scans_enclosed (hs [])
  have blank : ∀ rest, Scans [' '] [] rest := fun rest => scans_blank rfl
  have both : ∀ rest, Scans ['&'] [.both] rest := fun rest => scans_mark rfl rfl
  have scanned := ((((scans_form kind _).append (blank _)).append (both _)).append
    (blank _)).append whole
  rw [confined]
  simp only [nonempty, Bool.false_eq_true, if_false]
  have derived : Derives .disjunction (formTokens kind ++ .both :: .opening :: (ts ++ [.closing]))
      (.both (formFormula kind) f) :=
    .conjunct (.both (conjunction_of_atom (derives_form kind))
      (.affirmed (.alone (.single (.enclosed hd)))))
  refine read_eq ?_ derived
  have marks : " & (".toList = [' ', '&', ' ', '('] ∧ ")".toList = [')'] := ⟨rfl, rfl⟩
  rw [String.toList_append, String.toList_append (t := text), marks.2,
    String.toList_append (t := " & ("), marks.1]
  simpa using scanned

def confinedFormula (kind : EntryClass) : Option Query → Formula
  | none => formFormula kind
  | some q => .both (formFormula kind) q.formula

theorem read_confined (kind : EntryClass) {query : Option Query} (h : ∀ q ∈ query, q.Readable) :
    Formula.read (confined kind (query.map write)) = .ok (confinedFormula kind query) := by
  cases query with
  | none => exact read_eq (scans_form kind []) (disjunction_of_atom (derives_form kind))
  | some q => exact read_confined_some kind (scans (h q rfl)) (derives (h q rfl))

end AddressBook.Query
