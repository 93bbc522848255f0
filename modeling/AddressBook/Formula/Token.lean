import AddressBook.Formula.Basic
import AddressBook.Number.Reading
import AddressBook.Text.Letter

/-! The tokens of formulas. Blanks separate tokens and mean nothing else. -/

namespace AddressBook.Formula

inductive Token where
  | opening
  | closing
  | both
  | either
  | negation
  /-- Joins literals into a list. -/
  | colon
  /-- Separates the arguments of a function. -/
  | semicolon
  | comparison (c : Comparison)
  | text (s : String)
  | number (n : Number)
  | function (name : String)
  | field (name : String)
  deriving DecidableEq, Repr, Inhabited

/-- How a message shows a token. -/
def Token.description : Token → String
  | .opening => "LParen"
  | .closing => "RParen"
  | .both => "Amp"
  | .either => "Pipe"
  | .negation => "Bang"
  | .colon => "Colon"
  | .semicolon => "Semi"
  | .comparison c => "Op(" ++ c.title ++ ")"
  | .text s => "Str(" ++ Text.quotation s ++ ")"
  | .number n => "Num(" ++ n.write Number.message ++ ")"
  | .function name => "Func(" ++ Text.quotation name ++ ")"
  | .field name => "Ident(" ++ Text.quotation name ++ ")"

/-- Why a text is no formula. -/
inductive Flaw where
  | unterminatedText
  | danglingEscape
  | invalidNumber (text : String)
  | unexpectedCharacter (c : Char)
  | expected (wanted : Token) (found : Option Token)
  | unexpected (found : Option Token)
  | unsupportedFunction (name : String)
  | notALiteral (formula : Formula)
  | trailing
  deriving DecidableEq, Repr

def foundText : Option Token → String
  | some token => "Some(" ++ token.description ++ ")"
  | none => "None"

/-- The wording of a flaw of the given text. -/
def Flaw.reason (input : String) : Flaw → String
  | .unterminatedText => "Unterminated string literal"
  | .danglingEscape => "Dangling escape"
  | .invalidNumber text => "Invalid number: " ++ text
  | .unexpectedCharacter c => "Unexpected character '" ++ String.singleton c ++ "' in formula"
  | .expected wanted found => "Expected " ++ wanted.description ++ ", found " ++ foundText found
  | .unexpected found => "Unexpected token " ++ foundText found
  | .unsupportedFunction name => "Unsupported function " ++ name
  | .notALiteral formula => "Only literals can be joined into a list: " ++ formula.description
  | .trailing => "Trailing input in formula: " ++ input

/-- Reads behind an opening quote: the text, and what follows the closing quote. A backslash takes
the character behind it as it is. -/
def takeText : List Char → Except Flaw (List Char × List Char)
  | [] => .error .unterminatedText
  | '"' :: rest => .ok ([], rest)
  | ['\\'] => .error .danglingEscape
  | '\\' :: c :: rest => (takeText rest).map fun (text, left) => (c :: text, left)
  | c :: rest => (takeText rest).map fun (text, left) => (c :: text, left)

theorem length_takeText {cs text left : List Char} (h : takeText cs = .ok (text, left)) :
    left.length ≤ cs.length := by
  have step : ∀ {c : Char} {rest : List Char} {text left : List Char},
      (takeText rest).map (fun (t, l) => (c :: t, l)) = .ok (text, left) →
        ∃ t, takeText rest = .ok (t, left) := by
    intro c rest text left h
    cases hr : takeText rest with
    | error e => simp [hr, Except.map] at h
    | ok p =>
      obtain ⟨t, l⟩ := p
      simp only [hr, Except.map, Except.ok.injEq, Prod.mk.injEq] at h
      exact ⟨t, by rw [h.2]⟩
  fun_induction takeText cs generalizing text left with
  | case1 => cases h
  | case2 rest => cases h; simp
  | case3 => cases h
  | case4 c rest ih =>
    obtain ⟨t, ht⟩ := step h
    have := ih ht
    simp only [List.length_cons]
    omega
  | case5 c rest _ _ _ ih =>
    obtain ⟨t, ht⟩ := step h
    have := ih ht
    simp only [List.length_cons]
    omega

def isNumeral (c : Char) : Bool := c.isDigit || c == '.'

def isWordStart (c : Char) : Bool := c == '@' || c == '$' || Text.isAlphabetic c || c == '_'

def isWordChar (c : Char) : Bool := Text.isAlphanumeric c || c == '_' || c == '$'

def startsNumber : List Char → Bool
  | '-' :: c :: _ => c.isDigit
  | c :: _ => c.isDigit
  | [] => false

def wordToken (word : List Char) : Token :=
  if word.head? == some '@' then .function (String.ofList word) else .field (String.ofList word)

/-- The token of a mark, and what follows. -/
def mark? : List Char → Option (Token × List Char)
  | '(' :: rest => some (.opening, rest)
  | ')' :: rest => some (.closing, rest)
  | '&' :: rest => some (.both, rest)
  | '|' :: rest => some (.either, rest)
  | ':' :: rest => some (.colon, rest)
  | ';' :: rest => some (.semicolon, rest)
  | '!' :: '=' :: rest => some (.comparison .unequal, rest)
  | '!' :: rest => some (.negation, rest)
  | '=' :: rest => some (.comparison .equal, rest)
  | '<' :: '=' :: rest => some (.comparison (.ordered .atMost), rest)
  | '<' :: rest => some (.comparison (.ordered .less), rest)
  | '>' :: '=' :: rest => some (.comparison (.ordered .atLeast), rest)
  | '>' :: rest => some (.comparison (.ordered .greater), rest)
  | _ => none

theorem length_mark {cs rest : List Char} {token : Token} (h : mark? cs = some (token, rest)) :
    rest.length < cs.length := by
  unfold mark? at h
  split at h <;> cases h <;> simp only [List.length_cons] <;> omega

def scan (cs : List Char) : Except Flaw (List Token) :=
  match cs with
  | [] => .ok []
  | c :: rest =>
    if Text.isBlank c then scan rest
    else
      match _hm : mark? (c :: rest) with
      | some (token, left) => do return token :: (← scan left)
      | none =>
        if c == '"' then
          match _ht : takeText rest with
          | .error flaw => .error flaw
          | .ok (text, left) => do return .text (String.ofList text) :: (← scan left)
        else if startsNumber (c :: rest) then
          let numeral := String.ofList (c :: rest.takeWhile isNumeral)
          match Number.read? numeral with
          | none => .error (.invalidNumber numeral)
          | some n => do return .number n :: (← scan (rest.dropWhile isNumeral))
        else if isWordStart c then do
          return wordToken (c :: rest.takeWhile isWordChar) :: (← scan (rest.dropWhile isWordChar))
        else .error (.unexpectedCharacter c)
termination_by cs.length
decreasing_by
  · simp
  · exact length_mark _hm
  · have := length_takeText _ht; simp; omega
  · have := (List.dropWhile_suffix isNumeral (l := rest)).length_le; simp; omega
  · have := (List.dropWhile_suffix isWordChar (l := rest)).length_le; simp; omega

end AddressBook.Formula
