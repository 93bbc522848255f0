import AddressBook.Formula.Token
import AddressBook.Fault

/-! Reading formulas from tokens. Disjunction binds loosest, then conjunction, then negation, then
comparison, which does not chain, then the joining of literals into a list. -/

namespace AddressBook.Formula

abbrev Step := Except Flaw (Formula × List Token)

def expect (wanted : Token) : List Token → Except Flaw (List Token)
  | [] => .error (.expected wanted none)
  | token :: rest => if token = wanted then .ok rest else .error (.expected wanted (some token))

def literals : Formula → Except Flaw (List Scalar)
  | .literal values => .ok values
  | other => .error (.notALiteral other)

inductive Function where
  | lowerCase
  | matching (place : Place)
  deriving DecidableEq, Repr

/-- Functions are known whatever the case of their names. -/
def Function.ofName? (name : String) : Option Function :=
  match Text.asciiLower name with
  | "@lowercase" => some .lowerCase
  | "@contains" => some (.matching .anywhere)
  | "@begins" => some (.matching .atStart)
  | "@ends" => some (.matching .atEnd)
  | _ => none

mutual

def readEither : Nat → List Token → Step
  | 0, _ => .error (.unexpected none)
  | fuel + 1, tokens => do
    let (first, rest) ← readBoth fuel tokens
    readEitherTail fuel first rest

/-- Reads the further sides of a disjunction. -/
def readEitherTail : Nat → Formula → List Token → Step
  | 0, _, _ => .error (.unexpected none)
  | fuel + 1, left, tokens =>
    match tokens with
    | .either :: rest => do
      let (right, rest) ← readBoth fuel rest
      readEitherTail fuel (.either left right) rest
    | _ => .ok (left, tokens)

def readBoth : Nat → List Token → Step
  | 0, _ => .error (.unexpected none)
  | fuel + 1, tokens => do
    let (first, rest) ← readNegation fuel tokens
    readBothTail fuel first rest

/-- Reads the further sides of a conjunction. -/
def readBothTail : Nat → Formula → List Token → Step
  | 0, _, _ => .error (.unexpected none)
  | fuel + 1, left, tokens =>
    match tokens with
    | .both :: rest => do
      let (right, rest) ← readNegation fuel rest
      readBothTail fuel (.both left right) rest
    | _ => .ok (left, tokens)

def readNegation : Nat → List Token → Step
  | 0, _ => .error (.unexpected none)
  | fuel + 1, tokens =>
    match tokens with
    | .negation :: rest => do
      let (inner, rest) ← readNegation fuel rest
      return (.negation inner, rest)
    | _ => readCompare fuel tokens

def readCompare : Nat → List Token → Step
  | 0, _ => .error (.unexpected none)
  | fuel + 1, tokens => do
    let (left, rest) ← readList fuel tokens
    match rest with
    | .comparison c :: rest =>
      let (right, rest) ← readList fuel rest
      return (.compare c left right, rest)
    | _ => return (left, rest)

def readList : Nat → List Token → Step
  | 0, _ => .error (.unexpected none)
  | fuel + 1, tokens => do
    let (first, rest) ← readAtom fuel tokens
    match rest with
    | .colon :: _ => readListTail fuel (← literals first) rest
    | _ => return (first, rest)

/-- Reads the further members of a list. -/
def readListTail : Nat → List Scalar → List Token → Step
  | 0, _, _ => .error (.unexpected none)
  | fuel + 1, values, tokens =>
    match tokens with
    | .colon :: rest => do
      let (next, rest) ← readAtom fuel rest
      readListTail fuel (values ++ (← literals next)) rest
    | _ => .ok (.literal values, tokens)

def readAtom : Nat → List Token → Step
  | 0, _ => .error (.unexpected none)
  | fuel + 1, tokens =>
    match tokens with
    | .opening :: rest => do
      let (inner, rest) ← readEither fuel rest
      return (inner, ← expect .closing rest)
    | .text s :: rest => .ok (.literal [.text s], rest)
    | .number n :: rest => .ok (.literal [.number n], rest)
    | .field name :: rest => .ok (.field name, rest)
    | .function name :: rest => do readCall fuel name (← expect .opening rest)
    | [] => .error (.unexpected none)
    | token :: _ => .error (.unexpected (some token))

/-- Reads the arguments of a function and the closing bracket. -/
def readCall : Nat → String → List Token → Step
  | 0, _, _ => .error (.unexpected none)
  | fuel + 1, name, tokens =>
    match Function.ofName? name with
    | none => .error (.unsupportedFunction name)
    | some .lowerCase => do
      let (inner, rest) ← readEither fuel tokens
      return (.lowerCase inner, ← expect .closing rest)
    | some (.matching place) => do
      let (text, rest) ← readEither fuel tokens
      let (pattern, rest) ← readEither fuel (← expect .semicolon rest)
      return (.matching place text pattern, ← expect .closing rest)

end

/-- Every token is taken within eight steps, and each step spends one unit. -/
def ofTokens (tokens : List Token) : Except Flaw Formula := do
  match ← readEither (8 * tokens.length + 8) tokens with
  | (formula, []) => return formula
  | (_, _ :: _) => throw .trailing

def read (input : String) : Except Fault Formula :=
  ((scan input.toList).bind ofTokens).mapError fun flaw => .filterParse (flaw.reason input)

end AddressBook.Formula
