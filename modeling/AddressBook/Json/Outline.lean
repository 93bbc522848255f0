import AddressBook.Json.Reader

/-! The outline of JSON text: where values end, and which members or items they are made of. An
outline says nothing about what is written inside, so it is found at any depth, and a number too
large or a text with half a character has one like any other. -/

namespace AddressBook.Json

/-- What has been opened and not closed yet. -/
inductive Frame where
  | list
  | object
  deriving DecidableEq, Repr

/-- Passes over the rest of a text, from behind its opening quote. -/
def skipText? : List Char → Option (List Char)
  | [] => none
  | '"' :: rest => some rest
  | '\\' :: 'u' :: a :: b :: c :: d :: rest =>
    if [a, b, c, d].all fun digit => (Text.hexValue? digit).isSome then skipText? rest else none
  | '\\' :: c :: rest =>
    if c ∈ ['"', '\\', '/', 'b', 'f', 'n', 'r', 't'] then skipText? rest else none
  | c :: rest => if c.toNat < 0x20 then none else skipText? rest

def skipDigits? (cs : List Char) : Option (List Char) :=
  if (cs.head?.map Char.isDigit).getD false then some (cs.dropWhile Char.isDigit) else none

def skipFraction? : List Char → Option (List Char)
  | '.' :: rest => skipDigits? rest
  | rest => some rest

def skipExponent? : List Char → Option (List Char)
  | [] => some []
  | c :: rest => if c == 'e' || c == 'E' then skipDigits? (takeSign rest).2 else some (c :: rest)

/-- Passes over a number. No zero stands in front of other digits. -/
def skipNumber? (cs : List Char) : Option (List Char) := do
  let unsigned :=
    match cs with
    | '-' :: rest => rest
    | cs => cs
  let behind ←
    match unsigned with
    | '0' :: rest => if (rest.head?.map Char.isDigit).getD false then none else some rest
    | cs => skipDigits? cs
  skipExponent? (← skipFraction? behind)

def skipScalar? : List Char → Option (List Char)
  | '"' :: rest => skipText? rest
  | 't' :: 'r' :: 'u' :: 'e' :: rest => some rest
  | 'f' :: 'a' :: 'l' :: 's' :: 'e' :: rest => some rest
  | 'n' :: 'u' :: 'l' :: 'l' :: rest => some rest
  | cs => skipNumber? cs

/-- Passes over the key of a member and its colon. -/
def skipKey? (cs : List Char) : Option (List Char) :=
  match skipSpace cs with
  | '"' :: rest =>
    match (skipText? rest).map skipSpace with
    | some (':' :: rest) => some rest
    | _ => none
  | _ => none

/-- Passes over values until all frames are closed; `atValue` tells whether a value starts here or
ended. -/
def skipFrom? : Nat → Bool → List Frame → List Char → Option (List Char)
  | 0, _, _, _ => none
  | fuel + 1, true, frames, cs =>
    match skipSpace cs with
    | '[' :: rest =>
      match skipSpace rest with
      | ']' :: rest => skipFrom? fuel false frames rest
      | rest => skipFrom? fuel true (.list :: frames) rest
    | '\x7b' :: rest =>
      match skipSpace rest with
      | '\x7d' :: rest => skipFrom? fuel false frames rest
      | rest =>
        match skipKey? rest with
        | some rest => skipFrom? fuel true (.object :: frames) rest
        | none => none
    | scalar =>
      match skipScalar? scalar with
      | some rest => skipFrom? fuel false frames rest
      | none => none
  | _ + 1, false, [], cs => some cs
  | fuel + 1, false, .list :: frames, cs =>
    match skipSpace cs with
    | ',' :: rest => skipFrom? fuel true (.list :: frames) rest
    | ']' :: rest => skipFrom? fuel false frames rest
    | _ => none
  | fuel + 1, false, .object :: frames, cs =>
    match skipSpace cs with
    | ',' :: rest =>
      match skipKey? rest with
      | some rest => skipFrom? fuel true (.object :: frames) rest
      | none => none
    | '\x7d' :: rest => skipFrom? fuel false frames rest
    | _ => none

/-- The text of one value, and what follows it. -/
def cutValue? (cs : List Char) : Option (List Char × List Char) :=
  let start := skipSpace cs
  (skipFrom? (2 * start.length + 2) true [] start).map fun rest =>
    (start.take (start.length - rest.length), rest)

/-- The texts of the items of a list, from behind its bracket or a comma. -/
def cutItems? : Nat → List (List Char) → List Char → Option (List (List Char) × List Char)
  | 0, _, _ => none
  | fuel + 1, done, cs =>
    match cutValue? cs with
    | none => none
    | some (item, rest) =>
      match skipSpace rest with
      | ',' :: rest => cutItems? fuel (item :: done) rest
      | ']' :: rest => some ((item :: done).reverse, rest)
      | _ => none

/-- The keys and the texts of the values of an object, from behind its brace or a comma. -/
def cutMembers? :
    Nat → List (String × List Char) → List Char → Option (List (String × List Char) × List Char)
  | 0, _, _ => none
  | fuel + 1, done, cs =>
    match skipSpace cs with
    | '"' :: rest =>
      match readText? (rest.length + 1) [] rest with
      | none => none
      | some (key, rest) =>
        match skipSpace rest with
        | ':' :: rest =>
          match cutValue? rest with
          | none => none
          | some (value, rest) =>
            match skipSpace rest with
            | ',' :: rest => cutMembers? fuel ((key, value) :: done) rest
            | '\x7d' :: rest => some (((key, value) :: done).reverse, rest)
            | _ => none
        | _ => none
    | _ => none

/-- What a value is made of. -/
inductive Outline where
  | scalar
  | list (items : List (List Char))
  | object (members : List (String × List Char))
  deriving DecidableEq, Repr

def Outline.readList? : List Char → Option (Outline × List Char)
  | ']' :: rest => some (.list [], rest)
  | rest => (cutItems? (rest.length + 1) [] rest).map fun (items, rest) => (.list items, rest)

def Outline.readObject? : List Char → Option (Outline × List Char)
  | '\x7d' :: rest => some (.object [], rest)
  | rest => (cutMembers? (rest.length + 1) [] rest).map fun (members, rest) => (.object members, rest)

/-- The outline of a text that is one value. -/
def Outline.read? (cs : List Char) : Option Outline := do
  let (outline, rest) ←
    match skipSpace cs with
    | '[' :: rest => readList? (skipSpace rest)
    | '\x7b' :: rest => readObject? (skipSpace rest)
    | value => (skipScalar? value).map fun rest => (Outline.scalar, rest)
  if (skipSpace rest).isEmpty then return outline else none

end AddressBook.Json
