import AddressBook.Yaml.Basic
import AddressBook.Yaml.Token

/-! Reading documents. Mappings and lists are written in blocks or between brackets. Of the format
only this is read: no anchors, tags, directives, block scalars or several documents. -/

namespace AddressBook.Yaml

/-- Reads a value unless one of the marks that may stand in its place comes first. -/
def valueOr (isMark : Token → Bool) (read : List Token → Option (Yaml × List Token))
    (tokens : List Token) : Option (Yaml × List Token) :=
  if (tokens.head?.map isMark).getD false then some (empty, tokens) else read tokens

/-- The marks that stand for a missing item of a list whose dashes are in a column of their own. -/
def endsItem (token : Token) : Bool := token ∈ [.dash, .blockEnd]

/-- The marks that stand for a missing item of a list whose dashes are in the column of a key. -/
def endsLooseItem (token : Token) : Bool := token ∈ [.dash, .key, .value, .blockEnd]

/-- The marks that stand for a missing key or value. -/
def endsEntry (token : Token) : Bool := token ∈ [.key, .value, .blockEnd]

def endsListed (token : Token) : Bool := token ∈ [.comma, .listClose]

def endsKey (token : Token) : Bool := token ∈ [.value, .comma, .mappingClose]

def endsMember (token : Token) : Bool := token ∈ [.comma, .mappingClose]

mutual

/-- Reads a value; `block` tells whether it may be a block, `loose` whether a list may start at a
dash. -/
def readValue? : Nat → Bool → Bool → List Token → Option (Yaml × List Token)
  | 0, _, _, _ => none
  | fuel + 1, block, loose, tokens =>
    match tokens with
    | .scalar isPlain text :: rest => some (.scalar isPlain text, rest)
    | .listOpen :: rest => readListed? fuel [] rest
    | .mappingOpen :: rest => readMembers? fuel [] rest
    | .listStart :: rest => if block then readItems? fuel [] rest else none
    | .mappingStart :: rest => if block then readEntries? fuel [] rest else none
    | .dash :: _ => if loose then readLooseItems? fuel [] tokens else none
    | _ => none

/-- Reads the items of a block list. -/
def readItems? : Nat → List Yaml → List Token → Option (Yaml × List Token)
  | 0, _, _ => none
  | fuel + 1, done, .dash :: rest =>
    match valueOr endsItem (readValue? fuel true false) rest with
    | some (item, rest) => readItems? fuel (item :: done) rest
    | none => none
  | _ + 1, done, .blockEnd :: rest => some (.list done.reverse, rest)
  | _ + 1, _, _ => none

/-- Reads the items of a list whose dashes stand in the column of the key before it. -/
def readLooseItems? : Nat → List Yaml → List Token → Option (Yaml × List Token)
  | 0, _, _ => none
  | fuel + 1, done, .dash :: rest =>
    match valueOr endsLooseItem (readValue? fuel true false) rest with
    | some (item, rest) => readLooseItems? fuel (item :: done) rest
    | none => none
  | _ + 1, done, rest => some (.list done.reverse, rest)

/-- Reads the entries of a block mapping. -/
def readEntries? : Nat → List (Yaml × Yaml) → List Token → Option (Yaml × List Token)
  | 0, _, _ => none
  | fuel + 1, done, .key :: rest =>
    match valueOr endsEntry (readValue? fuel true true) rest with
    | some (key, .value :: rest) =>
      match valueOr endsEntry (readValue? fuel true true) rest with
      | some (value, rest) => readEntries? fuel ((key, value) :: done) rest
      | none => none
    | some (key, rest) => readEntries? fuel ((key, empty) :: done) rest
    | none => none
  | _ + 1, done, .blockEnd :: rest => some (.mapping done.reverse, rest)
  | _ + 1, _, _ => none

/-- Reads the items of a list between brackets. An item may be one entry of a mapping. -/
def readListed? : Nat → List Yaml → List Token → Option (Yaml × List Token)
  | 0, _, _ => none
  | fuel + 1, done, tokens =>
    match tokens with
    | .listClose :: rest => some (.list done.reverse, rest)
    | _ =>
      let item :=
        match tokens with
        | .key :: rest => readPair? fuel rest
        | _ => readValue? fuel false false tokens
      match item with
      | some (item, .comma :: rest) => readListed? fuel (item :: done) rest
      | some (item, .listClose :: rest) => some (.list (item :: done).reverse, rest)
      | _ => none

/-- Reads an item that is an entry, from behind the mark of its key. -/
def readPair? : Nat → List Token → Option (Yaml × List Token)
  | 0, _ => none
  | fuel + 1, tokens =>
    let key :=
      match tokens with
      | .value :: rest => some (empty, rest)
      | .comma :: rest => some (empty, rest)
      | .listClose :: rest => some (empty, rest)
      | _ => readValue? fuel false false tokens
    match key with
    | some (key, .value :: rest) =>
      (valueOr endsListed (readValue? fuel false false) rest).map fun (value, rest) =>
        (.mapping [(key, value)], rest)
    | some (key, rest) => some (.mapping [(key, empty)], rest)
    | none => none

/-- Reads the entries of a mapping between braces. One without a colon has no value. -/
def readMembers? : Nat → List (Yaml × Yaml) → List Token → Option (Yaml × List Token)
  | 0, _, _ => none
  | fuel + 1, done, tokens =>
    match tokens with
    | .mappingClose :: rest => some (.mapping done.reverse, rest)
    | _ =>
      match readMember? fuel tokens with
      | some (entry, .comma :: rest) => readMembers? fuel (entry :: done) rest
      | some (entry, .mappingClose :: rest) => some (.mapping (entry :: done).reverse, rest)
      | _ => none

def readMember? : Nat → List Token → Option ((Yaml × Yaml) × List Token)
  | 0, _ => none
  | fuel + 1, .key :: rest =>
    match valueOr endsKey (readValue? fuel false false) rest with
    | some (key, .value :: rest) =>
      (valueOr endsMember (readValue? fuel false false) rest).map fun (value, rest) =>
        ((key, value), rest)
    | some (key, rest) => some ((key, empty), rest)
    | none => none
  | fuel + 1, tokens =>
    (readValue? fuel false false tokens).map fun (key, rest) => ((key, empty), rest)

end

/-- The value of the one document that the tokens make up. A mark may stand before it and several
behind it; behind the mark there may be no value. -/
def ofTokens? (tokens : List Token) : Option Yaml := do
  let read := readValue? (3 * tokens.length + 3) true false
  let (value, rest) ←
    match tokens with
    | [.documentStart] => some (empty, [])
    | .documentStart :: rest => valueOr (· == .documentEnd) read rest
    | _ => read tokens
  if rest.all (· == .documentEnd) then return value else none

/-- Whether a document may hold the character. -/
def isAllowed (c : Char) : Bool :=
  c == '\t' || isBreak c || (0x20 ≤ c.val && c.val ≤ 0x7E) ||
    (0xA0 ≤ c.val && c.val ≤ 0xFFFD) || 0x10000 ≤ c.val

/-- Reads a document. -/
def read? (s : String) : Option Yaml := do
  let cs := s.toList
  if cs.all isAllowed then ofTokens? (← tokens? cs) else none

end AddressBook.Yaml
