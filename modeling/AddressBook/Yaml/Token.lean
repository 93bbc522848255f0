import AddressBook.Yaml.Scalar

/-! The tokens of a document. Blocks are told by columns: a dash or a key in a column behind that of
the innermost open block opens another, and what stands in an earlier column closes it. A key shows
only at the colon behind it, so the places where one may have started are kept until then; it stands
in one line with its colon, at most 1024 characters before it. -/

namespace AddressBook.Yaml

inductive Token where
  | listStart
  | mappingStart
  /-- The end of a list or mapping that is told by columns. -/
  | blockEnd
  | dash
  | key
  | value
  | listOpen
  | listClose
  | mappingOpen
  | mappingClose
  | comma
  | scalar (isPlain : Bool) (text : String)
  | documentStart
  | documentEnd
  deriving DecidableEq, Repr, Inhabited

/-- A place where a key may have started. -/
structure KeyPlace where
  /-- The number of tokens before it. -/
  tokens : Nat
  index : Nat
  line : Nat
  column : Nat
  /-- Whether nothing but a key can stand there. -/
  required : Bool
  deriving DecidableEq, Repr

/-- Whether a colon here comes too late for the key. -/
def KeyPlace.isLate (place : KeyPlace) (cur : Cursor) : Bool :=
  place.line < cur.line || place.index + 1024 < cur.index

/-- The state in which tokens are read. -/
structure Scan where
  cursor : Cursor
  /-- The tokens so far, last to first. -/
  tokens : List Token := []
  /-- The columns of the open blocks, the innermost first. -/
  blocks : List Nat := []
  /-- Where a key may have started within the innermost brackets. -/
  place : Option KeyPlace := none
  /-- The same for what is around them, the innermost first. -/
  outer : List (Option KeyPlace) := []
  /-- Whether a key may start here. -/
  keyAllowed : Bool := true
  deriving Repr

namespace Scan

def bracketed (s : Scan) : Bool := !s.outer.isEmpty

/-- The first column behind that of the innermost block. -/
def least (s : Scan) : Nat := (s.blocks.head?.map (· + 1)).getD 0

def push (token : Token) (s : Scan) : Scan := { s with tokens := token :: s.tokens }

/-- Adds a token that is so many characters wide. -/
def take (width : Nat) (token : Token) (s : Scan) : Scan :=
  { s.push token with cursor := s.cursor.skip width }

def allowKey (allowed : Bool) (s : Scan) : Scan := { s with keyAllowed := allowed }

/-- Passes over blanks, comments and line ends. Outside brackets a tab may not stand where a key may
start, as it may on each new line. -/
def skipGapFrom (bracketed : Bool) : Nat → Bool → Cursor → Bool × Cursor
  | 0, allowed, cur => (allowed, cur)
  | fuel + 1, allowed, cur =>
    match cur.rest with
    | [] => (allowed, cur)
    | c :: _ =>
      if c == ' ' || (c == '\t' && (bracketed || !allowed)) then
        skipGapFrom bracketed fuel allowed cur.step
      else if c == '#' then skipGapFrom bracketed fuel allowed cur.skipLine
      else if isBreak c then skipGapFrom bracketed fuel (allowed || !bracketed) cur.nextLine
      else if cur.column == 0 && c == '\uFEFF' then skipGapFrom bracketed fuel allowed cur.step
      else (allowed, cur)

def skipGap (s : Scan) : Scan :=
  let (keyAllowed, cursor) :=
    skipGapFrom s.bracketed (s.cursor.rest.length + 1) s.keyAllowed s.cursor
  { s with cursor, keyAllowed }

/-- Gives up a place to which the colon comes too late. -/
def inTime? (cur : Cursor) : Option KeyPlace → Option (Option KeyPlace)
  | none => some none
  | some place =>
    if !place.isLate cur then some (some place) else if place.required then none else some none

def dropLate? (s : Scan) : Option Scan := do
  return { s with place := ← inTime? s.cursor s.place, outer := ← s.outer.mapM (inTime? s.cursor) }

/-- Gives up the place where a key may have started. -/
def dropPlace? (s : Scan) : Option Scan :=
  match s.place with
  | some place => if place.required then none else some { s with place := none }
  | none => some s

/-- Notes that a key may start here, if it may. -/
def notePlace? (s : Scan) : Option Scan := do
  if s.keyAllowed then
    let s ← s.dropPlace?
    let required := !s.bracketed && s.least == s.cursor.column + 1
    return { s with
      place := some ⟨s.tokens.length, s.cursor.index, s.cursor.line, s.cursor.column, required⟩ }
  else return s

/-- Closes the blocks whose columns satisfy `isLeft`. -/
def closeBlocks (isLeft : Nat → Bool) (s : Scan) : Scan :=
  if s.bracketed then s
  else
    let ends := List.replicate (s.blocks.takeWhile isLeft).length Token.blockEnd
    { s with tokens := ends ++ s.tokens, blocks := s.blocks.dropWhile isLeft }

/-- Opens a block in a column that is behind that of the innermost one. -/
def openBlock (column : Nat) (start : Token) (s : Scan) : Scan :=
  if !s.bracketed && s.least ≤ column then { s.push start with blocks := column :: s.blocks } else s

/-- Adds a mark between documents. -/
def takeDocument? (mark : Token) (s : Scan) : Option Scan := do
  return (((← (s.closeBlocks fun _ => true).dropPlace?).allowKey false).take 3 mark)

def takeOpen? (mark : Token) (s : Scan) : Option Scan := do
  let s ← s.notePlace?
  return { ((s.allowKey true).take 1 mark) with place := none, outer := s.place :: s.outer }

def takeClose? (mark : Token) (s : Scan) : Option Scan := do
  let s ← s.dropPlace?
  let s := (s.allowKey false).take 1 mark
  match s.outer with
  | [] => return s
  | place :: outer => return { s with place, outer }

def takeComma? (s : Scan) : Option Scan := do
  return ((← s.dropPlace?).allowKey true).take 1 .comma

def takeDash? (s : Scan) : Option Scan := do
  if s.bracketed || s.keyAllowed then
    let s ← (s.openBlock s.cursor.column .listStart).dropPlace?
    return (s.allowKey true).take 1 .dash
  else none

/-- The mark before a key that says so itself. -/
def takeKeyMark? (s : Scan) : Option Scan := do
  if s.bracketed || s.keyAllowed then
    let s ← (s.openBlock s.cursor.column .mappingStart).dropPlace?
    return (s.allowKey !s.bracketed).take 1 .key
  else none

/-- A colon. What was noted as the start of a key is one. -/
def takeColon? (s : Scan) : Option Scan :=
  match s.place with
  | some place =>
    let later := s.tokens.take (s.tokens.length - place.tokens)
    let before := { s with tokens := s.tokens.drop (s.tokens.length - place.tokens) }
    let start := (before.openBlock place.column .mappingStart).push .key
    some (({ start with tokens := later ++ start.tokens, place := none }.allowKey false).take 1 .value)
  | none =>
    if s.bracketed then some ((s.allowKey false).take 1 .value)
    else if s.keyAllowed then
      some (((s.openBlock s.cursor.column .mappingStart).allowKey true).take 1 .value)
    else none

def takeQuoted? (quote : Char) (s : Scan) : Option Scan := do
  let s ← s.notePlace?
  let (text, cursor) ← Yaml.takeQuoted? quote s.cursor
  return { (s.allowKey false).push (.scalar false text) with cursor }

def takePlain? (s : Scan) : Option Scan := do
  let s ← s.notePlace?
  let (text, ended, cursor) ← Yaml.takePlain? s.bracketed s.least s.cursor
  return { (s.allowKey ended).push (.scalar true text) with cursor }

/-- Adds the token that starts here. -/
def takeToken? (s : Scan) : Option Scan :=
  match s.cursor.rest with
  | [] => none
  | c :: rest =>
    if s.cursor.atDocumentMark then
      s.takeDocument? (if c == '-' then .documentStart else .documentEnd)
    else if c == '[' then s.takeOpen? .listOpen
    else if c == '\x7b' then s.takeOpen? .mappingOpen
    else if c == ']' then s.takeClose? .listClose
    else if c == '\x7d' then s.takeClose? .mappingClose
    else if c == ',' then s.takeComma?
    else if c == '-' && endsMark rest then s.takeDash?
    else if c == '?' && (s.bracketed || endsMark rest) then s.takeKeyMark?
    else if c == ':' && (s.bracketed || endsMark rest) then s.takeColon?
    else if c == '"' || c == '\'' then s.takeQuoted? c
    else if startsPlain s.bracketed (c :: rest) then s.takePlain?
    else none

/-- Reads all tokens that are left. -/
def tokensFrom? : Nat → Scan → Option (List Token)
  | 0, _ => none
  | fuel + 1, s => do
    let s ← s.skipGap.dropLate?
    if s.cursor.rest.isEmpty then
      return (← (s.closeBlocks fun _ => true).dropPlace?).tokens.reverse
    else tokensFrom? fuel (← (s.closeBlocks fun column => s.cursor.column < column).takeToken?)

end Scan

/-- The tokens of a text. -/
def tokens? (cs : List Char) : Option (List Token) :=
  Scan.tokensFrom? (cs.length + 1) { cursor := { rest := cs } }

end AddressBook.Yaml
