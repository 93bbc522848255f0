/-! Places in the text of a document. -/

namespace AddressBook.Yaml

/-- Line ends that a scalar keeps as they are. -/
def isSeparator (c : Char) : Bool := c == Char.ofNat 0x2028 || c == Char.ofNat 0x2029

def isBreak (c : Char) : Bool :=
  c == '\n' || c == '\r' || c == Char.ofNat 0x85 || isSeparator c

def isBlank (c : Char) : Bool := c == ' ' || c == '\t'

def isGap (c : Char) : Bool := isBlank c || isBreak c

/-- Whether a mark stands alone, with a gap or nothing behind it. -/
def endsMark (rest : List Char) : Bool := (rest.head?.map isGap).getD true

/-- Marks between brackets. -/
def isFlowMark (c : Char) : Bool := c ∈ [',', '[', ']', '\x7b', '\x7d']

/-- What is left to read, and where its first character stands: its number in the text, its line and
its column, all from zero. -/
structure Cursor where
  rest : List Char
  index : Nat := 0
  line : Nat := 0
  column : Nat := 0
  deriving Repr, Inhabited

namespace Cursor

/-- Passes over characters of one line. -/
def skip (n : Nat) (cur : Cursor) : Cursor :=
  { cur with rest := cur.rest.drop n, index := cur.index + n, column := cur.column + n }

def step (cur : Cursor) : Cursor := cur.skip 1

/-- Passes over a line end, for which a carriage return and a line feed count as one. -/
def nextLine (cur : Cursor) : Cursor :=
  let width :=
    match cur.rest with
    | '\r' :: '\n' :: _ => 2
    | _ => 1
  ⟨cur.rest.drop width, cur.index + width, cur.line + 1, 0⟩

/-- Passes over the rest of the line. -/
def skipLine (cur : Cursor) : Cursor :=
  cur.skip (cur.rest.takeWhile fun c => !isBreak c).length

/-- Whether one of the marks between documents stands here. -/
def atDocumentMark (cur : Cursor) : Bool :=
  cur.column == 0 &&
    match cur.rest with
    | '-' :: '-' :: '-' :: rest => endsMark rest
    | '.' :: '.' :: '.' :: rest => endsMark rest
    | _ => false

end Cursor

end AddressBook.Yaml
