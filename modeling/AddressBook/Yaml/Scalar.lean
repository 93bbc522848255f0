import AddressBook.Text.Basic
import AddressBook.Yaml.Cursor

/-! The scalars of a document: plain, or between single or double quotes. A scalar may go on in the
next lines. One line end between its parts is then a space, and of several the first is lost. -/

namespace AddressBook.Yaml

/-- What stands between two parts of a scalar: blanks of one line, or line ends. -/
structure Gap where
  blanks : List Char := []
  ends : List Char := []
  deriving DecidableEq, Repr

def Gap.text (gap : Gap) : List Char :=
  match gap.ends with
  | [] => gap.blanks
  | ['\n'] => [' ']
  | '\n' :: ends => ends
  | ends => ends

/-- A line end as a scalar keeps it. -/
def lineEnd (c : Char) : Char := if isSeparator c then c else '\n'

/-- Reads a gap; what was read of it is held last to first. Once a line has ended, blanks count for
nothing, and a tab may not stand before column `least`. -/
def takeGapFrom? (least : Nat) : Nat → Bool → Gap → Cursor → Option (Gap × Cursor)
  | 0, _, _, _ => none
  | fuel + 1, ended, done, cur =>
    match cur.rest with
    | [] => some (⟨done.blanks.reverse, done.ends.reverse⟩, cur)
    | c :: _ =>
      if isBreak c then takeGapFrom? least fuel true ⟨[], lineEnd c :: done.ends⟩ cur.nextLine
      else if isBlank c then
        if !ended then takeGapFrom? least fuel false { done with blanks := c :: done.blanks } cur.step
        else if c == '\t' && cur.column < least then none
        else takeGapFrom? least fuel true done cur.step
      else some (⟨done.blanks.reverse, done.ends.reverse⟩, cur)

def takeGap? (least : Nat) (cur : Cursor) : Option (Gap × Cursor) :=
  takeGapFrom? least (cur.rest.length + 1) false {} cur

/-- Whether a colon between brackets is followed by a mark, which a plain scalar before it does not
allow. -/
def isColonBeforeMark : List Char → Bool
  | ':' :: c :: _ => isFlowMark c || c == '?'
  | _ => false

/-- Whether a plain scalar may start here. -/
def startsPlain (bracketed : Bool) : List Char → Bool
  | [] => false
  | c :: rest =>
    if c == '-' then !endsMark rest
    else if c == '?' || c == ':' then !bracketed && !endsMark rest
    else
      !isGap c && !isFlowMark c && c ∉ ['#', '&', '*', '!', '|', '>', '\'', '"', '%', '@', '\x60']

/-- The part of a plain scalar up to the next gap or mark. -/
def plainPart? (bracketed : Bool) : List Char → Option (List Char)
  | [] => some []
  | c :: rest =>
    if isGap c then some []
    else if bracketed && isColonBeforeMark (c :: rest) then none
    else if (c == ':' && endsMark rest) || (bracketed && isFlowMark c) then some []
    else (plainPart? bracketed rest).map (c :: ·)

/-- Reads on in a plain scalar behind a gap; what was read of it is held last to first. The answer
tells whether lines ended behind the scalar, in a gap that does not belong to it. Outside brackets its
further lines start at column `least` or later. -/
def takePlainFrom? (bracketed : Bool) (least : Nat) :
    Nat → List Char → Gap → Cursor → Option (String × Bool × Cursor)
  | 0, _, _, _ => none
  | fuel + 1, done, gap, cur =>
    let ended := !gap.ends.isEmpty
    if cur.atDocumentMark || cur.rest.head? == some '#' ||
        (!bracketed && cur.column < least && ended) then
      some (String.ofList done.reverse, ended, cur)
    else
      match plainPart? bracketed cur.rest with
      | none => none
      | some [] => some (String.ofList done.reverse, ended, cur)
      | some part =>
        match takeGap? least (cur.skip part.length) with
        | none => none
        | some (next, cur) =>
          takePlainFrom? bracketed least fuel (part.reverse ++ (gap.text.reverse ++ done)) next cur

/-- Reads a plain scalar: its text, whether lines ended behind it, and what follows. -/
def takePlain? (bracketed : Bool) (least : Nat) (cur : Cursor) :
    Option (String × Bool × Cursor) :=
  takePlainFrom? bracketed least (cur.rest.length + 1) [] {} cur

def escaped? (c : Char) : Option Char :=
  match c with
  | '0' => some (Char.ofNat 0)
  | 'a' => some (Char.ofNat 7)
  | 'b' => some (Char.ofNat 8)
  | 't' => some '\t'
  | '\t' => some '\t'
  | 'n' => some '\n'
  | 'v' => some (Char.ofNat 11)
  | 'f' => some (Char.ofNat 12)
  | 'r' => some '\r'
  | 'e' => some (Char.ofNat 27)
  | ' ' => some ' '
  | '"' => some '"'
  | '/' => some '/'
  | '\\' => some '\\'
  | 'N' => some (Char.ofNat 0x85)
  | '_' => some (Char.ofNat 0xA0)
  | 'L' => some (Char.ofNat 0x2028)
  | 'P' => some (Char.ofNat 0x2029)
  | _ => none

def codeWidth? (c : Char) : Option Nat :=
  match c with
  | 'x' => some 2
  | 'u' => some 4
  | 'U' => some 8
  | _ => none

def hexNumber? (cs : List Char) : Option Nat :=
  cs.foldlM (fun n c => (Text.hexValue? c).map fun digit => 16 * n + digit) 0

/-- The character of a numeric escape. -/
def codeChar? (width : Nat) (cs : List Char) : Option Char := do
  let digits := cs.take width
  let code ← hexNumber? digits
  if digits.length = width && code.isValidChar then some (Char.ofNat code) else none

/-- What an escape stands for, from behind its backslash. A line end that is escaped is lost with the
blanks behind it. -/
def takeEscape? (cur : Cursor) : Option (List Char × Cursor) :=
  match cur.rest with
  | [] => none
  | c :: rest =>
    if isBreak c then
      (takeGapFrom? 0 (cur.rest.length + 1) true {} cur.nextLine).map fun (gap, next) =>
        (gap.ends, next)
    else
      match escaped? c, codeWidth? c with
      | some read, _ => some ([read], cur.step)
      | none, some width => (codeChar? width rest).map fun read => ([read], cur.skip (width + 1))
      | none, none => none

/-- Reads on in a quoted scalar; what was read of it is held last to first. A single quote is written
twice inside single quotes, and escapes stand inside double quotes. -/
def takeQuotedFrom? (quote : Char) : Nat → List Char → Cursor → Option (String × Cursor)
  | 0, _, _ => none
  | fuel + 1, done, cur =>
    match cur.rest with
    | [] => none
    | c :: rest =>
      if cur.atDocumentMark then none
      else if c == quote then
        if quote == '\'' && rest.head? == some '\'' then
          takeQuotedFrom? quote fuel ('\'' :: done) (cur.skip 2)
        else some (String.ofList done.reverse, cur.step)
      else if c == '\\' && quote == '"' then
        match takeEscape? cur.step with
        | some (read, next) => takeQuotedFrom? quote fuel (read.reverse ++ done) next
        | none => none
      else if isGap c then
        match takeGap? 0 cur with
        | some (gap, next) => takeQuotedFrom? quote fuel (gap.text.reverse ++ done) next
        | none => none
      else takeQuotedFrom? quote fuel (c :: done) cur.step

/-- Reads a quoted scalar from its opening quote. -/
def takeQuoted? (quote : Char) (cur : Cursor) : Option (String × Cursor) :=
  takeQuotedFrom? quote (cur.rest.length + 1) [] cur.step

end AddressBook.Yaml
