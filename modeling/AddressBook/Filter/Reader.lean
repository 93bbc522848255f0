import AddressBook.Filter.Basic
import AddressBook.Json.Reader

/-! Reading filters. Disjunction binds loosest, then conjunction, then negation; both connectives
group to the right. The words that join and the operators count outside double quotes only, the
joining words outside brackets only; a backslash takes the special sense from the character that
follows it. -/

namespace AddressBook.Filter

/-- Whether the bracket that opens a text is closed by its last character. -/
def closesAtEnd (depth : Int) (quoted : Bool) : List Char → Bool
  | [] => depth == 0
  | ['\\'] => depth == 0
  | '\\' :: _ :: rest => closesAtEnd depth quoted rest
  | '"' :: rest => closesAtEnd depth (!quoted) rest
  | c :: rest =>
    if quoted then closesAtEnd depth quoted rest
    else if c == '(' then closesAtEnd (depth + 1) quoted rest
    else if c == ')' then
      if depth - 1 == 0 && !rest.isEmpty then false else closesAtEnd (depth - 1) quoted rest
    else closesAtEnd depth quoted rest

/-- The text inside the brackets that enclose the whole. -/
def enclosed? (cs : List Char) : Option (List Char) :=
  match cs with
  | '(' :: rest =>
    if rest.getLast? == some ')' && closesAtEnd 0 false cs then some rest.dropLast else none
  | _ => none

/-- Whether a text starts with a word that is given in small letters. -/
def startsWithWord : List Char → List Char → Bool
  | [], _ => true
  | _ :: _, [] => false
  | w :: word, c :: cs => c.toLower == w && startsWithWord word cs

def before (c : Char) : Option (List Char × List Char) → Option (List Char × List Char) :=
  Option.map fun (left, right) => (c :: left, right)

/-- The texts before and after the first `word` outside quotes and, if `nesting`, outside
brackets. -/
def cutAtWord (nesting : Bool) (word : List Char) (depth : Int) (quoted : Bool) :
    List Char → Option (List Char × List Char)
  | [] => none
  | ['\\'] => none
  | '\\' :: c :: rest => before '\\' (before c (cutAtWord nesting word depth quoted rest))
  | '"' :: rest => before '"' (cutAtWord nesting word depth (!quoted) rest)
  | c :: rest =>
    if quoted then before c (cutAtWord nesting word depth quoted rest)
    else if nesting && (c == '(' || c == '[') then
      before c (cutAtWord nesting word (depth + 1) quoted rest)
    else if nesting && (c == ')' || c == ']') then
      before c (cutAtWord nesting word (depth - 1) quoted rest)
    else if depth == 0 && startsWithWord word (c :: rest) then
      some ([], (c :: rest).drop word.length)
    else before c (cutAtWord nesting word depth quoted rest)

def cutAtJoint (word : String) (cs : List Char) : Option (List Char × List Char) :=
  cutAtWord true word.toList 0 false cs

def negated? (cs : List Char) : Option (List Char) :=
  if startsWithWord "not ".toList cs then some (cs.drop 4) else none

inductive Operator where
  | equal
  | unequal
  | holdsAll
  | ordered (relation : Relation)
  | matching (place : Place)
  deriving DecidableEq, Repr

/-- The operators in the order in which they are looked for. -/
def operators : List (String × Operator) :=
  [(">=", .ordered .atLeast), ("<=", .ordered .atMost), ("!=", .unequal), (" eq ", .equal),
   (" ne ", .unequal), (" co ", .matching .anywhere), (" ca ", .holdsAll),
   (" sw ", .matching .atStart), (" ew ", .matching .atEnd), (" gt ", .ordered .greater),
   (" ge ", .ordered .atLeast), (" lt ", .ordered .less), (" le ", .ordered .atMost),
   ("=", .equal), (">", .ordered .greater), ("<", .ordered .less)]

def leaf (operator : Operator) (name : String) (values : List Json) : Filter :=
  let first := values.headD .null
  match operator with
  | .equal => .equals name values
  | .unequal => .negation (.equals name values)
  | .holdsAll => .containsAll name values
  | .ordered relation => .ordered relation name first
  | .matching place => .matching place name first

/-- Takes the backslash from every `mark` behind one. -/
def unescape (mark : Char) : List Char → List Char
  | [] => []
  | [c] => [c]
  | c :: d :: rest =>
    if c == '\\' && d == mark then mark :: unescape mark rest else c :: unescape mark (d :: rest)

/-- The text between double quotes, if they enclose the whole. -/
def unquoted? (cs : List Char) : Option (List Char) :=
  match cs with
  | '"' :: rest =>
    if rest.getLast? == some '"' then some (unescape '\\' (unescape '"' rest.dropLast)) else none
  | _ => none

/-- A single value; what is nothing else is a text without quotes. -/
def valueOf (cs : List Char) : Json :=
  match unquoted? cs with
  | some text => .text (String.ofList text)
  | none =>
    let text := String.ofList cs
    if text == "true" then .bool true
    else if text == "false" then .bool false
    else
      match readIntWithin? Int.least64 Int.most64 text with
      | some i => .integer i
      | none =>
        match (Number.read? text).filter Number.isFinite with
        | some n => .real n
        | none => .text text

/-- The values of a leaf; a JSON array holds several. -/
def valuesOf (cs : List Char) : Except Flaw (List Json) :=
  if cs.head? == some '[' then
    match Json.read? (String.ofList cs) with
    | none => .error .notJson
    | some (.list (value :: values)) => .ok (value :: values)
    | some _ => .error (.notAnArray (String.ofList cs))
  else .ok [valueOf cs]

/-- An operator with a text on either side. -/
def splitAt? (symbol : String) (cs : List Char) : Option (List Char × List Char) := do
  let (name, value) ← cutAtWord false symbol.toList 0 false cs
  let name := Text.trimChars name
  let value := Text.trimChars value
  if name.isEmpty || value.isEmpty then none else some (name, value)

def readLeaf (cs : List Char) : Except Flaw Filter :=
  let found := operators.findSome? fun (symbol, operator) =>
    (splitAt? symbol cs).map fun sides => (operator, sides)
  match found with
  | none => .error (.unreadable (String.ofList cs))
  | some (operator, name, value) => do
    return leaf operator (String.ofList name) (← valuesOf value)

theorem length_dropEndBlanks (cs : List Char) : (Text.dropEndBlanks cs).length ≤ cs.length := by
  fun_induction Text.dropEndBlanks cs with
  | case1 => exact Nat.le_refl _
  | case2 => simp
  | case3 => simp
  | case4 c cs _ ih =>
    simp only [List.length_cons]
    omega

theorem length_trimChars (cs : List Char) : (Text.trimChars cs).length ≤ cs.length :=
  Nat.le_trans (length_dropEndBlanks _) (List.dropWhile_suffix _).length_le

theorem length_enclosed {cs inner : List Char} (h : enclosed? cs = some inner) :
    inner.length < cs.length := by
  unfold enclosed? at h
  split at h
  · split at h
    · cases h
      simp only [List.length_dropLast, List.length_cons]
      omega
    · cases h
  · cases h

theorem length_before {c : Char} {cut : Option (List Char × List Char)} {l r : List Char} {n : Nat}
    (h : before c cut = some (l, r))
    (ih : ∀ l r, cut = some (l, r) → l.length + r.length + 1 ≤ n) :
    l.length + r.length + 1 ≤ n + 1 := by
  simp only [before, Option.map_eq_some_iff, Prod.mk.injEq] at h
  obtain ⟨⟨a, b⟩, hab, rfl, rfl⟩ := h
  have := ih a b hab
  simp only [List.length_cons]
  omega

theorem length_cutAtWord {nesting : Bool} {word : List Char} (hw : word ≠ []) {depth : Int}
    {quoted : Bool} {cs l r : List Char} (h : cutAtWord nesting word depth quoted cs = some (l, r)) :
    l.length + r.length + 1 ≤ cs.length := by
  fun_induction cutAtWord nesting word depth quoted cs generalizing l r with
  | case1 => cases h
  | case2 => cases h
  | case3 depth quoted c rest ih =>
    exact length_before h fun l r h => length_before h fun _ _ h => ih h
  | case4 depth quoted rest ih => exact length_before h fun _ _ h => ih h
  | case5 depth quoted c rest _ _ ih => exact length_before h fun _ _ h => ih h
  | case6 depth quoted c rest _ _ _ _ _ ih => exact length_before h fun _ _ h => ih h
  | case7 depth quoted c rest _ _ _ _ _ _ ih => exact length_before h fun _ _ h => ih h
  | case8 depth quoted c rest =>
    simp only [Option.some.injEq, Prod.mk.injEq] at h
    obtain ⟨rfl, rfl⟩ := h
    have := List.length_pos_iff.2 hw
    simp only [List.length_nil, List.length_drop, List.length_cons]
    omega
  | case9 depth quoted c rest _ _ _ _ _ _ _ ih => exact length_before h fun _ _ h => ih h

theorem length_cutAtJoint {word : String} (hw : word.toList ≠ []) {cs l r : List Char}
    (h : cutAtJoint word cs = some (l, r)) : l.length < cs.length ∧ r.length < cs.length := by
  have := length_cutAtWord hw h
  omega

theorem length_negated {cs inner : List Char} (hc : cs ≠ []) (h : negated? cs = some inner) :
    inner.length < cs.length := by
  unfold negated? at h
  split at h
  · cases h
    have := List.length_pos_iff.2 hc
    simp only [List.length_drop]
    omega
  · cases h

def readChars (cs : List Char) : Except Flaw Filter :=
  let text := Text.trimChars cs
  have _hlen : text.length ≤ cs.length := length_trimChars cs
  if _hne : text = [] then .error .emptyFilter
  else
    match _he : enclosed? text with
    | some inner => readChars inner
    | none =>
      match _ho : cutAtJoint " or " text with
      | some (left, right) => do return .either (← readChars left) (← readChars right)
      | none =>
        match _ha : cutAtJoint " and " text with
        | some (left, right) => do return .both (← readChars left) (← readChars right)
        | none =>
          match _hn : negated? text with
          | some inner => do return .negation (← readChars inner)
          | none => readLeaf text
termination_by cs.length
decreasing_by
  · have := length_enclosed _he; omega
  · have := (length_cutAtJoint (by decide) _ho).1; omega
  · have := (length_cutAtJoint (by decide) _ho).2; omega
  · have := (length_cutAtJoint (by decide) _ha).1; omega
  · have := (length_cutAtJoint (by decide) _ha).2; omega
  · have := length_negated _hne _hn; omega

def read (s : String) : Except Fault Filter := (readChars s.toList).mapError Flaw.fault

end AddressBook.Filter
