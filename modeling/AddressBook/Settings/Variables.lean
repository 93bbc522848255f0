import AddressBook.Text.Basic

/-! References to variables in a text: a name between a dollar sign with a brace and the closing
brace, with an optional default behind a colon and a hyphen. What is put in is not looked at again.
-/

namespace AddressBook.Settings

/-- A part of a text with references. -/
inductive Piece where
  | literal (text : List Char)
  | reference (name : List Char) (default : Option (List Char))
  deriving DecidableEq, Repr, Inhabited

def referenceStart : List Char := ['$', '\x7b']

def defaultMark : List Char := [':', '-']

/-- The reference with the given text between its braces. -/
def Piece.ofReference (cs : List Char) : Piece :=
  match Text.cutAtText defaultMark cs with
  | some (name, default) => .reference name (some default)
  | none => .reference cs none

theorem length_cutAtText {pattern : List Char} :
    ∀ {cs before after : List Char}, Text.cutAtText pattern cs = some (before, after) →
      before.length + pattern.length + after.length ≤ cs.length
  | [], before, after, h => by
    unfold Text.cutAtText at h
    split at h
    · cases h
      simp_all
    · cases h
  | c :: cs, before, after, h => by
    unfold Text.cutAtText at h
    split at h
    · rename_i hp
      cases h
      have := (List.isPrefixOf_iff_prefix.1 hp).length_le
      simp only [List.length_nil, List.length_drop]
      omega
    · obtain ⟨⟨b, a⟩, hb, he⟩ := Option.map_eq_some_iff.1 h
      cases he
      have := length_cutAtText hb
      simp only [List.length_cons]
      omega

theorem length_cutAtFirst {mark : Char} :
    ∀ {cs before after : List Char}, Text.cutAtFirst mark cs = some (before, after) →
      after.length < cs.length
  | [], before, after, h => by cases h
  | c :: cs, before, after, h => by
    unfold Text.cutAtFirst at h
    split at h
    · cases h; simp
    · obtain ⟨⟨b, a⟩, hb, he⟩ := Option.map_eq_some_iff.1 h
      cases he
      have := length_cutAtFirst hb
      simp only [List.length_cons]
      omega

/-- The parts of a text. A reference that is not closed is none, and so is all that follows it. -/
def pieces (cs : List Char) : List Piece :=
  match _hs : Text.cutAtText referenceStart cs with
  | none => [.literal cs]
  | some (before, rest) =>
    match _he : Text.cutAtFirst '\x7d' rest with
    | none => [.literal cs]
    | some (reference, after) => .literal before :: Piece.ofReference reference :: pieces after
termination_by cs.length
decreasing_by
  have h₁ := length_cutAtText _hs
  have h₂ := length_cutAtFirst _he
  omega

/-- What a part stands for; a name that has neither value nor default is the error. -/
def Piece.value (lookup? : String → Option String) : Piece → Except String (List Char)
  | .literal text => .ok text
  | .reference name default =>
    match lookup? (String.ofList name), default with
    | some value, _ => .ok value.toList
    | none, some default => .ok default
    | none, none => .error (String.ofList name)

def Piece.name? : Piece → Option String
  | .literal _ => none
  | .reference name _ => some (String.ofList name)

/-- The names that a text refers to. -/
def references (s : String) : List String := (pieces s.toList).filterMap Piece.name?

/-- The text with its references replaced; the first name that stands for nothing is the error. -/
def expand (lookup? : String → Option String) (s : String) : Except String String := do
  return String.ofList (← (pieces s.toList).mapM (Piece.value lookup?)).flatten

end AddressBook.Settings
