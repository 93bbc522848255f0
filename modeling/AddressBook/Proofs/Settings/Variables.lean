import AddressBook.Proofs.Text.Trimming
import AddressBook.Settings.Reader
import Mathlib.Data.List.Chain
import Mathlib.Data.List.Infix

/-! Texts with references, put together from their parts: literal ones, references, and at the end
perhaps a reference that is not closed. Every text is put together in this way. Expanding it puts a
value or a default in the place of each reference, once, and leaves everything else as it stands. -/

namespace AddressBook

namespace Text

/-! Cutting at the first occurrence of a text. -/

theorem cutAtText_eq_some {pattern cs before after : List Char} (solid : pattern ≠ [])
    (h : cutAtText pattern cs = some (before, after)) :
    cs = before ++ (pattern ++ after) ∧ ¬pattern <:+: before := by
  induction cs generalizing before with
  | nil => simp [cutAtText, solid] at h
  | cons c cs ih =>
    rw [cutAtText] at h
    split at h
    · next starts =>
      cases h
      obtain ⟨rest, whole⟩ := List.isPrefixOf_iff_prefix.mp starts
      refine ⟨?_, fun held => solid (List.infix_nil.mp held)⟩
      rw [← whole, List.drop_left, List.nil_append]
    · next other =>
      obtain ⟨⟨first, last⟩, found, same⟩ := Option.map_eq_some_iff.mp h
      cases same
      obtain ⟨rfl, free⟩ := ih found
      refine ⟨rfl, fun held => ?_⟩
      rcases List.infix_cons_iff.mp held with starts | within
      · refine other (List.isPrefixOf_iff_prefix.mpr (starts.trans ?_))
        exact List.prefix_append (c :: first) (pattern ++ after)
      · exact free within

theorem cutAtText_eq_none {pattern cs : List Char} (h : cutAtText pattern cs = none) :
    ¬pattern <:+: cs := by
  induction cs with
  | nil =>
    intro held
    simp [cutAtText, List.infix_nil.mp held] at h
  | cons c cs ih =>
    rw [cutAtText] at h
    split at h
    · cases h
    · next other =>
      intro held
      rcases List.infix_cons_iff.mp held with starts | within
      · exact other (List.isPrefixOf_iff_prefix.mpr starts)
      · exact ih (Option.map_eq_none_iff.mp h) within

theorem cutAtText_pair {a b : Char} (apart : a ≠ b) {before : List Char}
    (free : ¬[a, b] <:+: before) (after : List Char) :
    cutAtText [a, b] (before ++ a :: b :: after) = some (before, after) := by
  induction before with
  | nil => simp [cutAtText, List.isPrefixOf]
  | cons c before ih =>
    have other : ¬[a, b] <+: c :: (before ++ a :: b :: after) := by
      intro starts
      obtain ⟨first, second⟩ := List.cons_prefix_cons.mp starts
      cases before with
      | nil => exact apart (List.cons_prefix_cons.mp second).1.symm
      | cons d before =>
        rw [first, (List.cons_prefix_cons.mp second).1] at free
        exact free ⟨[], before, rfl⟩
    have none : [a, b].isPrefixOf (c :: (before ++ a :: b :: after)) = false := by
      rwa [Bool.eq_false_iff, Ne, List.isPrefixOf_iff_prefix]
    rw [List.cons_append, cutAtText, none, if_neg Bool.false_ne_true,
      ih fun held => free (List.infix_cons held), Option.map_some]

theorem cutAtText_of_free {pattern cs : List Char} (solid : pattern ≠ [])
    (free : ¬pattern <:+: cs) : cutAtText pattern cs = none := by
  cases found : cutAtText pattern cs with
  | none => rfl
  | some cut =>
    obtain ⟨rfl, -⟩ := cutAtText_eq_some solid found
    exact absurd ⟨cut.1, cut.2, by simp⟩ free

end Text

namespace Settings

open Text

/-! Parts and how they are written. -/

def expression (name : List Char) (default : Option (List Char)) : List Char :=
  match default with
  | none => name
  | some default => name ++ (defaultMark ++ default)

def Piece.isLiteral : Piece → Bool
  | .literal _ => true
  | .reference _ _ => false

def Piece.written : Piece → List Char
  | .literal text => text
  | .reference name default => referenceStart ++ (expression name default ++ ['\x7d'])

/-- A literal part starts no reference. The name of a reference holds neither its closing brace nor
what starts the default, and the default does not hold the brace. -/
def Piece.IsProper : Piece → Prop
  | .literal text => ¬referenceStart <:+: text
  | .reference name default =>
    '\x7d' ∉ name ∧ ¬defaultMark <:+: name ∧ ∀ cs ∈ default, '\x7d' ∉ cs

instance : DecidablePred Piece.IsProper
  | .literal _ => inferInstanceAs (Decidable (¬_))
  | .reference _ _ => inferInstanceAs (Decidable (_ ∧ _ ∧ _))

/-- The parts of a text, with what follows the start of a reference that is not closed. -/
structure Layout where
  parts : List Piece
  unclosed : Option (List Char)

namespace Layout

def tail (l : Layout) : List Char :=
  match l.unclosed with
  | none => []
  | some cs => referenceStart ++ cs

def text (l : Layout) : List Char := l.parts.flatMap Piece.written ++ l.tail

structure IsProper (l : Layout) : Prop where
  parts : ∀ p ∈ l.parts, p.IsProper
  /-- Literal parts side by side do not start a reference together either. -/
  runs : ∀ run, run <:+: l.parts → (∀ p ∈ run, p.isLiteral = true) →
    ¬referenceStart <:+: run.flatMap Piece.written
  unclosed : ∀ cs ∈ l.unclosed, '\x7d' ∉ cs

theorem IsProper.of_apart {l : Layout} (parts : ∀ p ∈ l.parts, p.IsProper)
    (apart : l.parts.IsChain fun p q => (p.isLiteral && q.isLiteral) = false)
    (unclosed : ∀ cs ∈ l.unclosed, '\x7d' ∉ cs) : l.IsProper := by
  refine ⟨parts, fun run within literal => ?_, unclosed⟩
  have alone := apart.infix within
  cases run with
  | nil => decide
  | cons p run =>
    cases run with
    | nil =>
      have proper := parts p (within.subset List.mem_cons_self)
      cases p with
      | reference name default => cases literal _ List.mem_cons_self
      | literal text =>
        rw [List.flatMap_singleton]
        exact proper
    | cons q run =>
      have first := literal p List.mem_cons_self
      have second := literal q (List.mem_cons_of_mem p List.mem_cons_self)
      rw [List.isChain_cons_cons, first, second] at alone
      cases alone.1

end Layout

/-! Taking a text apart. -/

theorem ofReference_expression {name : List Char} {default : Option (List Char)}
    (free : ¬defaultMark <:+: name) :
    Piece.ofReference (expression name default) = .reference name default := by
  rw [Piece.ofReference]
  cases default with
  | none => rw [expression, cutAtText_of_free (by decide) free]
  | some default =>
    rw [expression, defaultMark, List.cons_append, List.cons_append, List.nil_append,
      cutAtText_pair (by decide) free]

theorem exists_expression (cs : List Char) :
    ∃ name default, expression name default = cs ∧ ¬defaultMark <:+: name := by
  cases found : cutAtText defaultMark cs with
  | none => exact ⟨cs, none, rfl, cutAtText_eq_none found⟩
  | some cut =>
    obtain ⟨name, default⟩ := cut
    obtain ⟨whole, free⟩ := cutAtText_eq_some (by decide) found
    exact ⟨name, some default, whole.symm, free⟩

theorem isProper_reference_iff {name : List Char} {default : Option (List Char)} :
    (Piece.reference name default).IsProper ↔
      '\x7d' ∉ expression name default ∧ ¬defaultMark <:+: name := by
  have mark : '\x7d' ∉ defaultMark := by decide
  cases default with
  | none => simp [Piece.IsProper, expression]
  | some cs =>
    simp only [Piece.IsProper, expression, List.mem_append, mark, false_or, not_or, Option.mem_some]
    constructor
    · rintro ⟨named, marked, defaulted⟩
      exact ⟨⟨named, defaulted cs rfl⟩, marked⟩
    · rintro ⟨⟨named, defaulted⟩, marked⟩
      refine ⟨named, marked, ?_⟩
      rintro _ rfl
      exact defaulted

theorem pieces_eq (cs : List Char) :
    pieces cs =
      match cutAtText referenceStart cs with
      | none => [.literal cs]
      | some (before, rest) =>
        match cutAtFirst '\x7d' rest with
        | none => [.literal cs]
        | some (reference, after) =>
          .literal before :: Piece.ofReference reference :: pieces after := by
  rw [pieces]
  split
  · next found => rw [found]
  · next before rest found =>
    rw [found]
    dsimp only
    split
    · next unclosed => rw [unclosed]
    · next closed => rw [closed]

theorem pieces_of_free {cs : List Char} (free : ¬referenceStart <:+: cs) :
    pieces cs = [.literal cs] := by
  rw [pieces_eq, cutAtText_of_free (by decide) free]

section

variable {lead : List Char} (free : ¬referenceStart <:+: lead)

include free

theorem cutAtText_referenceStart (rest : List Char) :
    cutAtText referenceStart (lead ++ (referenceStart ++ rest)) = some (lead, rest) :=
  cutAtText_pair (by decide) free rest

theorem pieces_of_unclosed {rest : List Char} (unclosed : '\x7d' ∉ rest) :
    pieces (lead ++ (referenceStart ++ rest)) = [.literal (lead ++ (referenceStart ++ rest))] := by
  have none : cutAtFirst '\x7d' rest = none := by
    cases found : cutAtFirst '\x7d' rest with
    | none => rfl
    | some cut =>
      obtain ⟨rfl, -⟩ := cutAtFirst_eq_some_iff.mp found
      exact absurd (List.mem_append_right _ List.mem_cons_self) unclosed
  rw [pieces_eq, cutAtText_referenceStart free]
  simp only [none]

theorem pieces_of_reference {name : List Char} {default : Option (List Char)}
    (proper : (Piece.reference name default).IsProper) (rest : List Char) :
    pieces (lead ++ ((Piece.reference name default).written ++ rest)) =
      .literal lead :: .reference name default :: pieces rest := by
  obtain ⟨inside, marked⟩ := isProper_reference_iff.mp proper
  have closed : cutAtFirst '\x7d' (expression name default ++ '\x7d' :: rest) =
      some (expression name default, rest) := cutAtFirst_eq_some_iff.mpr ⟨rfl, inside⟩
  rw [Piece.written, List.append_assoc, List.append_assoc, List.singleton_append, pieces_eq,
    cutAtText_referenceStart free]
  simp only [closed, ofReference_expression marked]

end

theorem exists_layout (cs : List Char) :
    ∃ l : Layout, (∀ p ∈ l.parts, p.IsProper) ∧
      l.parts.IsChain (fun p q => (p.isLiteral && q.isLiteral) = false) ∧
        (∀ rest ∈ l.unclosed, '\x7d' ∉ rest) ∧ l.text = cs := by
  induction cs using pieces.induct with
  | case1 cs found =>
    refine ⟨⟨[.literal cs], none⟩, ?_, .singleton _, nofun, ?_⟩
    · exact List.forall_mem_singleton.mpr (cutAtText_eq_none found)
    · simp [Layout.text, Layout.tail, Piece.written]
  | case2 cs before rest found unclosed =>
    obtain ⟨rfl, free⟩ := cutAtText_eq_some (by decide) found
    refine ⟨⟨[.literal before], some rest⟩, ?_, .singleton _, ?_, ?_⟩
    · exact List.forall_mem_singleton.mpr free
    · rintro _ ⟨⟩
      exact cutAtFirst_eq_none unclosed
    · simp [Layout.text, Layout.tail, Piece.written]
  | case3 cs before rest found reference after closed ih =>
    obtain ⟨rfl, free⟩ := cutAtText_eq_some (by decide) found
    obtain ⟨rfl, inside⟩ := cutAtFirst_eq_some_iff.mp closed
    obtain ⟨⟨parts, unclosed⟩, proper, apart, ends, rfl⟩ := ih
    obtain ⟨name, default, rfl, marked⟩ := exists_expression reference
    have placed := isProper_reference_iff.mpr ⟨inside, marked⟩
    refine ⟨⟨.literal before :: .reference name default :: parts, unclosed⟩, ?_, ?_, ends, ?_⟩
    · exact List.forall_mem_cons.mpr ⟨free, List.forall_mem_cons.mpr ⟨placed, proper⟩⟩
    · exact .cons_cons rfl (List.isChain_cons.mpr ⟨fun _ _ => rfl, apart⟩)
    · simp [Layout.text, Layout.tail, Piece.written]

/-! What parts stand for. -/

def Piece.missing? (lookup? : String → Option String) : Piece → Option String
  | .literal _ => none
  | .reference _ (some _) => none
  | .reference name none =>
    if (lookup? (String.ofList name)).isNone then some (String.ofList name) else none

def Piece.meaning (lookup? : String → Option String) : Piece → List Char
  | .literal text => text
  | .reference name default =>
    match lookup? (String.ofList name) with
    | some value => value.toList
    | none => default.getD []

/-- The meanings of the parts one after the other, and the open end as it stands. -/
def Layout.meaning (lookup? : String → Option String) (l : Layout) : List Char :=
  l.parts.flatMap (Piece.meaning lookup?) ++ l.tail

variable (lookup? : String → Option String)

theorem value_eq (p : Piece) :
    p.value lookup? =
      match p.missing? lookup? with
      | some name => .error name
      | none => .ok (p.meaning lookup?) := by
  cases p with
  | literal text => rfl
  | reference name default =>
    cases found : lookup? (String.ofList name) <;> cases default <;>
      simp [Piece.value, Piece.missing?, Piece.meaning, found]

def valueOf (parts : List Piece) : Except String (List Char) :=
  (parts.mapM (Piece.value lookup?)).map List.flatten

theorem expand_eq (s : String) :
    expand lookup? s = (valueOf lookup? (pieces s.toList)).map String.ofList := by
  rw [expand, valueOf]
  cases (pieces s.toList).mapM (Piece.value lookup?) <;> rfl

@[simp]
theorem valueOf_cons (p : Piece) (parts : List Piece) :
    valueOf lookup? (p :: parts) =
      (p.value lookup?).bind fun cs => (valueOf lookup? parts).map (cs ++ ·) := by
  rw [valueOf, valueOf, List.mapM_cons]
  cases p.value lookup? with
  | error name => rfl
  | ok cs => cases parts.mapM (Piece.value lookup?) <;> rfl

theorem valueOf_eq (parts : List Piece) :
    valueOf lookup? parts =
      match parts.findSome? (Piece.missing? lookup?) with
      | some name => .error name
      | none => .ok (parts.flatMap (Piece.meaning lookup?)) := by
  induction parts with
  | nil => rfl
  | cons p parts ih =>
    rw [valueOf_cons, value_eq, ih, List.findSome?_cons]
    cases p.missing? lookup? with
    | some name => rfl
    | none => cases parts.findSome? (Piece.missing? lookup?) <;> rfl

theorem valueOf_literal (cs : List Char) (parts : List Piece) :
    valueOf lookup? (.literal cs :: parts) = (valueOf lookup? parts).map (cs ++ ·) :=
  valueOf_cons lookup? (.literal cs) parts

/-- No reference begins in the text, not even in what it makes with the literals behind it. -/
def FreeAfter (lead : List Char) (parts : List Piece) : Prop :=
  ∀ run, run <+: parts → (∀ p ∈ run, p.isLiteral = true) →
    ¬referenceStart <:+: lead ++ run.flatMap Piece.written

theorem FreeAfter.lead {lead : List Char} {parts : List Piece} (h : FreeAfter lead parts) :
    ¬referenceStart <:+: lead := by
  have none := h [] List.nil_prefix (fun _ h => absurd h List.not_mem_nil)
  rwa [List.flatMap_nil, List.append_nil] at none

theorem FreeAfter.append_literal {lead text : List Char} {parts : List Piece}
    (h : FreeAfter lead (.literal text :: parts)) : FreeAfter (lead ++ text) parts := by
  intro run within literal
  rw [List.append_assoc]
  exact h (.literal text :: run) (List.cons_prefix_cons.mpr ⟨rfl, within⟩)
    (List.forall_mem_cons.mpr ⟨rfl, literal⟩)

theorem Layout.IsProper.freeAfter {l : Layout} (h : l.IsProper) : FreeAfter [] l.parts :=
  fun run within => h.runs run within.isInfix

/-- A text has the value of the parts it is put together from. What was read before them belongs to
the literal parts in front. -/
theorem valueOf_pieces {parts : List Piece} {unclosed : Option (List Char)}
    (proper : Layout.IsProper ⟨parts, unclosed⟩) {lead : List Char}
    (free : FreeAfter lead parts) :
    valueOf lookup? (pieces (lead ++ Layout.text ⟨parts, unclosed⟩)) =
      (valueOf lookup? parts).map fun cs => lead ++ (cs ++ Layout.tail ⟨parts, unclosed⟩) := by
  -- What was read before has to vary: a literal part is added to it, and a reference clears it.
  induction parts generalizing lead with
  | nil =>
    have whole : pieces (lead ++ Layout.text ⟨[], unclosed⟩) =
        [.literal (lead ++ Layout.tail ⟨[], unclosed⟩)] := by
      cases unclosed with
      | none =>
        have alone : lead ++ Layout.text ⟨[], none⟩ = lead := List.append_nil lead
        rw [alone, pieces_of_free free.lead, Layout.tail, List.append_nil]
      | some rest => exact pieces_of_unclosed free.lead (proper.unclosed rest rfl)
    rw [whole, valueOf_literal]
    exact congrArg Except.ok (List.append_nil _)
  | cons p parts ih =>
    obtain ⟨here, others⟩ := List.forall_mem_cons.mp proper.parts
    have later : Layout.IsProper ⟨parts, unclosed⟩ :=
      ⟨others, fun run within => proper.runs run (List.infix_cons within), proper.unclosed⟩
    cases p with
    | literal text =>
      have whole : lead ++ Layout.text ⟨.literal text :: parts, unclosed⟩ =
          (lead ++ text) ++ Layout.text ⟨parts, unclosed⟩ := by
        simp [Layout.text, Piece.written, Layout.tail]
      rw [whole, ih later free.append_literal, valueOf_literal]
      cases valueOf lookup? parts with
      | error name => rfl
      | ok cs =>
        refine congrArg Except.ok ?_
        simp [Layout.tail]
    | reference name default =>
      have whole : Layout.text ⟨.reference name default :: parts, unclosed⟩ =
          (Piece.reference name default).written ++ ([] ++ Layout.text ⟨parts, unclosed⟩) := by
        simp [Layout.text, Layout.tail]
      rw [whole, pieces_of_reference free.lead here, valueOf_literal, valueOf_cons, valueOf_cons,
        ih later later.freeAfter]
      cases Piece.value lookup? (.reference name default) with
      | error missing => rfl
      | ok value =>
        cases valueOf lookup? parts with
        | error missing => rfl
        | ok cs =>
          refine congrArg Except.ok ?_
          simp [Layout.tail]

theorem expand_text {l : Layout} (proper : l.IsProper) :
    expand lookup? (String.ofList l.text) =
      match l.parts.findSome? (Piece.missing? lookup?) with
      | some name => .error name
      | none => .ok (String.ofList (l.meaning lookup?)) := by
  obtain ⟨parts, unclosed⟩ := l
  have value := valueOf_pieces lookup? proper proper.freeAfter
  rw [List.nil_append] at value
  rw [expand_eq, String.toList_ofList, value, valueOf_eq]
  dsimp only
  cases parts.findSome? (Piece.missing? lookup?) <;> rfl

/-- Every text is put together in some way, and however it is put together, it expands to the
meanings of its parts, with the open end as it stands. If some references have neither a value nor a
default, the first of them is the error. -/
theorem expands_each_once (s : String) :
    (∃ l : Layout, l.IsProper ∧ String.ofList l.text = s) ∧
      ∀ l : Layout, l.IsProper → String.ofList l.text = s →
        (l.parts.findSome? (Piece.missing? lookup?) = none →
          expand lookup? s = .ok (String.ofList (l.meaning lookup?))) ∧
        ∀ name, l.parts.findSome? (Piece.missing? lookup?) = some name →
          expand lookup? s = .error name ∧
            ∃ refusal, ofDocument lookup? s = .error refusal ∧
              refusal.message =
                "Environment variable " ++ name ++ " not found and no default provided" := by
  obtain ⟨l, parts, apart, unclosed, whole⟩ := exists_layout s.toList
  refine ⟨⟨l, .of_apart parts apart unclosed, by rw [whole, String.ofList_toList]⟩, ?_⟩
  rintro l proper rfl
  rw [expand_text lookup? proper]
  refine ⟨fun none => by rw [none], fun name missing => ?_⟩
  rw [missing]
  refine ⟨rfl, .unknownVariable name, ?_, rfl⟩
  rw [ofDocument, expand_text lookup? proper, missing]
  rfl

def sampleLayout : Layout :=
  ⟨[.literal ['$'], .reference ['X'] none, .literal "\x7ba\x7d".toList,
    .reference ['Y'] (some "$\x7bX".toList), .literal ['b']], some ['Z']⟩

def sampleValue? (name : String) : Option String :=
  if name = "X" then some "$\x7bY\x7d" else none

theorem expands_each_once_samples :
    expand sampleValue? "$$\x7bX\x7d\x7ba\x7d$\x7bY:-$\x7bX\x7db$\x7bZ" =
        .ok "$$\x7bY\x7d\x7ba\x7d$\x7bXb$\x7bZ" ∧
      expand sampleValue? "$\x7bX\x7d$\x7bP\x7d$\x7bQ\x7d" = .error "P" := by
  constructor
  · have proper : sampleLayout.IsProper := .of_apart (by decide) (by decide) (by decide)
    have expanded := ((expands_each_once sampleValue? _).2 sampleLayout proper rfl).1 (by decide)
    have written : String.ofList sampleLayout.text =
        "$$\x7bX\x7d\x7ba\x7d$\x7bY:-$\x7bX\x7db$\x7bZ" := by decide
    have meant : String.ofList (sampleLayout.meaning sampleValue?) =
        "$$\x7bY\x7d\x7ba\x7d$\x7bXb$\x7bZ" := by decide
    rwa [written, meant] at expanded
  · let missing : Layout :=
      ⟨[.reference ['X'] none, .reference ['P'] none, .reference ['Q'] none], none⟩
    have proper : missing.IsProper := .of_apart (by decide) (by decide) nofun
    have written : String.ofList missing.text = "$\x7bX\x7d$\x7bP\x7d$\x7bQ\x7d" := by decide
    exact (((expands_each_once sampleValue? _).2 missing proper written).2 "P" (by decide)).1

end Settings

end AddressBook
