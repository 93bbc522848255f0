import AddressBook.Proofs.Filter.Grammar

/-! Cutting derived texts at words. A search for a word passes over a piece of text when it finds the
word only behind it. Inside brackets it passes over everything; outside it stops at blanks in front of
the word. -/

namespace AddressBook.Filter

open Text

variable {nesting : Bool} {word : List Char} {depth : Int} {cs ds rest : List Char}

def prepend (cs : List Char) : Option (List Char × List Char) → Option (List Char × List Char) :=
  Option.map fun (left, right) => (cs ++ left, right)

theorem prepend_append (cs ds : List Char) (cut : Option (List Char × List Char)) :
    prepend (cs ++ ds) cut = prepend cs (prepend ds cut) := by
  cases cut <;> simp [prepend]

theorem before_eq (c : Char) (cut : Option (List Char × List Char)) : before c cut = prepend [c] cut :=
  rfl

def Passes (nesting : Bool) (word : List Char) (depth : Int) (cs rest : List Char) : Prop :=
  cutAtWord nesting word depth false (cs ++ rest) =
    prepend cs (cutAtWord nesting word depth false rest)

namespace Passes

theorem nil (rest : List Char) : Passes nesting word depth [] rest := by
  rw [Passes, List.nil_append]
  cases cutAtWord nesting word depth false rest <;> rfl

theorem append (first : Passes nesting word depth cs (ds ++ rest))
    (second : Passes nesting word depth ds rest) : Passes nesting word depth (cs ++ ds) rest := by
  rw [Passes] at *
  rw [List.append_assoc, first, second, prepend_append]

theorem spaced (first : Passes nesting word depth cs (' ' :: (ds ++ rest)))
    (blank : Passes nesting word depth [' '] (ds ++ rest)) (second : Passes nesting word depth ds rest) :
    Passes nesting word depth (cs ++ ' ' :: ds) rest := first.append (blank.append second)

end Passes

theorem cutAtWord_cons {c : Char} (escape : c ≠ '\\') (mark : c ≠ '"') (quoted : Bool) :
    cutAtWord nesting word depth quoted (c :: rest) =
      if quoted then before c (cutAtWord nesting word depth quoted rest)
      else if nesting && (c == '(' || c == '[') then
        before c (cutAtWord nesting word (depth + 1) quoted rest)
      else if nesting && (c == ')' || c == ']') then
        before c (cutAtWord nesting word (depth - 1) quoted rest)
      else if depth == 0 && startsWithWord word (c :: rest) then
        some ([], (c :: rest).drop word.length)
      else before c (cutAtWord nesting word depth quoted rest) := by
  rw [cutAtWord]
  · exact fun h _ => escape h
  · exact fun _ _ h _ => escape h
  · exact mark

theorem passes_char {c : Char} (escape : c ≠ '\\') (mark : c ≠ '"')
    (inner : (c == '(' || c == '[') = false) (outer : (c == ')' || c == ']') = false)
    (other : depth = 0 → startsWithWord word (c :: rest) = false) :
    Passes nesting word depth [c] rest := by
  rw [Passes, List.singleton_append, cutAtWord_cons escape mark, inner, outer, Bool.and_false,
    if_neg Bool.false_ne_true, if_neg Bool.false_ne_true, if_neg Bool.false_ne_true, if_neg]
  · rfl
  · rw [Bool.and_eq_true, beq_iff_eq, not_and, Bool.not_eq_true]
    exact other

theorem passes_blank (other : depth = 0 → startsWithWord word (' ' :: rest) = false) :
    Passes nesting word depth [' '] rest :=
  passes_char (by decide) (by decide) rfl rfl other

theorem startsWithWord_of_ne {w c : Char} (h : c.toLower ≠ w) (word rest : List Char) :
    startsWithWord (w :: word) (c :: rest) = false := by
  rw [startsWithWord, beq_eq_false_iff_ne.mpr h, Bool.false_and]

theorem passes_solid {c : Char} (hc : isSolid c = true)
    (other : depth = 0 → startsWithWord word (c :: rest) = false) :
    Passes nesting word depth [c] rest := by
  have apart : ∀ d, isSolid d = false → (c == d) = false :=
    fun d hd => beq_eq_false_iff_ne.mpr (ne_of_isSolid hc hd)
  refine passes_char (ne_of_isSolid hc rfl) (ne_of_isSolid hc rfl) ?_ ?_ other
  · rw [apart _ rfl, apart _ rfl]
    rfl
  · rw [apart _ rfl, apart _ rfl]
    rfl

theorem passes_of_solid {w : Char} (hw : isSolid w = false) (h : ∀ c ∈ cs, isSolid c = true)
    (rest : List Char) : Passes nesting (w :: word) depth cs rest := by
  induction cs with
  | nil => exact .nil rest
  | cons c cs ih =>
    have hc := h c List.mem_cons_self
    refine Passes.append (passes_solid hc fun _ => startsWithWord_of_ne ?_ _ _)
      (ih fun d hd => h d (List.mem_cons_of_mem c hd))
    exact ne_of_isSolid (isSolid_toLower hc) hw

theorem cutAtWord_escapeChars (cs rest : List Char) :
    cutAtWord nesting word depth true (escapeChars cs ++ '"' :: rest) =
      prepend (escapeChars cs ++ ['"']) (cutAtWord nesting word depth false rest) := by
  induction cs with
  | nil =>
    change cutAtWord nesting word depth true ('"' :: rest) = _
    rw [cutAtWord]
    rfl
  | cons c cs ih =>
    rw [escapeChars_cons, List.append_assoc, List.append_assoc, prepend_append, ← ih]
    split
    · simp only [List.cons_append, List.nil_append, cutAtWord, before_eq, ← prepend_append]
    · next plain =>
      simp only [isEscaped, Bool.or_eq_true, beq_iff_eq, not_or] at plain
      rw [List.singleton_append, cutAtWord_cons plain.2 plain.1, if_pos rfl]
      rfl

theorem passes_quote (s : String) (rest : List Char) :
    Passes nesting word depth (quote s).toList rest := by
  rw [Passes, quote, String.toList_ofList, List.cons_append, List.cons_append, List.append_assoc,
    List.singleton_append, cutAtWord, Bool.not_false, cutAtWord_escapeChars, before_eq,
    ← prepend_append, List.singleton_append]

theorem passes_leaf {name : String} {value : Json} {w : Char} (hw : isSolid w = false)
    (operator : Operator) (identifier : isIdentifier name = true) (h : WrittenValue cs value)
    (before : startsWithWord (w :: word) (' ' :: (operator.word.toList ++ ' ' :: (cs ++ rest))) = false)
    (behind : startsWithWord (w :: word) (' ' :: (cs ++ rest)) = false) :
    Passes nesting (w :: word) depth (name.toList ++ ' ' :: (operator.word.toList ++ ' ' :: cs))
      rest := by
  obtain ⟨-, -, -, -, solid⟩ := exists_of_isIdentifier identifier
  have written : Passes nesting (w :: word) depth cs rest := by
    rcases h.solid_or_quote with ⟨-, plain⟩ | ⟨s, rfl⟩
    · exact passes_of_solid hw plain rest
    · exact passes_quote s rest
  have second : Passes nesting (w :: word) depth (operator.word.toList ++ ' ' :: cs) rest :=
    (passes_of_solid hw operator.solid_word _).spaced (passes_blank fun _ => behind) written
  refine (passes_of_solid hw solid _).spaced (passes_blank fun _ => ?_) second
  rwa [List.append_assoc, List.cons_append]

theorem passes_brackets (h : Passes true word (depth + 1) cs (')' :: rest)) :
    Passes true word depth ('(' :: (cs ++ [')'])) rest := by
  rw [Passes] at h ⊢
  rw [List.cons_append, List.append_assoc, List.singleton_append,
    cutAtWord_cons (by decide) (by decide), if_neg Bool.false_ne_true, if_pos (by decide), h,
    cutAtWord_cons (by decide) (by decide), if_neg Bool.false_ne_true, if_neg (by decide),
    if_pos (by decide), Int.add_sub_cancel, before_eq, before_eq, ← prepend_append, ← prepend_append]
  rfl

/-- Inside brackets, everything is passed over. -/
theorem Balanced.passes (h : Balanced cs) (hd : 0 < depth) (rest : List Char) :
    Passes true word depth cs rest := by
  have inside : depth ≠ 0 := Int.ne_of_gt hd
  induction h generalizing depth rest with
  | nil => exact .nil rest
  | solid hc _ ih =>
    exact Passes.append (passes_solid hc fun outside => absurd outside inside) (ih hd rest inside)
  | blank _ ih =>
    exact Passes.append (passes_blank fun outside => absurd outside inside) (ih hd rest inside)
  | quoted s _ ih => exact (passes_quote s _).append (ih hd rest inside)
  | @bracketed inner cs _ _ ihi ih =>
    have whole := (passes_brackets (ihi (by omega) _ (by omega))).append (ih hd rest inside)
    simpa using whole

theorem closesAtEnd_cons {c : Char} (escape : c ≠ '\\') (mark : c ≠ '"') (quoted : Bool) :
    closesAtEnd depth quoted (c :: rest) =
      if quoted then closesAtEnd depth quoted rest
      else if c == '(' then closesAtEnd (depth + 1) quoted rest
      else if c == ')' then
        if depth - 1 == 0 && !rest.isEmpty then false else closesAtEnd (depth - 1) quoted rest
      else closesAtEnd depth quoted rest := by
  rw [closesAtEnd]
  · exact fun h _ => escape h
  · exact fun _ _ h _ => escape h
  · exact mark

theorem closesAtEnd_escapeChars (cs rest : List Char) :
    closesAtEnd depth true (escapeChars cs ++ '"' :: rest) = closesAtEnd depth false rest := by
  induction cs with
  | nil =>
    change closesAtEnd depth true ('"' :: rest) = _
    rw [closesAtEnd]
    rfl
  | cons c cs ih =>
    rw [escapeChars_cons, List.append_assoc, ← ih]
    split
    · simp only [List.cons_append, List.nil_append, closesAtEnd]
    · next plain =>
      simp only [isEscaped, Bool.or_eq_true, beq_iff_eq, not_or] at plain
      rw [List.singleton_append, closesAtEnd_cons plain.2 plain.1, if_pos rfl]

theorem closesAtEnd_quote (s : String) (rest : List Char) :
    closesAtEnd depth false ((quote s).toList ++ rest) = closesAtEnd depth false rest := by
  rw [quote, String.toList_ofList, List.cons_append, List.cons_append, List.append_assoc,
    List.singleton_append, closesAtEnd, Bool.not_false, closesAtEnd_escapeChars]

theorem Balanced.closesAtEnd_append (h : Balanced cs) (hd : 0 < depth) (rest : List Char) :
    closesAtEnd depth false (cs ++ rest) = closesAtEnd depth false rest := by
  induction h generalizing depth rest with
  | nil => rfl
  | @solid c cs hc _ ih =>
    have apart : ∀ d, isSolid d = false → (c == d) = false :=
      fun d hd => beq_eq_false_iff_ne.mpr (ne_of_isSolid hc hd)
    rw [List.cons_append, closesAtEnd_cons (ne_of_isSolid hc rfl) (ne_of_isSolid hc rfl),
      if_neg Bool.false_ne_true, apart _ rfl, apart _ rfl, if_neg Bool.false_ne_true,
      if_neg Bool.false_ne_true, ih hd]
  | blank _ ih =>
    rw [List.cons_append, closesAtEnd_cons (by decide) (by decide), if_neg Bool.false_ne_true,
      if_neg (by decide), if_neg (by decide), ih hd]
  | quoted s _ ih =>
    rw [List.append_assoc, closesAtEnd_quote, ih hd]
  | @bracketed inner cs _ _ ihi ih =>
    have deeper : (depth + 1 - 1 == 0) = false := by
      rw [beq_eq_false_iff_ne]
      omega
    rw [List.cons_append, List.append_assoc, List.cons_append,
      closesAtEnd_cons (by decide) (by decide), if_neg Bool.false_ne_true, if_pos (by decide),
      ihi (by omega), closesAtEnd_cons (by decide) (by decide), if_neg Bool.false_ne_true,
      if_neg (by decide), if_pos (by decide), deeper, Bool.false_and, if_neg Bool.false_ne_true,
      Int.add_sub_cancel, ih hd]

theorem enclosed?_brackets (h : Balanced cs) : enclosed? ('(' :: (cs ++ [')'])) = some cs := by
  have closes : closesAtEnd 0 false ('(' :: (cs ++ [')'])) = true := by
    rw [closesAtEnd_cons (by decide) (by decide), if_neg Bool.false_ne_true, if_pos (by decide),
      h.closesAtEnd_append (by decide)]
    decide
  rw [enclosed?, closes, List.getLast?_concat, List.dropLast_concat]
  simp

theorem enclosed?_brackets_cons (h : Balanced cs) (c : Char) (rest : List Char) :
    enclosed? ('(' :: (cs ++ ')' :: c :: rest)) = none := by
  have early : closesAtEnd 0 false ('(' :: (cs ++ ')' :: c :: rest)) = false := by
    rw [closesAtEnd_cons (by decide) (by decide), if_neg Bool.false_ne_true, if_pos (by decide),
      h.closesAtEnd_append (by decide), closesAtEnd_cons (by decide) (by decide),
      if_neg Bool.false_ne_true, if_neg (by decide), if_pos (by decide)]
    rfl
  rw [enclosed?, early, Bool.and_false, if_neg Bool.false_ne_true]

theorem enclosed?_of_ne {c : Char} (h : c ≠ '(') (cs : List Char) : enclosed? (c :: cs) = none := by
  rw [enclosed?]
  rintro rest ⟨⟩
  exact h rfl

theorem lower_of_startsWithWord {name : List Char} (hw : ' ' ∉ word)
    (hn : ∀ c ∈ name, isSolid c = true)
    (h : startsWithWord (word ++ [' ']) (name ++ ' ' :: rest) = true) :
    name.map Char.toLower = word := by
  induction word generalizing name with
  | nil =>
    cases name with
    | nil => rfl
    | cons c name =>
      have solid := isSolid_toLower (hn c List.mem_cons_self)
      rw [List.nil_append, List.cons_append, startsWithWord_of_ne (ne_of_isSolid solid rfl)] at h
      cases h
  | cons w word ih =>
    rw [List.mem_cons, not_or] at hw
    cases name with
    | nil =>
      have blank : ' '.toLower ≠ w := hw.1
      rw [List.cons_append, List.nil_append, startsWithWord_of_ne blank] at h
      cases h
    | cons c name =>
      rw [List.cons_append, List.cons_append, startsWithWord, Bool.and_eq_true, beq_iff_eq] at h
      rw [List.map_cons, h.1, ih hw.2 (fun d hd => hn d (List.mem_cons_of_mem c hd)) h.2]

theorem not_startsWithWord_name {name : String} (word : String)
    (hw : word ∈ ["and", "or", "not"]) (identifier : isIdentifier name = true)
    (free : isReserved name = false) (rest : List Char) :
    startsWithWord (word.toList ++ [' ']) (name.toList ++ ' ' :: rest) = false := by
  obtain ⟨-, -, -, -, solid⟩ := exists_of_isIdentifier identifier
  have blankless : ∀ word ∈ ["and", "or", "not"], ' ' ∉ word.toList ∧ asciiLower word = word := by
    decide
  obtain ⟨unbroken, small⟩ := blankless word hw
  rw [Bool.eq_false_iff]
  intro starts
  have lower := lower_of_startsWithWord unbroken solid starts
  have same : sameAscii name word = true := by
    rw [sameAscii, asciiLower, lower, small, String.ofList_toList]
    exact beq_self_eq_true word
  rw [isReserved, List.any_eq_false] at free
  exact free word hw same

/-- The words that may join the pieces of a text of the level. -/
def Level.joints : Level → List String
  | .negation => []
  | .conjunction => [" and "]
  | .disjunction => [" and ", " or "]

theorem eq_of_mem_joints {joint : String} (h : joint ∈ Level.disjunction.joints) :
    joint = " and " ∨ joint = " or " := by
  simpa [Level.joints] using h

theorem not_startsWithWord_of_ne {joint : String} (hj : joint ∈ Level.disjunction.joints) {c : Char}
    (ds : List Char) (ha : c.toLower ≠ 'a') (ho : c.toLower ≠ 'o') :
    startsWithWord joint.toList (' ' :: c :: ds) = false := by
  have blank : ∀ word ds, startsWithWord (' ' :: word) (' ' :: ds) = startsWithWord word ds :=
    fun _ _ => rfl
  rcases eq_of_mem_joints hj with rfl | rfl
  · exact (blank _ _).trans (startsWithWord_of_ne ha _ _)
  · exact (blank _ _).trans (startsWithWord_of_ne ho _ _)

namespace Derives

variable {level : Level} {f : Filter}

theorem not_startsWithWord (h : Derives level cs f) {joint : String}
    (hj : joint ∈ Level.disjunction.joints) (rest : List Char) :
    startsWithWord joint.toList (' ' :: (cs ++ rest)) = false := by
  have other : ∀ {c : Char} (ds : List Char), c.toLower ≠ 'a' → c.toLower ≠ 'o' →
      startsWithWord joint.toList (' ' :: c :: ds) = false := not_startsWithWord_of_ne hj
  induction h generalizing rest with
  | @leaf name cs _ operator identifier free _ =>
    rw [List.append_assoc, List.cons_append]
    rcases eq_of_mem_joints hj with rfl | rfl
    · exact not_startsWithWord_name "and" (by decide) identifier free _
    · exact not_startsWithWord_name "or" (by decide) identifier free _
  | enclosed _ _ => exact other _ (by decide) (by decide)
  | negation _ _ => exact other _ (by decide) (by decide)
  | single _ ih => exact ih rest
  | both _ _ left _ =>
    rw [List.append_assoc]
    exact left _
  | only _ ih => exact ih rest
  | either _ _ left _ =>
    rw [List.append_assoc]
    exact left _

theorem passes (h : Derives level cs f) {joint : String} (hj : joint ∈ Level.disjunction.joints)
    (free : joint ∉ level.joints) (rest : List Char) : Passes true joint.toList 0 cs rest := by
  obtain ⟨word, chars⟩ : ∃ word, joint.toList = ' ' :: word := by
    rcases eq_of_mem_joints hj with rfl | rfl
    · exact ⟨_, rfl⟩
    · exact ⟨_, rfl⟩
  have solid : ∀ {w : List Char}, (∀ c ∈ w, isSolid c = true) → ∀ rest,
      Passes true joint.toList 0 w rest := by
    intro w hw rest
    rw [chars]
    exact passes_of_solid rfl hw rest
  have blank : ∀ rest, startsWithWord joint.toList (' ' :: rest) = false →
      Passes true joint.toList 0 [' '] rest := fun rest other => passes_blank fun _ => other
  -- A joint that is none of the level stands in brackets or in a quoted value.
  induction h generalizing rest with
  | @leaf name cs value operator identifier _ h =>
    obtain ⟨a, b, letters, initial, small, -⟩ := operator.exists_word
    obtain ⟨c, ds, value, apart⟩ := h.exists_cons
    have initials : 'a' ∉ Operator.initials ∧ 'o' ∉ Operator.initials := by decide
    have before : ∀ rest, startsWithWord joint.toList (' ' :: (operator.word.toList ++ rest)) = false := by
      intro rest
      rw [letters]
      rw [← small] at initial
      exact not_startsWithWord_of_ne hj _ (fun same => initials.1 (same ▸ initial))
        fun same => initials.2 (same ▸ initial)
    have behind : startsWithWord joint.toList (' ' :: (cs ++ rest)) = false := by
      rw [value]
      rw [List.mem_cons, List.mem_cons, not_or, not_or] at apart
      exact not_startsWithWord_of_ne hj _ apart.1 apart.2.1
    rw [chars] at before behind ⊢
    exact passes_leaf rfl operator identifier h (before _) behind
  | @enclosed cs _ h _ => exact passes_brackets (h.balanced.passes (by decide) _)
  | negation h ih =>
    have word := solid (w := ['n', 'o', 't']) (List.all_eq_true.mp (by decide))
    exact (word _).spaced (blank _ (h.not_startsWithWord hj _)) (ih free rest)
  | single _ ih => exact ih List.not_mem_nil rest
  | @both _ ds _ _ _ h left right =>
    have only : joint = " or " :=
      (eq_of_mem_joints hj).resolve_left fun same => free (List.mem_singleton.mpr same)
    have word := solid (w := ['a', 'n', 'd']) (List.all_eq_true.mp (by decide))
    have joined : startsWithWord joint.toList (' ' :: (['a', 'n', 'd'] ++ ' ' :: ds ++ rest)) = false := by
      rw [only]
      rfl
    exact (left List.not_mem_nil _).spaced (blank _ joined)
      ((word _).spaced (blank _ (h.not_startsWithWord hj _)) (right free rest))
  | only _ ih =>
    exact ih (fun joins => free (List.mem_cons.mpr (Or.inl (List.mem_singleton.mp joins)))) rest
  | either _ _ _ _ => exact absurd hj free

theorem cutAtJoint_eq_none (h : Derives level cs f) {joint : String}
    (hj : joint ∈ Level.disjunction.joints) (free : joint ∉ level.joints) :
    cutAtJoint joint cs = none := by
  have passed := h.passes hj free []
  rw [Passes, List.append_nil] at passed
  rw [cutAtJoint, passed]
  rfl

/-- A text is cut at the first joint that it does not contain itself. -/
theorem cutAtJoint_eq_some (h : Derives level cs f) {joint : String}
    (hj : joint ∈ Level.disjunction.joints) (free : joint ∉ level.joints) (ds : List Char) :
    cutAtJoint joint (cs ++ (joint.toList ++ ds)) = some (cs, ds) := by
  have found : cutAtWord true joint.toList 0 false (joint.toList ++ ds) = some ([], ds) := by
    rcases eq_of_mem_joints hj with rfl | rfl
    · rfl
    · rfl
  have passed := h.passes hj free (joint.toList ++ ds)
  rw [Passes, found] at passed
  rw [cutAtJoint, passed]
  simp [prepend]

theorem enclosed?_cons (h : Derives level cs f) (c : Char) (rest : List Char) :
    enclosed? (cs ++ c :: rest) = none := by
  induction h generalizing c rest with
  | leaf _ identifier _ _ =>
    obtain ⟨d, ds, chars, start, -⟩ := exists_of_isIdentifier identifier
    rw [chars]
    refine enclosed?_of_ne ?_ _
    rintro rfl
    cases start
  | enclosed h _ =>
    rw [List.cons_append, List.append_assoc]
    exact enclosed?_brackets_cons h.balanced c rest
  | negation _ _ => exact enclosed?_of_ne (by decide) _
  | single _ ih => exact ih c rest
  | both _ _ left _ =>
    rw [List.append_assoc]
    exact left _ _
  | only _ ih => exact ih c rest
  | either _ _ left _ =>
    rw [List.append_assoc]
    exact left _ _

theorem enclosed?_joint (h : Derives level cs f) {joint : String}
    (hj : joint ∈ Level.disjunction.joints) (ds : List Char) :
    enclosed? (cs ++ (joint.toList ++ ds)) = none := by
  rcases eq_of_mem_joints hj with rfl | rfl
  · exact h.enclosed?_cons _ _
  · exact h.enclosed?_cons _ _

end Derives

end AddressBook.Filter
