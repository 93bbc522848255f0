import AddressBook.Proofs.Attribute.Taking
import AddressBook.Proofs.Except

/-! What taking leaves behind. Attributes are looked up whatever their case but kept under the
spelling in which they were given, so a name may be given in several spellings at once. The first of
them is taken and the others stay, so a name is taken as a whole exactly if it has one spelling at
most. -/

namespace AddressBook.Attributes

open Text

variable {attributes : Attributes} {name other : String}

def spellings {α : Type} (entries : List (String × α)) (name : String) : Nat :=
  entries.countP fun e => sameAscii e.1 name

def named (attributes : Attributes) (name : String) : Attributes :=
  attributes.filter fun a => sameAscii a.1 name

/-- The attributes of other names. -/
def others (attributes : Attributes) (name : String) : Attributes :=
  attributes.filter fun a => !sameAscii a.1 name

def valuesOf (attributes : Attributes) (name : String) : List AttributeValue :=
  (attributes.named name).flatMap Prod.snd

theorem length_named (attributes : Attributes) (name : String) :
    (attributes.named name).length = spellings attributes name :=
  List.countP_eq_length_filter.symm

theorem lacks_iff_named : attributes.Lacks name ↔ attributes.named name = [] := by
  rw [named, List.filter_eq_nil_iff]
  simp only [Lacks, Bool.not_eq_true]

theorem named_congr (h : sameAscii name other = true) :
    attributes.named name = attributes.named other := by
  refine List.filter_congr fun a _ => ?_
  rw [sameAscii_comm, sameAscii_congr h, sameAscii_comm]

/-! One name is taken. -/

theorem filter_eraseP_of_apart {α : Type} {p q : α → Bool} {as : List α}
    (h : ∀ a, p a = true → q a = false) : (as.eraseP p).filter q = as.filter q := by
  induction as with
  | nil => rfl
  | cons a as ih =>
    cases erased : p a with
    | true => rw [List.eraseP_cons_of_pos erased, List.filter_cons_of_neg (by simp [h a erased])]
    | false =>
      rw [List.eraseP_cons_of_neg (by simp [erased]), List.filter_cons, List.filter_cons, ih]

theorem filter_eraseP_self {α : Type} (p : α → Bool) (as : List α) :
    (as.eraseP p).filter p = (as.filter p).tail := by
  induction as with
  | nil => rfl
  | cons a as ih =>
    cases erased : p a with
    | true => rw [List.eraseP_cons_of_pos erased, List.filter_cons_of_pos erased, List.tail_cons]
    | false =>
      have kept : ¬p a = true := by simp [erased]
      rw [List.eraseP_cons_of_neg kept, List.filter_cons_of_neg kept, List.filter_cons_of_neg kept,
        ih]

theorem take_named (attributes : Attributes) (name : String) :
    (attributes.take name).1 = (attributes.named name).head?.map Prod.snd := by
  rw [take_eq, named, List.head?_filter]

theorem named_take (attributes : Attributes) (name : String) :
    (attributes.take name).2.named name = (attributes.named name).tail := by
  rw [take_eq]
  exact filter_eraseP_self _ attributes

theorem named_take_of_ne (h : sameAscii name other = false) :
    (attributes.take name).2.named other = attributes.named other := by
  rw [take_eq]
  refine filter_eraseP_of_apart fun a same => ?_
  rw [sameAscii_congr same, h]

theorem others_take (attributes : Attributes) (name : String) :
    (attributes.take name).2.others name = attributes.others name := by
  rw [take_eq]
  refine filter_eraseP_of_apart fun a same => ?_
  rw [same, Bool.not_true]

theorem tail_named_eq_nil_iff :
    (attributes.named name).tail = [] ↔ spellings attributes name ≤ 1 := by
  rw [← List.length_eq_zero_iff, List.length_tail, length_named]
  omega

theorem take_eq_others_iff :
    (attributes.take name).2 = attributes.others name ↔ spellings attributes name ≤ 1 := by
  rw [← tail_named_eq_nil_iff, ← named_take, ← lacks_iff_named]
  constructor
  · intro left a ha
    rw [left, others, List.mem_filter] at ha
    simpa using ha.2
  · intro lacks
    rw [← others_take, others, List.filter_eq_self.mpr]
    intro a ha
    rw [lacks a ha, Bool.not_false]

def leftBy (attributes : Attributes) (name : String) : List Attributes :=
  [(attributes.take name).2, (attributes.takeTexts name).2, (attributes.takeText name).2,
    (attributes.takeBoolean name).2, (attributes.takeSecret name).2]

theorem eq_take_of_mem_leftBy {rest : Attributes} (h : rest ∈ attributes.leftBy name) :
    rest = (attributes.take name).2 := by
  simp only [leftBy, List.mem_cons, List.not_mem_nil, or_false] at h
  rcases h with rfl | rfl | rfl | rfl | rfl <;> rfl

/-- A name is taken as a whole: whichever way it is taken, the attributes of other names are left
and no more, and what is handed over is read from all the values under the name. -/
structure TakesAll (attributes : Attributes) (name : String) : Prop where
  left : ∀ rest ∈ attributes.leftBy name, rest = attributes.others name
  values : (attributes.take name).1.getD [] = attributes.valuesOf name
  texts : (attributes.takeTexts name).1.getD [] =
    (attributes.valuesOf name).filterMap AttributeValue.storedText?
  text : (attributes.takeText name).1 =
    ((attributes.valuesOf name).filterMap AttributeValue.storedText?).head?
  boolean : ∀ b, (attributes.takeBoolean name).1 = .ok (some b) ↔
    (attributes.valuesOf name).head?.bind AttributeValue.boolean? = some b
  secret : (attributes.takeSecret name).1 =
    (attributes.valuesOf name).findSome? AttributeValue.secret?

theorem getD_take_of_spellings (h : spellings attributes name ≤ 1) :
    (attributes.take name).1.getD [] = attributes.valuesOf name := by
  rw [take_named, valuesOf]
  rw [← tail_named_eq_nil_iff] at h
  cases found : attributes.named name with
  | nil => rfl
  | cons a later =>
    rw [found, List.tail_cons] at h
    rw [h, List.flatMap_singleton]
    rfl

theorem takeBoolean_eq_some_iff {b : Bool} : (attributes.takeBoolean name).1 = .ok (some b) ↔
    ((attributes.take name).1.getD []).head?.bind AttributeValue.boolean? = some b := by
  rw [takeBoolean]
  rcases attributes.take name with ⟨none | values, rest⟩
  · simp
  · dsimp only [Option.getD_some]
    cases values.head?.bind AttributeValue.boolean? <;> simp

theorem takesAll_iff : attributes.TakesAll name ↔ spellings attributes name ≤ 1 := by
  constructor
  · intro all
    exact take_eq_others_iff.mp (all.left _ List.mem_cons_self)
  · intro once
    have values := getD_take_of_spellings once
    refine ⟨?_, values, ?_, ?_, ?_, ?_⟩
    · intro rest hr
      rw [eq_take_of_mem_leftBy hr, take_eq_others_iff]
      exact once
    all_goals
      rw [← values]
    · change ((attributes.take name).1.map _).getD [] = _
      cases (attributes.take name).1 <;> rfl
    · change ((attributes.take name).1.map _).bind List.head? = _
      cases (attributes.take name).1 <;> rfl
    · exact fun b => takeBoolean_eq_some_iff
    · change (attributes.take name).1.bind _ = _
      cases (attributes.take name).1 <;> rfl

/-! Several names are taken. -/

def takeEach (names : List String) (attributes : Attributes) : Attributes :=
  names.foldl (fun rest name => (rest.take name).2) attributes

theorem named_takeEach {names : List String}
    (apart : names.Pairwise fun a b => sameAscii a b = false) (attributes : Attributes)
    (name : String) :
    (attributes.takeEach names).named name =
      if names.any (sameAscii · name) then (attributes.named name).tail
      else attributes.named name := by
  induction names generalizing attributes with
  | nil => rfl
  | cons first names ih =>
    obtain ⟨different, others⟩ := List.pairwise_cons.mp apart
    change ((attributes.take first).2.takeEach names).named name = _
    rw [ih others, List.any_cons]
    cases same : sameAscii first name with
    | true =>
      have later : names.any (sameAscii · name) = false := by
        rw [List.any_eq_false]
        intro next hn
        rw [sameAscii_comm, ← sameAscii_congr same, different next hn]
        exact Bool.false_ne_true
      rw [later, Bool.true_or, if_neg Bool.false_ne_true, if_pos rfl, ← named_congr same,
        named_take, named_congr same]
    | false => rw [Bool.false_or, named_take_of_ne same]

/-! Attributes that were read. -/

theorem keys_ofMembers {members : List (String × Json)} (h : ofMembers members = .ok attributes) :
    attributes.map Prod.fst = members.map Prod.fst := by
  induction members generalizing attributes with
  | nil =>
    cases h
    rfl
  | cons member members ih =>
    obtain ⟨key, json⟩ := member
    rw [ofMembers] at h
    obtain ⟨values, -, h⟩ := bind_eq_ok h
    obtain ⟨rest, others, h⟩ := bind_eq_ok h
    cases h
    rw [List.map_cons, List.map_cons, ih others]

theorem spellings_ofMembers {members : List (String × Json)}
    (h : ofMembers members = .ok attributes) (name : String) :
    spellings attributes name = spellings members name := by
  have byKeys : ∀ {α : Type} (entries : List (String × α)),
      spellings entries name = (entries.map Prod.fst).countP (sameAscii · name) := by
    intro α entries
    rw [List.countP_map]
    rfl
  rw [byKeys, byKeys, keys_ofMembers h]

end AddressBook.Attributes
