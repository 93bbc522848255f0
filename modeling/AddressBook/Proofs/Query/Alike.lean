import Mathlib.Data.List.Forall2
import AddressBook.Proofs.Filter.Query

/-! Queries that are built alike: the same comparisons under the same connectives, with fields and
texts of their own. A field ends where an identifier cannot go on, and a text ends with its quotation
mark; so what is written tells the fields. -/

namespace AddressBook

namespace Query

open Formula Text

/-- Where both texts begin a text, the condition holds and the rest is the same. -/
def Forces (cs ds : List Char) (P : Prop) : Prop :=
  ∀ rest rest', cs ++ rest = ds ++ rest' → P ∧ rest = rest'

namespace Forces

variable {cs ds cs' ds' : List Char} {P Q : Prop}

theorem refl (cs : List Char) : Forces cs cs True := fun _ _ h =>
  ⟨trivial, List.append_cancel_left h⟩

theorem append (first : Forces cs ds P) (second : Forces cs' ds' Q) :
    Forces (cs ++ cs') (ds ++ ds') (P ∧ Q) := by
  intro rest rest' h
  rw [List.append_assoc, List.append_assoc] at h
  obtain ⟨p, behind⟩ := first _ _ h
  obtain ⟨q, same⟩ := second _ _ behind
  exact ⟨⟨p, q⟩, same⟩

theorem imp (h : Forces cs ds P) (f : P → Q) : Forces cs ds Q := fun rest rest' same =>
  (h rest rest' same).imp_left f

theorem behind (before : List Char) (h : Forces cs ds P) : Forces (before ++ cs) (before ++ ds) P :=
  ((refl before).append h).imp And.right

theorem before (h : Forces cs ds P) (after : List Char) : Forces (cs ++ after) (ds ++ after) P :=
  (h.append (refl after)).imp And.left

theorem eq (h : Forces cs ds P) (same : cs = ds) : P := by
  refine (h [] [] ?_).1
  rw [same]

end Forces

/-! Fields. -/

theorem forces_identifier {a b : String} (ha : isIdentifier a = true) (hb : isIdentifier b = true)
    (mark : Char) (hm : isIdentifierChar mark = false) :
    Forces (a.toList ++ [mark]) (b.toList ++ [mark]) (a = b) := by
  have whole : ∀ {s : String}, isIdentifier s = true → ∀ rest,
      (s.toList ++ [mark] ++ rest).takeWhile isIdentifierChar = s.toList := by
    intro s hs rest
    obtain ⟨-, -, -, -, solid⟩ := chars_of_isIdentifier hs
    rw [List.append_assoc, List.takeWhile_append_of_pos solid, List.singleton_append,
      List.takeWhile_cons_of_neg (by simp [hm]), List.append_nil]
  intro rest rest' same
  have names : a.toList = b.toList := by rw [← whole ha rest, same, whole hb rest']
  obtain rfl := String.toList_injective names
  exact ⟨rfl, List.append_cancel_left same⟩

theorem ne_of_isIdentifier {s : String} (h : isIdentifier s = true) (cs ds : List Char) :
    '@' :: cs ≠ s.toList ++ ds := by
  obtain ⟨c, others, shape, start, -⟩ := chars_of_isIdentifier h
  intro same
  rw [shape, List.cons_append] at same
  obtain rfl := (List.cons.inj same).1
  exact absurd start (by decide)

theorem forces_field {f g : Field} (hf : isIdentifier f.name = true) (hg : isIdentifier g.name = true)
    (mark : Char) (hm : isIdentifierChar mark = false) :
    Forces (f.write.toList ++ [mark]) (g.write.toList ++ [mark]) (f.name = g.name) := by
  have marks : "@LowerCase(".toList = '@' :: "LowerCase(".toList ∧ ")".toList = [')'] := by decide
  have lowered : ∀ {f : Field}, f.lowered = true →
      f.write.toList = '@' :: "LowerCase(".toList ++ (f.name.toList ++ [')']) := by
    intro f h
    rw [Field.write, if_pos h, String.toList_append, String.toList_append, marks.1, marks.2,
      List.append_assoc]
  have plain : ∀ {f : Field}, f.lowered = false → f.write.toList = f.name.toList := by
    intro f h
    rw [Field.write, if_neg (by simp [h])]
  cases first : f.lowered with
  | true =>
    rw [lowered first]
    cases second : g.lowered with
    | true =>
      rw [lowered second]
      exact ((forces_identifier hf hg ')' (by decide)).behind _).before [mark]
    | false =>
      rw [plain second]
      intro rest rest' same
      simp only [List.append_assoc, List.cons_append] at same
      exact absurd same (ne_of_isIdentifier hg _ _)
  | false =>
    rw [plain first]
    cases second : g.lowered with
    | true =>
      rw [lowered second]
      intro rest rest' same
      simp only [List.append_assoc, List.cons_append] at same
      exact absurd same.symm (ne_of_isIdentifier hf _ _)
    | false =>
      rw [plain second]
      exact forces_identifier hf hg mark hm

/-! Literals. -/

namespace Literal

/-- Two texts, or the same number. -/
inductive Alike : Literal → Literal → Prop
  | text (s t : String) : Alike (.text s) (.text t)
  | number (json : Json) : Alike (.number json) (.number json)

theorem Alike.forces {l m : Literal} (h : l.Alike m) : Forces l.write.toList m.write.toList True := by
  cases h with
  | number json => exact Forces.refl _
  | text s t =>
    intro rest rest' same
    simp only [write, quote, String.toList_ofList, List.cons_append, List.append_assoc,
      List.cons.injEq, true_and] at same
    have taken := congrArg takeText same
    rw [List.nil_append, List.nil_append, takeText_escapeChars, takeText_escapeChars] at taken
    exact ⟨trivial, congrArg Prod.snd (Except.ok.inj taken)⟩

theorem forces_list {ls ms : List Literal} (h : List.Forall₂ Alike ls ms) :
    Forces (listText ls) (listText ms) True := by
  have others : ∀ {ls ms : List Literal}, List.Forall₂ Alike ls ms →
      Forces (ls.flatMap fun l => ':' :: l.write.toList) (ms.flatMap fun m => ':' :: m.write.toList)
        True := by
    intro ls ms h
    induction h with
    | nil => exact Forces.refl []
    | cons first _ ih =>
      rw [List.flatMap_cons, List.flatMap_cons]
      exact ((first.forces.behind [':']).append ih).imp fun _ => trivial
  cases h with
  | nil => exact Forces.refl _
  | cons first rest =>
    rw [listText_cons, listText_cons]
    exact (first.forces.append (others rest)).imp fun _ => trivial

end Literal

/-! Queries. -/

inductive Alike : Query → Query → Prop
  | equality (negated : Bool) {f g : Field} {ls ms : List Literal} (hf : isIdentifier f.name = true)
      (hg : isIdentifier g.name = true) (literals : List.Forall₂ Literal.Alike ls ms) :
      Alike (.equality negated f ls) (.equality negated g ms)
  | ordering (relation : Relation) {a b : String} {l m : Literal} (ha : isIdentifier a = true)
      (hb : isIdentifier b = true) (literal : l.Alike m) :
      Alike (.ordering relation a l) (.ordering relation b m)
  | matching (negated : Bool) (place : Place) {f g : Field} {l m : Literal}
      (hf : isIdentifier f.name = true) (hg : isIdentifier g.name = true) (literal : l.Alike m) :
      Alike (.matching negated place f l) (.matching negated place g m)
  | both {p q p' q' : Query} (first : Alike p p') (second : Alike q q') :
      Alike (.both p q) (.both p' q')
  | either {p q p' q' : Query} (first : Alike p p') (second : Alike q q') :
      Alike (.either p q) (.either p' q')

theorem forces_equality (negated : Bool) {f g : Field} {ls ms : List Literal}
    (hf : isIdentifier f.name = true) (hg : isIdentifier g.name = true)
    (literals : List.Forall₂ Literal.Alike ls ms) :
    Forces (Query.equality negated f ls).write.toList (Query.equality negated g ms).write.toList
      (f.name = g.name) := by
  have text : ∀ (f : Field) (ls : List Literal), (Query.equality negated f ls).write.toList =
      ['('] ++ (f.write.toList ++ [if negated then '!' else '='] ++
        ((if negated then ['='] else []) ++ Literal.listText ls ++ [')'])) := by
    intro f ls
    rw [toList_write_equality]
    cases negated <;> simp
  rw [text, text]
  have field := forces_field hf hg (if negated then '!' else '=') (by cases negated <;> decide)
  have list := ((Literal.forces_list literals).behind (if negated then ['='] else [])).before [')']
  exact ((field.append list).behind ['(']).imp And.left

theorem forces_ordering (relation : Relation) {a b : String} {l m : Literal}
    (ha : isIdentifier a = true) (hb : isIdentifier b = true) (literal : l.Alike m) :
    Forces (Query.ordering relation a l).write.toList (Query.ordering relation b m).write.toList
      (a = b) := by
  have text : ∀ (a : String) (l : Literal), (Query.ordering relation a l).write.toList =
      a.toList ++ [' '] ++ ((relation.symbol.toList ++ [' ']) ++ l.write.toList) := by
    intro a l
    rw [toList_write_ordering]
    simp
  rw [text, text]
  have name := forces_identifier ha hb ' ' (by decide)
  exact (name.append (literal.forces.behind _)).imp And.left

theorem forces_matching (negated : Bool) (place : Place) {f g : Field} {l m : Literal}
    (hf : isIdentifier f.name = true) (hg : isIdentifier g.name = true) (literal : l.Alike m) :
    Forces (Query.matching negated place f l).write.toList
      (Query.matching negated place g m).write.toList (f.name = g.name) := by
  have text : ∀ (f : Field) (l : Literal), (Query.matching negated place f l).write.toList =
      ((if negated then "!" else "").toList ++ place.function.toList ++ ['(']) ++
        (f.write.toList ++ [';'] ++ ([' '] ++ l.write.toList ++ [')'])) := by
    intro f l
    rw [toList_write_matching]
    simp
  rw [text, text]
  have field := forces_field hf hg ';' (by decide)
  have last := (literal.forces.behind [' ']).before [')']
  exact ((field.append last).behind _).imp And.left

theorem forces_connected {cs ds cs' ds' : List Char} {P Q : Prop} (c : Char)
    (first : Forces cs ds P) (second : Forces cs' ds' Q) :
    Forces ('(' :: (cs ++ [')']) ++ ' ' :: c :: ' ' :: '(' :: (cs' ++ [')']))
      ('(' :: (ds ++ [')']) ++ ' ' :: c :: ' ' :: '(' :: (ds' ++ [')'])) (P ∧ Q) :=
  ((first.before [')']).behind ['(']).append ((second.before [')']).behind [' ', c, ' ', '('])

/-- The text of a query tells its fields. -/
theorem Alike.forces {p q : Query} (h : p.Alike q) :
    Forces p.write.toList q.write.toList (p.fieldNames = q.fieldNames) := by
  induction h with
  | equality negated hf hg literals =>
    exact (forces_equality negated hf hg literals).imp fun same => congrArg (fun name => [name]) same
  | ordering relation ha hb literal =>
    exact (forces_ordering relation ha hb literal).imp fun same => congrArg (fun name => [name]) same
  | matching negated place hf hg literal =>
    exact (forces_matching negated place hf hg literal).imp
      fun same => congrArg (fun name => [name]) same
  | both _ _ ihl ihr =>
    rw [toList_write_both, toList_write_both]
    exact (forces_connected '&' ihl ihr).imp fun same => congrArg₂ _ same.1 same.2
  | either _ _ ihl ihr =>
    rw [toList_write_either, toList_write_either]
    exact (forces_connected '|' ihl ihr).imp fun same => congrArg₂ _ same.1 same.2

end Query

end AddressBook
