/-! Lists that grow at their end. What is listed is put behind the others unless something among these
stands against it: the others stay in front, whatever is listed is represented in the end, and growing
the same way again adds nothing. -/

namespace AddressBook.Growing

variable {α β : Type}

theorem mem_foldl_unless {p : List β → α → Bool} {f : α → β} {as : List α} {done : List β} {b : β}
    (h : b ∈ as.foldl (fun done a => if p done a then done else done ++ [f a]) done) :
    b ∈ done ∨ ∃ a ∈ as, b = f a := by
  induction as generalizing done with
  | nil => exact Or.inl h
  | cons a as ih =>
    rw [List.foldl_cons] at h
    rcases ih h with h | ⟨other, hother, rfl⟩
    · split at h
      · exact Or.inl h
      · rcases List.mem_append.mp h with h | h
        · exact Or.inl h
        · exact Or.inr ⟨a, List.mem_cons_self, List.mem_singleton.mp h⟩
    · exact Or.inr ⟨other, List.mem_cons_of_mem a hother, rfl⟩

/-- What is listed, put behind the others unless it clashes with something there. -/
def grown (c : β → α → Bool) (f : α → β) (as : List α) (done : List β) : List β :=
  as.foldl (fun done a => if done.any (c · a) then done else done ++ [f a]) done

variable {c : β → α → Bool} {f : α → β}

theorem grown_cons (a : α) (as : List α) (done : List β) :
    grown c f (a :: as) done = grown c f as (if done.any (c · a) then done else done ++ [f a]) :=
  List.foldl_cons ..

theorem exists_grown (as : List α) (done : List β) :
    ∃ more, grown c f as done = done ++ more ∧ more.Sublist (as.map f) := by
  induction as generalizing done with
  | nil => exact ⟨[], by simp [grown]⟩
  | cons a as ih =>
    rw [grown_cons]
    split
    · obtain ⟨more, all, behind⟩ := ih done
      exact ⟨more, all, behind.cons (f a)⟩
    · obtain ⟨more, all, behind⟩ := ih (done ++ [f a])
      exact ⟨f a :: more, by rw [all, List.append_assoc, List.singleton_append],
        behind.cons_cons (f a)⟩

theorem covered_grown {as : List α} {a : α} (ha : a ∈ as) (done : List β) :
    ∃ b ∈ grown c f as done, c b a = true ∨ b = f a := by
  induction as generalizing done with
  | nil => exact absurd ha List.not_mem_nil
  | cons first as ih =>
    rw [grown_cons]
    rcases List.mem_cons.mp ha with rfl | ha
    · obtain ⟨more, all, -⟩ := exists_grown (c := c) (f := f) as
        (if done.any (c · a) then done else done ++ [f a])
      rw [all]
      split
      · next clash =>
        obtain ⟨b, hb, clash⟩ := List.any_eq_true.mp clash
        exact ⟨b, List.mem_append_left more hb, Or.inl clash⟩
      · exact ⟨f a, by simp, Or.inr rfl⟩
    · exact ih ha _

theorem pairwise_grown {P : β → Prop} {R : β → β → Prop}
    (apart : ∀ b a, P b → P (f a) → c b a = false → R b (f a)) {as : List α}
    (ha : ∀ a ∈ as, P (f a)) {done : List β} (hd : ∀ b ∈ done, P b) (h : done.Pairwise R) :
    (grown c f as done).Pairwise R := by
  induction as generalizing done with
  | nil => exact h
  | cons a as ih =>
    rw [grown_cons]
    have first := ha a List.mem_cons_self
    have later : ∀ b ∈ as, P (f b) := fun b hb => ha b (List.mem_cons_of_mem a hb)
    split
    · exact ih later hd h
    · next free =>
      rw [Bool.not_eq_true, List.any_eq_false] at free
      refine ih later (fun b hb => ?_) (List.pairwise_append.mpr ⟨h, List.pairwise_singleton R _, ?_⟩)
      · rcases List.mem_append.mp hb with hb | hb
        · exact hd b hb
        · rwa [List.mem_singleton.mp hb]
      · intro b hb last hl
        rw [List.mem_singleton.mp hl]
        exact apart b a (hd b hb) first (Bool.eq_false_iff.mpr (free b hb))

theorem any_grown {q : β → Bool} {as : List α}
    (carries : ∀ a ∈ as, ∀ b, c b a = true → q (f a) = true → q b = true) (done : List β) :
    (grown c f as done).any q = (done.any q || as.any fun a => q (f a)) := by
  induction as generalizing done with
  | nil => simp [grown]
  | cons a as ih =>
    obtain ⟨first, others⟩ := List.forall_mem_cons.mp carries
    rw [grown_cons, ih others, List.any_cons]
    split
    · next clash =>
      obtain ⟨b, hb, clash⟩ := List.any_eq_true.mp clash
      cases holds : q (f a) with
      | false => rw [Bool.false_or]
      | true =>
        have there : done.any q = true := List.any_eq_true.mpr ⟨b, hb, first b clash holds⟩
        rw [there, Bool.true_or, Bool.true_or]
    · rw [List.any_append, List.any_cons, List.any_nil, Bool.or_false, Bool.or_assoc]

theorem grown_eq_self {as : List α} {done : List β} (h : ∀ a ∈ as, done.any (c · a) = true) :
    grown c f as done = done := by
  induction as with
  | nil => rfl
  | cons a as ih =>
    obtain ⟨first, others⟩ := List.forall_mem_cons.mp h
    rw [grown_cons, if_pos first, ih others]

theorem grown_twice {as : List α} (own : ∀ a ∈ as, c (f a) a = true) (done : List β) :
    grown c f as (grown c f as done) = grown c f as done := by
  refine grown_eq_self fun a ha => List.any_eq_true.mpr ?_
  obtain ⟨b, hb, clash | rfl⟩ := covered_grown (c := c) (f := f) ha done
  · exact ⟨b, hb, clash⟩
  · exact ⟨f a, hb, own a ha⟩

end AddressBook.Growing
