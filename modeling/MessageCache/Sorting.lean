/-
# Sorting that keeps ties in place

Rows come back sorted by one column, and rows that agree on it keep the order
in which they were inserted.  `sortBy` inserts each element before the first
one that is not smaller, which is what keeps ties in order.

The laws held here: the result has the same elements (`sortBy_perm`), it is
sorted (`pairwise_sortBy`), and keeping some of the elements commutes with
sorting (`filter_sortBy`), which is how stability is used.  What is sorted falls
into what is below a bound and, after that, what is not (`filter_append_filter_not`).
-/

namespace MessageCache

variable {α : Type}

/-- `x` put before the first element that is not below it. -/
def insertBy (le : α → α → Bool) (x : α) : List α → List α
  | [] => [x]
  | y :: ys => if le x y then x :: y :: ys else y :: insertBy le x ys

/-- The elements in ascending order, ties in their given order. -/
def sortBy (le : α → α → Bool) : List α → List α
  | [] => []
  | x :: xs => insertBy le x (sortBy le xs)

variable {le : α → α → Bool}

theorem insertBy_perm (x : α) (ys : List α) : (insertBy le x ys).Perm (x :: ys) := by
  induction ys with
  | nil => exact .refl _
  | cons y ys ih =>
    unfold insertBy
    split
    · exact .refl _
    · exact (ih.cons y).trans (.swap x y ys)

theorem sortBy_perm (xs : List α) : (sortBy le xs).Perm xs := by
  induction xs with
  | nil => exact .refl _
  | cons x xs ih => exact (insertBy_perm x _).trans (ih.cons x)

theorem mem_sortBy {x : α} {xs : List α} : x ∈ sortBy le xs ↔ x ∈ xs :=
  (sortBy_perm xs).mem_iff

theorem pairwise_insertBy (total : ∀ a b, le a b = true ∨ le b a = true)
    (trans : ∀ a b c, le a b = true → le b c = true → le a c = true)
    (x : α) {ys : List α} (h : ys.Pairwise (le · · = true)) :
    (insertBy le x ys).Pairwise (le · · = true) := by
  induction ys with
  | nil => simp [insertBy]
  | cons y ys ih =>
    rw [List.pairwise_cons] at h
    unfold insertBy
    split
    · rename_i hxy
      refine List.pairwise_cons.2 ⟨?_, List.pairwise_cons.2 h⟩
      intro z hz
      rcases List.mem_cons.1 hz with rfl | hz
      · exact hxy
      · exact trans _ _ _ hxy (h.1 z hz)
    · rename_i hxy
      refine List.pairwise_cons.2 ⟨?_, ih h.2⟩
      intro z hz
      rcases List.mem_cons.1 ((insertBy_perm x ys).mem_iff.1 hz) with rfl | hz
      · exact (total _ _).resolve_left hxy
      · exact h.1 z hz

theorem pairwise_sortBy (total : ∀ a b, le a b = true ∨ le b a = true)
    (trans : ∀ a b c, le a b = true → le b c = true → le a c = true) (xs : List α) :
    (sortBy le xs).Pairwise (le · · = true) := by
  induction xs with
  | nil => exact .nil
  | cons x xs ih => exact pairwise_insertBy total trans x ih

theorem insertBy_cons_of_le {x y : α} (ys : List α) (h : le x y = true) :
    insertBy le x (y :: ys) = x :: y :: ys := by
  rw [insertBy, if_pos h]

theorem insertBy_cons_of_not_le {x y : α} (ys : List α) (h : ¬ le x y = true) :
    insertBy le x (y :: ys) = y :: insertBy le x ys := by
  rw [insertBy, if_neg h]

/-- An element below all others goes to the front. -/
theorem insertBy_of_forall_le {x : α} {ys : List α} (h : ∀ y ∈ ys, le x y = true) :
    insertBy le x ys = x :: ys := by
  cases ys with
  | nil => rfl
  | cons y ys => exact insertBy_cons_of_le ys (h y List.mem_cons_self)

theorem filter_insertBy (trans : ∀ a b c, le a b = true → le b c = true → le a c = true)
    (p : α → Bool) (x : α) {ys : List α} (h : ys.Pairwise (le · · = true)) :
    (insertBy le x ys).filter p =
      if p x then insertBy le x (ys.filter p) else ys.filter p := by
  induction ys with
  | nil => by_cases hx : p x <;> simp [insertBy, hx]
  | cons y ys ih =>
    rw [List.pairwise_cons] at h
    by_cases hxy : le x y = true
    · have hall : ∀ z ∈ (y :: ys).filter p, le x z = true := by
        intro z hz
        rcases List.mem_cons.1 (List.mem_filter.1 hz).1 with rfl | hz
        · exact hxy
        · exact trans _ _ _ hxy (h.1 z hz)
      rw [insertBy_cons_of_le ys hxy, insertBy_of_forall_le hall, List.filter_cons]
    · rw [insertBy_cons_of_not_le ys hxy]
      by_cases hy : p y
      · rw [List.filter_cons_of_pos hy, List.filter_cons_of_pos hy, ih h.2,
          insertBy_cons_of_not_le _ hxy]
        split <;> rfl
      · rw [List.filter_cons_of_neg hy, List.filter_cons_of_neg hy, ih h.2]

theorem filter_sortBy (total : ∀ a b, le a b = true ∨ le b a = true)
    (trans : ∀ a b c, le a b = true → le b c = true → le a c = true)
    (p : α → Bool) (xs : List α) :
    (sortBy le xs).filter p = sortBy le (xs.filter p) := by
  induction xs with
  | nil => rfl
  | cons x xs ih =>
    rw [sortBy, filter_insertBy trans p x (pairwise_sortBy total trans xs), ih, List.filter_cons]
    split <;> rfl

/-! ## Images -/

section Images

variable {β : Type} {le' : β → β → Bool} {f : α → β}

theorem insertBy_map (hle : ∀ a b, le' (f a) (f b) = le a b) (x : α) (ys : List α) :
    insertBy le' (f x) (ys.map f) = (insertBy le x ys).map f := by
  induction ys with
  | nil => rfl
  | cons y ys ih =>
    rw [List.map_cons, insertBy, insertBy, hle, ih]
    split <;> rfl

/-- Images are sorted as what they are images of, if the order is the same. -/
theorem sortBy_map (hle : ∀ a b, le' (f a) (f b) = le a b) (xs : List α) :
    sortBy le' (xs.map f) = (sortBy le xs).map f := by
  induction xs with
  | nil => rfl
  | cons x xs ih => rw [List.map_cons, sortBy, sortBy, ih, insertBy_map hle]

end Images

/-! ## Bounds -/

/-- A sorted list is what is below a bound and then the rest. -/
theorem filter_append_filter_not {r : α → α → Prop} {p : α → Bool} {xs : List α}
    (h : xs.Pairwise r) (hp : ∀ a b, r a b → p b = true → p a = true) :
    xs.filter p ++ xs.filter (fun x => !p x) = xs := by
  induction xs with
  | nil => rfl
  | cons x xs ih =>
    rw [List.pairwise_cons] at h
    by_cases hx : p x = true
    · rw [List.filter_cons_of_pos hx, List.filter_cons_of_neg (by simp [hx]), List.cons_append,
        ih h.2]
    · -- nothing after it is below the bound
      have hnone : ∀ y ∈ xs, ¬ p y = true := fun y hy hpy => hx (hp x y (h.1 y hy) hpy)
      have hbelow : xs.filter p = [] := List.filter_eq_nil_iff.2 hnone
      have hrest : xs.filter (fun x => !p x) = xs :=
        List.filter_eq_self.2 fun y hy => by simp [hnone y hy]
      rw [List.filter_cons_of_neg hx, List.filter_cons_of_pos (by simp [hx]), hbelow, hrest,
        List.nil_append]

end MessageCache
