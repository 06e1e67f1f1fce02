/-
# Splitting — the pieces between separators

There is one piece more than there are separators, and joining the pieces with
the separator gives what was split: `join_split`.
-/

namespace MessageCache.Text

variable {α : Type}

/-- Pieces with the separator between them. -/
def join (separator : α) : List (List α) → List α
  | [] => []
  | [p] => p
  | p :: ps => p ++ separator :: join separator ps

theorem join_cons_cons (separator x : α) (p : List α) (ps : List (List α)) :
    join separator ((x :: p) :: ps) = x :: join separator (p :: ps) := by
  cases ps <;> rfl

variable [DecidableEq α]

/-- The pieces between separators. -/
def split (separator : α) : List α → List (List α)
  | [] => [[]]
  | x :: xs =>
    if x = separator then [] :: split separator xs
    else
      match split separator xs with
      | [] => [[x]]
      | p :: ps => (x :: p) :: ps

theorem split_ne_nil (separator : α) (xs : List α) : split separator xs ≠ [] := by
  cases xs with
  | nil => simp [split]
  | cons x xs =>
    rw [split]
    split
    · exact List.cons_ne_nil _ _
    · split <;> exact List.cons_ne_nil _ _

theorem join_split (separator : α) (xs : List α) :
    join separator (split separator xs) = xs := by
  induction xs with
  | nil => rfl
  | cons x xs ih =>
    rw [split]
    by_cases hx : x = separator
    · rw [if_pos hx]
      match h : split separator xs with
      | [] => exact absurd h (split_ne_nil separator xs)
      | p :: ps =>
        rw [h] at ih
        rw [join, List.nil_append, ih, hx]
        exact List.cons_ne_nil _ _
    · rw [if_neg hx]
      match h : split separator xs with
      | [] => exact absurd h (split_ne_nil separator xs)
      | p :: ps =>
        rw [h] at ih
        rw [join_cons_cons, ih]

end MessageCache.Text
