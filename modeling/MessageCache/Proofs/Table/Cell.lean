/-
# Comparisons of texts and of integers

A condition compares cells, and a caller has texts and integers in mind.  Two texts are
the same cell iff they are the same text, and integers are ordered as they are.
-/
import MessageCache.Proofs.Table.Statement

namespace MessageCache

theorem Utf8.bytes_inj {s s' : String} : bytes s = bytes s' ↔ s = s' := by
  constructor
  · intro h
    have hread := read_bytes s
    rw [h, read_bytes] at hread
    exact (Except.ok.inj hread).symm
  · rintro rfl
    rfl

namespace Cell

theorem ofString_ne_null (s : String) : ofString s ≠ .null := fun h => (nomatch h)

theorem ofString_inj {s s' : String} : ofString s = ofString s' ↔ s = s' := by
  unfold ofString
  rw [text.injEq, Utf8.bytes_inj]

theorem integer_ne_null (n : Int64) : integer n ≠ .null := fun h => (nomatch h)

theorem le_integer (m n : Int64) : (integer m).le (.integer n) = decide (m ≤ n) := by
  have hunit : (0 : Int) < Binary64.unit := by decide +kernel
  have hlt : m.toInt * Binary64.unit < n.toInt * Binary64.unit ↔ m.toInt < n.toInt :=
    Int.mul_lt_mul_right hunit
  have heq : m.toInt * Binary64.unit = n.toInt * Binary64.unit ↔ m.toInt = n.toInt :=
    Int.mul_eq_mul_right_iff (Int.ne_of_gt hunit)
  have hle : m ≤ n ↔ m.toInt < n.toInt ∨ m.toInt = n.toInt := by
    rw [Int64.le_iff_toInt_le]
    omega
  simp [le, rank, magnitude, content, hlt, heq, hle]

theorem same_integer (m n : Int64) : (integer m).same (.integer n) = decide (m = n) := by
  have heq : m = n ↔ m ≤ n ∧ n ≤ m := by
    rw [Int64.le_iff_toInt_le, Int64.le_iff_toInt_le, ← Int64.toInt_inj]
    omega
  rw [same, le_integer, le_integer, ← Bool.decide_and]
  exact decide_eq_decide.mpr heq.symm

theorem le_ofString (s s' : String) :
    (ofString s).le (.ofString s') = decide (Utf8.bytes s ≤ Utf8.bytes s') := by
  simp only [le, ofString, rank, magnitude, content, Nat.lt_irrefl, Int.lt_irrefl, decide_false,
    decide_true, Bool.false_or, Bool.true_and]
  rfl

theorem same_ofString (s s' : String) :
    (ofString s).same (.ofString s') = decide (s = s') := by
  have heq : s = s' ↔ Utf8.bytes s ≤ Utf8.bytes s' ∧ Utf8.bytes s' ≤ Utf8.bytes s := by
    rw [← Utf8.bytes_inj]
    constructor
    · intro h
      rw [h]
      exact ⟨List.le_refl _, List.le_refl _⟩
    · rintro ⟨h, h'⟩
      exact List.le_antisymm h h'
  rw [same, le_ofString, le_ofString, ← Bool.decide_and]
  exact decide_eq_decide.mpr heq.symm

end Cell

namespace Comparison

/-- A comparison with integers on both sides. -/
theorem holds_integer (op : Comparison) (m n : Int64) :
    op.holds (.integer m) (.integer n) =
      match op with
      | .eq => decide (m = n)
      | .ne => decide (m ≠ n)
      | .lt => decide (m < n)
      | .le => decide (m ≤ n)
      | .gt => decide (n < m)
      | .ge => decide (n ≤ m) := by
  have hlt (a b : Int64) : (!decide (a ≤ b)) = decide (b < a) := by
    rw [← decide_not, decide_eq_decide, Int64.not_le]
  cases op <;>
    simp only [holds, test, Cell.same_integer, Cell.le_integer, hlt, ne_eq, Cell.integer_ne_null,
      not_false_eq_true, decide_true, Bool.true_and, decide_not]

theorem eq_holds_ofString (s s' : String) :
    eq.holds (.ofString s) (.ofString s') = decide (s = s') := by
  simp [holds, test, Cell.same_ofString, Cell.ofString_ne_null]

end Comparison

end MessageCache
