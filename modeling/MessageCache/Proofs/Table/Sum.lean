/-
# Sums of cells

A sum goes over cells of any kind in their order, and nulls do not count.  What becomes of
the others depends on whether they are integers:

    integers only       their sum, if no sum of the first of them leaves the range
                        (`StaysInRange`); otherwise it is too large, and stays so
    something else      a real number, or nothing if that is no number

An integer that comes after something else cannot make the sum too large again, and one that
comes before is forgotten; so in the second case no order matters (`foldl_add_of_inexact`).
-/
import Mathlib.Algebra.Ring.Int.Defs
import Mathlib.Data.List.Infix
import MessageCache.Proofs.Table.Query

namespace MessageCache

/-- No sum of the first of these integers, added to a number, leaves the range. -/
def StaysInRange (m : Int) (ns : List Int64) : Prop :=
  ∀ part, part <+: ns → InInt64 (m + (part.map Int64.toInt).sum)

section Range

variable {m : Int} {n : Int64} {ns : List Int64}

@[simp] theorem staysInRange_nil : StaysInRange m [] ↔ InInt64 m := by
  simp [StaysInRange]

theorem staysInRange_cons :
    StaysInRange m (n :: ns) ↔ InInt64 m ∧ StaysInRange (m + n.toInt) ns := by
  unfold StaysInRange
  simp only [List.prefix_cons_iff]
  constructor
  · intro h
    refine ⟨by simpa using h [] (.inl rfl), fun part hpart => ?_⟩
    simpa [Int.add_assoc] using h (n :: part) (.inr ⟨part, rfl, hpart⟩)
  · rintro ⟨hm, h⟩ _ (rfl | ⟨part, rfl, hpart⟩)
    · simpa using hm
    · simpa [Int.add_assoc] using h part hpart

theorem StaysInRange.first (h : StaysInRange m ns) : InInt64 m := by
  simpa using h [] (List.nil_prefix)

theorem StaysInRange.total (h : StaysInRange m ns) : InInt64 (m + (ns.map Int64.toInt).sum) :=
  h ns List.prefix_rfl

end Range

namespace Database.Total

theorem add_null (total : Total) : total.add .null = total := by
  cases total <;> rfl

theorem ofCells_filter (cells : List Cell) : ofCells (cells.filter (· ≠ .null)) = ofCells cells := by
  have hadd : (fun (total : Total) c => if decide (c ≠ Cell.null) = true then total.add c else total) =
      add := by
    funext total c
    split
    · rfl
    · rename_i hnull
      obtain rfl : c = .null := by simpa using hnull
      exact total.add_null.symm
  rw [ofCells, List.foldl_filter, hadd]
  rfl

/-! ## Integers only -/

theorem approximate_add_integer (s : CompensatedSum) (tooLarge : Bool) (n : Int64) :
    (approximate s tooLarge).add (.integer n) = .approximate (s.addInt n.toInt) tooLarge := rfl

/-- A sum that has left the range of integers does not come back. -/
theorem foldl_add_tooLarge (ns : List Int64) (s : CompensatedSum) :
    ∃ s', (ns.map .integer).foldl add (.approximate s true) = .approximate s' true := by
  induction ns generalizing s with
  | nil => exact ⟨s, rfl⟩
  | cons n rest ih =>
      rw [List.map_cons, List.foldl_cons, approximate_add_integer]
      exact ih (s.addInt n.toInt)

theorem exact_add_integer (m n : Int64) : (exact m).add (.integer n) =
    if InInt64 (m.toInt + n.toInt) then .exact (.ofInt (m.toInt + n.toInt))
    else .approximate ((CompensatedSum.ofInt m.toInt).addInt n.toInt) true := rfl

theorem foldl_add_exact {m : Int64} {ns : List Int64} (h : StaysInRange m.toInt ns) :
    (ns.map .integer).foldl add (.exact m) =
      .exact (.ofInt (m.toInt + (ns.map Int64.toInt).sum)) := by
  induction ns generalizing m with
  | nil => simp
  | cons n rest ih =>
      have hrest := (staysInRange_cons.mp h).2
      have hsum := toInt_ofInt hrest.first
      rw [List.map_cons, List.foldl_cons, exact_add_integer, if_pos hrest.first]
      rw [ih (by rwa [hsum]), hsum, List.map_cons, List.sum_cons, Int.add_assoc]

theorem foldl_add_exact_of_not {m : Int64} {ns : List Int64} (h : ¬ StaysInRange m.toInt ns) :
    ∃ s, (ns.map .integer).foldl add (.exact m) = .approximate s true := by
  induction ns generalizing m with
  | nil => exact absurd (staysInRange_nil.mpr (inInt64_toInt m)) h
  | cons n rest ih =>
      rw [List.map_cons, List.foldl_cons, exact_add_integer]
      split
      · rename_i hsum
        refine ih fun hrest => h (staysInRange_cons.mpr ⟨inInt64_toInt m, ?_⟩)
        rwa [toInt_ofInt hsum] at hrest
      · exact foldl_add_tooLarge rest _

/-- The sum of integers is given iff no sum of the first of them leaves the range. -/
theorem result_integers {ns : List Int64} (h : StaysInRange 0 ns) (hne : ns ≠ []) :
    (ofCells (ns.map .integer)).result = .ok (.integer (.ofInt (ns.map Int64.toInt).sum)) := by
  obtain ⟨n, rest, rfl⟩ := List.exists_cons_of_ne_nil hne
  have hrest := (staysInRange_cons.mp h).2
  rw [Int.zero_add] at hrest
  have hsum : ofCells ((n :: rest).map .integer) = _ := foldl_add_exact hrest
  rw [hsum, List.map_cons, List.sum_cons]
  rfl

theorem result_integers_of_not {ns : List Int64} (h : ¬ StaysInRange 0 ns) :
    (ofCells (ns.map .integer)).result = .error .integerOverflow := by
  have hzero : InInt64 0 := by decide
  cases ns with
  | nil => exact absurd (staysInRange_nil.mpr hzero) h
  | cons n rest =>
      have hrest : ¬ StaysInRange n.toInt rest := fun hrest =>
        h (staysInRange_cons.mpr ⟨hzero, by rwa [Int.zero_add]⟩)
      obtain ⟨s, hs⟩ := foldl_add_exact_of_not hrest
      have hsum : ofCells ((n :: rest).map .integer) = .approximate s true := hs
      rw [hsum]
      rfl

/-! ## Something else -/

section Inexact

variable {c : Cell} {cells : List Cell}

theorem add_of_inexact (hnull : c ≠ .null) (hinteger : ∀ n, c ≠ .integer n) (total : Total) :
    ∃ s, total.add c = .approximate s false := by
  cases c with
  | null => exact absurd rfl hnull
  | integer n => exact absurd rfl (hinteger n)
  | real x | text b | blob b => cases total <;> exact ⟨_, rfl⟩

theorem foldl_add_approximate (cells : List Cell) (s : CompensatedSum) :
    ∃ s', cells.foldl add (.approximate s false) = .approximate s' false := by
  induction cells generalizing s with
  | nil => exact ⟨s, rfl⟩
  | cons c rest ih =>
      rw [List.foldl_cons]
      cases c with
      | null => exact ih s
      | integer n =>
          rw [approximate_add_integer]
          exact ih (s.addInt n.toInt)
      | real x | text b | blob b => exact ih _

/-- With something else among the cells the sum is a real one, wherever that stands. -/
theorem foldl_add_of_inexact (hc : c ∈ cells) (hnull : c ≠ .null) (hinteger : ∀ n, c ≠ .integer n)
    (total : Total) : ∃ s, cells.foldl add total = .approximate s false := by
  obtain ⟨before, after, rfl⟩ := List.append_of_mem hc
  rw [List.foldl_append, List.foldl_cons]
  obtain ⟨s, hs⟩ := add_of_inexact hnull hinteger (before.foldl add total)
  rw [hs]
  exact foldl_add_approximate after s

/-- It is then a real number, or null if it is no number. -/
theorem result_of_inexact (hc : c ∈ cells) (hnull : c ≠ .null) (hinteger : ∀ n, c ≠ .integer n) :
    (ofCells cells).result = .ok (.ofReal (ofCells cells).toReal.value) := by
  obtain ⟨s, hs⟩ := foldl_add_of_inexact hc hnull hinteger .none
  have hsum : ofCells cells = .approximate s false := hs
  rw [hsum]
  rfl

end Inexact

end Database.Total

end MessageCache
