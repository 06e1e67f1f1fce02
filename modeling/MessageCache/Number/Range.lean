/-
# Ranges — which integers fit into a word

Integers are read from texts and added up as integers of any size; these are
the ranges of the words they are kept in.
-/

namespace MessageCache

/-- The integer fits into sixty-four bits with a sign. -/
def InInt64 (n : Int) : Prop := -0x8000000000000000 ≤ n ∧ n < 0x8000000000000000

/-- The integer fits into sixty-four bits without a sign. -/
def InUInt64 (n : Int) : Prop := 0 ≤ n ∧ n < 0x10000000000000000

/-- The integer fits into thirty-two bits without a sign. -/
def InUInt32 (n : Int) : Prop := 0 ≤ n ∧ n < 0x100000000

/-- The integer fits into eight bits without a sign. -/
def InUInt8 (n : Int) : Prop := 0 ≤ n ∧ n < 0x100

instance (n : Int) : Decidable (InInt64 n) := by unfold InInt64; infer_instance

instance (n : Int) : Decidable (InUInt64 n) := by unfold InUInt64; infer_instance

instance (n : Int) : Decidable (InUInt32 n) := by unfold InUInt32; infer_instance

instance (n : Int) : Decidable (InUInt8 n) := by unfold InUInt8; infer_instance

theorem InUInt32.inInt64 {n : Int} (h : InUInt32 n) : InInt64 n := by
  obtain ⟨hl, hu⟩ := h
  exact ⟨by omega, by omega⟩

theorem inInt64_toInt (n : Int64) : InInt64 n.toInt := by
  have hl := n.le_toInt
  have hu := n.toInt_lt
  exact ⟨by omega, by omega⟩

theorem toInt_ofInt {n : Int} (h : InInt64 n) : (Int64.ofInt n).toInt = n := by
  obtain ⟨hl, hu⟩ := h
  exact Int64.toInt_ofInt_of_le (by omega) (by omega)

theorem toInt_ofNat {n : Nat} (h : InInt64 n) : (Int64.ofNat n).toInt = n := by
  obtain ⟨_, hu⟩ := h
  exact Int64.toInt_ofNat_of_lt (by omega)

end MessageCache
