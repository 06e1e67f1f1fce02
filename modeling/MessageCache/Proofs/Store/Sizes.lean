/-
# What a total says about the sizes in it

The total of an owner is checked where it is read, and the sizes in it are not.  Nulls do
not count in it; what comes of the other sizes depends on what is among them:

    integers only       their sum; it is not decoded if it is negative, and it is an overflow
                        if a sum of the first of them leaves the range
    something else      not decoded, or zero if the sum is no number

So a size that no message could be read with gets through if other sizes make up for it
(`attachmentsSize_eq_ok`), and totals vouch for the sizes in them exactly where that does not
happen (`checksSizes_iff`).
-/
import Mathlib.Data.Set.List
import MessageCache.Proofs.Store.Damage
import MessageCache.Proofs.Table.Sum

namespace MessageCache

/-- Nulls apart the cells are integers that can be added one by one, and this is what they
come to. -/
def AddUpTo (cells : List Cell) (total : Nat) : Prop :=
  ∃ ns : List Int64, cells.filter (· ≠ .null) = ns.map .integer ∧ StaysInRange 0 ns ∧
    (ns.map Int64.toInt).sum = total

/-- The cells are not all integers, and as real numbers they come to nothing. -/
def HaveNoSum (cells : List Cell) : Prop :=
  (∃ c ∈ cells, c ≠ .null ∧ ¬ c.IsInteger) ∧
    (Database.Total.ofCells cells).toReal.value.isNaN = true

namespace Store

/-- The sizes of the rows that an owner is charged for. -/
def chargedSizes (t : Table) (owner : String) (now : Int64) : List Cell :=
  (chargedRows t owner now).map (·.cell "attachment_size")

/-- The row can be decoded as a message as far as its size goes. -/
def SizeDecodes (t : Table) (r : Row) : Prop :=
  ∃ size, (do
    let stored ← ResultRow.integer (Database.project t messageColumns r) 11
    ResultRow.size stored 11) = .ok size

/-- A total is given only if each row has a size in it that could be decoded. -/
def ChecksSizes (db : Database) (t : Table) (owner : String) (now : Int64) : Prop :=
  ∀ n, attachmentsSize db owner now = .ok n →
    ∀ r ∈ chargedRows t owner now, (r.cell "attachment_size").IsSize ∧ SizeDecodes t r

end Store

/-! ## Readings of sums -/

section Totals

/-- Nulls apart the cells are integers, or there is something else among them. -/
theorem integers_or_inexact (cells : List Cell) :
    (∃ ns : List Int64, cells.filter (· ≠ .null) = ns.map .integer) ∨
      ∃ c ∈ cells, c ≠ .null ∧ ¬ c.IsInteger := by
  by_cases hother : ∃ c ∈ cells, c ≠ .null ∧ ¬ c.IsInteger
  · exact .inr hother
  · refine .inl ?_
    have hall : ∀ c ∈ cells.filter (· ≠ .null), c ∈ Set.range Cell.integer := by
      intro c hc
      obtain ⟨hc, hnull⟩ := List.mem_filter.mp hc
      obtain ⟨n, hn⟩ := Classical.not_not.mp fun h => hother ⟨c, hc, of_decide_eq_true hnull, h⟩
      exact ⟨n, hn.symm⟩
    obtain ⟨ns, hns⟩ := (Set.range_list_map Cell.integer).ge hall
    exact ⟨ns, hns.symm⟩

variable {cells : List Cell} {n : UInt64}

theorem isInteger_of_filter {ns : List Int64} (hns : cells.filter (· ≠ .null) = ns.map .integer)
    {c : Cell} (hc : c ∈ cells) (hnull : c ≠ .null) : c.IsInteger := by
  have hmem : c ∈ cells.filter (· ≠ .null) := List.mem_filter.mpr ⟨hc, decide_eq_true hnull⟩
  rw [hns] at hmem
  obtain ⟨m, -, hm⟩ := List.mem_map.mp hmem
  exact ⟨m, hm.symm⟩

/-- A sum with something else among the cells is read only if it is no number. -/
theorem readTotal_ofReal (x : Binary64) :
    Store.readTotal (.ofReal x) = .ok n ↔ n = 0 ∧ x.isNaN = true := by
  unfold Cell.ofReal
  split
  · rename_i hnan
    rw [Store.readTotal, Except.ok.injEq, and_iff_left hnan, eq_comm]
  · rename_i hnan
    simp [Store.readTotal, hnan]

theorem readTotal_eq_ok :
    ((Database.Total.ofCells cells).result.mapError StoreError.database >>= Store.readTotal) =
        .ok n ↔
      AddUpTo cells n.toNat ∨ n = 0 ∧ HaveNoSum cells := by
  rcases integers_or_inexact cells with ⟨ns, hns⟩ | ⟨c, hc, hnull, hinexact⟩
  · have hno : ¬ HaveNoSum cells := by
      rintro ⟨⟨c, hc, hnull, hinexact⟩, -⟩
      exact hinexact (isInteger_of_filter hns hc hnull)
    rw [← Database.Total.ofCells_filter, hns, readTotal_integers, or_iff_left fun h => hno h.2]
    constructor
    · rintro ⟨hrange, hsum⟩
      exact ⟨ns, hns, hrange, hsum⟩
    · rintro ⟨ms, hms, hrange, hsum⟩
      have hinj : Function.Injective Cell.integer := fun _ _ => Cell.integer.inj
      obtain rfl : ns = ms := List.map_injective_iff.mpr hinj (hns.symm.trans hms)
      exact ⟨hrange, hsum⟩
  · have hinteger : ∀ m, c ≠ .integer m := fun m hm => hinexact ⟨m, hm⟩
    have hno : ¬ AddUpTo cells n.toNat := by
      rintro ⟨ns, hns, -⟩
      exact hinexact (isInteger_of_filter hns hc hnull)
    have hsome : HaveNoSum cells ↔ (Database.Total.ofCells cells).toReal.value.isNaN = true :=
      and_iff_right ⟨c, hc, hnull, hinexact⟩
    rw [Database.Total.result_of_inexact hc hnull hinteger, or_iff_right hno, hsome]
    exact readTotal_ofReal _

end Totals

/-! ## Totals of an owner -/

section Charged

variable {db : Database} {t : Table}

/-- The rows an owner is charged for, by their cells. -/
theorem chargedRows_eq (hcurrent : t.IsCurrent) (owner : String) (now : Int64) :
    Store.chargedRows t owner now = t.rows.filter fun r =>
      (Comparison.eq.holds (r.cell "attachment_present") (.integer 1) &&
          Comparison.eq.holds (r.cell "attachment_owner") (.ofString owner)) &&
        (Comparison.eq.holds (r.cell "attachment_expires") (.integer 0) ||
          Comparison.ge.holds (r.cell "attachment_expires") (.integer now)) := by
  have hinteger (name : String) (hname : Layout.IsInteger name) (r : Row) (op : Comparison)
      (n : Int64) := hcurrent.holds_integer (r := r) hname op n
  have howner (r : Row) :=
    hcurrent.holds_text (r := r) (by decide : Layout.IsText "attachment_owner") .eq owner
  unfold Store.chargedRows Database.chosenRows Store.chargedCondition
  simp only [Condition.holds.eq_3, Condition.holds.eq_4, howner,
    hinteger "attachment_present" (by decide), hinteger "attachment_expires" (by decide)]

/-- When a total is given, and which. -/
theorem attachmentsSize_eq_ok (ht : db.table? messagesTable = some t) (hcurrent : t.IsCurrent)
    {owner : String} {now : Int64} {n : UInt64} :
    Store.attachmentsSize db owner now = .ok n ↔
      AddUpTo (Store.chargedSizes t owner now) n.toNat ∨
        n = 0 ∧ HaveNoSum (Store.chargedSizes t owner now) := by
  rw [attachmentsSize_eq_total ht hcurrent]
  exact readTotal_eq_ok

/-- The decoder of messages accepts a size iff it is one. -/
theorem sizeDecodes_iff (hcurrent : t.IsCurrent) {r : Row} :
    Store.SizeDecodes t r ↔ (r.cell "attachment_size").IsSize := by
  have hcell := hcurrent.cell_project (r := r) messageColumns (i := 11) rfl
    (by decide : nameKey "attachment_size" ∈ Layout.releasedNames Layout.currentVersion)
  unfold Store.SizeDecodes
  simp only [exists_bind_eq_ok, ResultRow.integer_eq_ok, ResultRow.exists_size_iff, hcell]
  exact Iff.rfl

end Charged

/-- A total that is given vouches for every size in it iff each of them is a size, or the
sizes do not come to a total: nulls apart they are not integers that add up to one, nor is
there something else among them so that they have no sum at all. -/
theorem checksSizes_iff {db : Database} {t : Table} (ht : db.table? messagesTable = some t)
    (hcurrent : t.IsCurrent) (owner : String) (now : Int64) :
    Store.ChecksSizes db t owner now ↔
      (∀ r ∈ Store.chargedRows t owner now, (r.cell "attachment_size").IsSize) ∨
        (¬ ∃ total : UInt64, AddUpTo (Store.chargedSizes t owner now) total.toNat) ∧
          ¬ HaveNoSum (Store.chargedSizes t owner now) := by
  unfold Store.ChecksSizes
  simp only [attachmentsSize_eq_ok ht hcurrent, sizeDecodes_iff hcurrent, and_self]
  constructor
  · intro hchecks
    by_cases hgiven : (∃ total : UInt64, AddUpTo (Store.chargedSizes t owner now) total.toNat) ∨
        HaveNoSum (Store.chargedSizes t owner now)
    · refine .inl ?_
      rcases hgiven with ⟨total, htotal⟩ | hno
      · exact hchecks total (.inl htotal)
      · exact hchecks 0 (.inr ⟨rfl, hno⟩)
    · exact .inr (not_or.mp hgiven)
  · rintro (hsizes | ⟨hsum, hno⟩) n hn
    · exact hsizes
    · rcases hn with hn | ⟨-, hn⟩
      · exact absurd ⟨n, hn⟩ hsum
      · exact absurd hn hno

/-! ## A negative size -/

/-- A published message with an attachment of this size, which does not expire. -/
def sizedCells (id : String) (size : Int64) (owner : String) : List (String × Cell) :=
  [("id", .ofString id), ("time", .integer 5), ("topic", .ofString "t"),
    ("message", .ofString ""), ("title", .ofString ""), ("priority", .integer 0),
    ("tags", .ofString ""), ("click", .ofString ""), ("attachment_name", .ofString "n"),
    ("attachment_type", .ofString ""), ("attachment_size", .integer size),
    ("attachment_expires", .integer 0), ("attachment_url", .ofString "u"),
    ("attachment_owner", .ofString owner), ("encoding", .ofString ""),
    ("published", .ofBool true), ("attachment_present", .ofBool true)]

/-- Two negative sizes, one of them beside a size of the same owner that makes up for it. -/
def negativeSizes : List Statement :=
  [.insert messagesTable (sizedCells "a" 10 "o"), .insert messagesTable (sizedCells "b" (-5) "o"),
    .insert messagesTable (sizedCells "c" (-5) "p")]

/-- They can be put into a new store. -/
theorem exists_negative : ∃ db t,
    transaction .granted negativeSizes (ensureCurrent .granted .empty).database = .ok db ∧
      db.table? messagesTable = some t ∧ t.IsCurrent ∧
      t.rows = [{ id := 1, cells := sizedCells "a" 10 "o" },
        { id := 2, cells := sizedCells "b" (-5) "o" },
        { id := 3, cells := sizedCells "c" (-5) "p" }] :=
  ⟨_, _, rfl, rfl, List.Perm.refl _, rfl⟩

theorem chargedSizes_negative {t : Table} (hcurrent : t.IsCurrent)
    (hrows : t.rows = [{ id := 1, cells := sizedCells "a" 10 "o" },
      { id := 2, cells := sizedCells "b" (-5) "o" },
      { id := 3, cells := sizedCells "c" (-5) "p" }]) :
    Store.chargedSizes t "o" 0 = [.integer 10, .integer (-5)] ∧
      Store.chargedSizes t "p" 0 = [.integer (-5)] := by
  unfold Store.chargedSizes
  rw [chargedRows_eq hcurrent, chargedRows_eq hcurrent, hrows]
  decide +kernel

/-- Alone, a negative size is not given as a total. -/
theorem checksSizes_iff_alone : ∃ db t,
    transaction .granted negativeSizes (ensureCurrent .granted .empty).database = .ok db ∧
      db.table? messagesTable = some t ∧ t.IsCurrent ∧ Store.ChecksSizes db t "p" 0 := by
  obtain ⟨db, t, hdb, ht, hcurrent, hrows⟩ := exists_negative
  refine ⟨db, t, hdb, ht, hcurrent, (checksSizes_iff ht hcurrent "p" 0).mpr (.inr ?_)⟩
  rw [(chargedSizes_negative hcurrent hrows).2]
  constructor
  · rintro ⟨total, ns, hns, -, hsum⟩
    have hinj : Function.Injective Cell.integer := fun _ _ => Cell.integer.inj
    obtain rfl : [-5] = ns := List.map_injective_iff.mpr hinj hns
    have hnegative : ([-5].map Int64.toInt).sum = -5 := by decide
    omega
  · rintro ⟨⟨c, hc, -, hinexact⟩, -⟩
    exact hinexact ⟨-5, List.mem_singleton.mp hc⟩

/-- Beside a larger one it gets through: the total is given, and the size is none. -/
theorem not_checksSizes_covered : ∃ db t,
    transaction .granted negativeSizes (ensureCurrent .granted .empty).database = .ok db ∧
      db.table? messagesTable = some t ∧ t.IsCurrent ∧
      Store.attachmentsSize db "o" 0 = .ok 5 ∧ ¬ Store.ChecksSizes db t "o" 0 := by
  obtain ⟨db, t, hdb, ht, hcurrent, hrows⟩ := exists_negative
  have hsizes := (chargedSizes_negative hcurrent hrows).1
  have hadd : AddUpTo (Store.chargedSizes t "o" 0) 5 := by
    rw [hsizes]
    have hrange : StaysInRange 0 [10, -5] := by
      simp only [staysInRange_cons, staysInRange_nil]
      decide
    exact ⟨[10, -5], rfl, hrange, by decide⟩
  have htotal : Store.attachmentsSize db "o" 0 = .ok 5 :=
    (attachmentsSize_eq_ok ht hcurrent).mpr (.inl hadd)
  refine ⟨db, t, hdb, ht, hcurrent, htotal, fun hchecks => ?_⟩
  have hmem : Cell.integer (-5) ∈ Store.chargedSizes t "o" 0 := by simp [hsizes]
  obtain ⟨r, hr, hcell⟩ := List.mem_map.mp hmem
  obtain ⟨n, hn, hpos⟩ := (hchecks 5 htotal r hr).1
  obtain rfl := Cell.integer.inj (hcell.symm.trans hn)
  exact absurd hpos (by decide)

end MessageCache
