/-
# Queries of rows that stand for something

Rows stand for other things one by one (`List.Forall₂`), and what a query does with rows
can be done with those instead: filtering, counting and sorting are the same where the
conditions and the order are.  Then what a statement does, once its table and its columns
are known.
-/
import Mathlib.Data.List.Forall2
import MessageCache.Proofs.Table.Cell
import MessageCache.Table.Query

namespace MessageCache

/-! ## Lists that agree one by one -/

section Lists

variable {α β γ : Type} {R : α → β → Prop} {xs : List α} {ys : List β}

/-- Those that are chosen agree, and were chosen. -/
theorem forall₂_filter {p : α → Bool} {q : β → Bool} (hpq : ∀ a b, R a b → p a = q b)
    (h : List.Forall₂ R xs ys) :
    List.Forall₂ (fun a b => R a b ∧ q b = true) (xs.filter p) (ys.filter q) := by
  induction h with
  | nil => exact .nil
  | @cons a b xs ys hab _ ih =>
      rw [List.filter_cons, List.filter_cons, hpq a b hab]
      split
      · rename_i hq
        exact .cons ⟨hab, hq⟩ ih
      · exact ih

theorem countP_eq_of_forall₂ {p : α → Bool} {q : β → Bool} (hpq : ∀ a b, R a b → p a = q b)
    (h : List.Forall₂ R xs ys) : xs.countP p = ys.countP q := by
  rw [List.countP_eq_length_filter, List.countP_eq_length_filter]
  exact (forall₂_filter hpq h).length_eq

theorem any_eq_of_forall₂ {p : α → Bool} {q : β → Bool} (hpq : ∀ a b, R a b → p a = q b)
    (h : List.Forall₂ R xs ys) : xs.any p = ys.any q := by
  induction h with
  | nil => rfl
  | cons hab _ ih => rw [List.any_cons, List.any_cons, hpq _ _ hab, ih]

theorem map_eq_of_forall₂ {f : α → γ} {g : β → γ} (hfg : ∀ a b, R a b → f a = g b)
    (h : List.Forall₂ R xs ys) : xs.map f = ys.map g := by
  induction h with
  | nil => rfl
  | cons hab _ ih => rw [List.map_cons, List.map_cons, hfg _ _ hab, ih]

theorem find?_eq_of_forall₂ {p : α → Bool} {q : β → Bool} {f : α → γ} {g : β → γ}
    (hpq : ∀ a b, R a b → p a = q b) (hfg : ∀ a b, R a b → f a = g b)
    (h : List.Forall₂ R xs ys) : (xs.find? p).map f = (ys.find? q).map g := by
  induction h with
  | nil => rfl
  | @cons a b xs ys hab _ ih =>
      rw [List.find?_cons, List.find?_cons, hpq a b hab]
      split
      · exact congrArg some (hfg a b hab)
      · exact ih

theorem forall₂_exists_left (h : List.Forall₂ R xs ys) {y : β} (hy : y ∈ ys) :
    ∃ x ∈ xs, R x y := by
  induction h with
  | nil => cases hy
  | cons hxy _ ih =>
      rcases List.mem_cons.mp hy with rfl | hy
      · exact ⟨_, List.mem_cons_self, hxy⟩
      · obtain ⟨x, hx, hxy⟩ := ih hy
        exact ⟨x, List.mem_cons_of_mem _ hx, hxy⟩

/-- If each of some things has one that agrees with it, a list of these agrees one by one. -/
theorem exists_forall₂ (h : ∀ x ∈ xs, ∃ y, R x y) : ∃ ys, List.Forall₂ R xs ys := by
  induction xs with
  | nil => exact ⟨[], .nil⟩
  | cons x rest ih =>
      obtain ⟨⟨y, hy⟩, hrest⟩ := List.forall_mem_cons.mp h
      obtain ⟨ys, hys⟩ := ih hrest
      exact ⟨y :: ys, .cons hy hys⟩

variable {le : α → α → Bool} {le' : β → β → Bool}

theorem forall₂_insertBy (hle : ∀ a b x y, R a x → R b y → le a b = le' x y) {a : α} {x : β}
    (hax : R a x) (h : List.Forall₂ R xs ys) :
    List.Forall₂ R (insertBy le a xs) (insertBy le' x ys) := by
  induction h with
  | nil => exact .cons hax .nil
  | cons hby hrest ih =>
      unfold insertBy
      rw [hle _ _ _ _ hax hby]
      split
      · exact .cons hax (.cons hby hrest)
      · exact .cons hby ih

theorem forall₂_sortBy (hle : ∀ a b x y, R a x → R b y → le a b = le' x y)
    (h : List.Forall₂ R xs ys) : List.Forall₂ R (sortBy le xs) (sortBy le' ys) := by
  induction h with
  | nil => exact .nil
  | cons hax _ ih => exact forall₂_insertBy hle hax ih

end Lists

/-! ## What a condition looks at -/

namespace Condition

/-- It looks at the columns of the table, whatever the other rows are. -/
theorem holds_withRows (t : Table) (rows : List Row) (r : Row) (cond : Condition) :
    cond.holds { t with rows } r = cond.holds t r := by
  induction cond with
  | always | compare _ _ _ => rfl
  | both p q hp hq | either p q hp hq => rw [holds, holds, hp, hq]

/-- It looks at the cells in the columns that it names. -/
theorem holds_congr {t : Table} {r r' : Row} {cond : Condition}
    (h : ∀ name ∈ cond.columns, r'.cell (nameKey name) = r.cell (nameKey name)) :
    cond.holds t r' = cond.holds t r := by
  induction cond with
  | always => rfl
  | compare column op value =>
      rw [holds, holds]
      cases hc : t.column? column with
      | none => rfl
      | some c =>
          have hkey : c.key = nameKey column := by simpa using List.find?_some hc
          simp only [hkey, h column List.mem_cons_self]
  | both p q hp hq | either p q hp hq =>
      rw [holds, holds, hp fun name hname => h name (List.mem_append_left _ hname),
        hq fun name hname => h name (List.mem_append_right _ hname)]

end Condition

/-- What a result has of a row is in the cells of the columns that are asked for. -/
theorem Database.project_congr {t : Table} {r r' : Row} {columns : List String}
    (hid : r'.id = r.id)
    (h : ∀ name ∈ columns, r'.cell (nameKey name) = r.cell (nameKey name)) :
    project t columns r' = project t columns r := by
  refine List.map_congr_left fun name hname => ?_
  cases hc : t.column? name with
  | none => simp only [Table.value, hid, h name hname]
  | some c =>
      have hkey : c.key = nameKey name := by simpa using List.find?_some hc
      simp only [hkey, h name hname]

/-! ## Statements whose table and columns are known -/

namespace Database

variable {db : Database} {table column : String} {t : Table} {cond : Condition}

theorem select_eq {columns : List String} {orderBy : Option String}
    (ht : db.table? table = some t)
    (hknown : t.missing? (columns ++ cond.columns ++ orderBy.toList) = none) :
    db.select table columns cond orderBy =
      .ok ((chosenRows t cond orderBy).map (project t columns)) := by
  unfold select
  rw [find_eq_ok.mpr ht, ok_bind, known, hknown]
  rfl

theorem count_eq (ht : db.table? table = some t) (hknown : t.missing? cond.columns = none) :
    db.count table cond = .ok (t.rows.countP fun r => cond.holds t r) := by
  unfold count
  rw [find_eq_ok.mpr ht, ok_bind, known, hknown]
  rfl

theorem delete_eq (cond : Condition) (ht : db.table? table = some t)
    (hknown : t.missing? cond.columns = none) :
    db.delete table cond = .ok (t.rows.countP fun r => cond.holds t r,
      db.setTable table { t with rows := t.rows.filter fun r => !cond.holds t r }) := by
  unfold delete
  rw [find_eq_ok.mpr ht, ok_bind, known, hknown]
  rfl

end Database

end MessageCache
