/-
# Records that are read as they were written

What is written of a record is, field by field, a value or nothing (`format.members`).  It
is the record that is read again if

    each value that is written    is read as what the field holds
    each field that is left out   may be missing, and holds what it is then filled with

and the fields are told apart by their keys (`readRecord_members`).  Nothing is asked of how
many fields are left out, or which.
-/
import MessageCache.Json.Record
import MessageCache.Proofs.Json.Scan

namespace MessageCache.Json

theorem membersInRange_iff (ms : List (String × Value)) :
    membersInRange ms ↔ ∀ m ∈ ms, m.2.InRange := by
  induction ms with
  | nil => simp [membersInRange]
  | cons m ms ih =>
      rw [membersInRange, ih, List.forall_mem_cons]

theorem itemsInRange_iff (vs : List Value) : itemsInRange vs ↔ ∀ v ∈ vs, v.InRange := by
  induction vs with
  | nil => simp [itemsInRange]
  | cons v vs ih => rw [itemsInRange, ih, List.forall_mem_cons]

namespace RecordFormat

/-! ## What is written -/

section Writing

variable {F : Type} (format : RecordFormat F)

/-- The members that are written for some fields, if each has a value or is left out. -/
def spell (spelled : F → Option Value) (fields : List F) : List (String × Value) :=
  fields.flatMap fun f => (spelled f).toList.map fun v => (format.key f, v)

/-- What is written of a field stands for what it holds. -/
inductive SpelledAs (f : F) (x : format.Carrier f) : Option Value → Prop
  | written (v : Value) : v.InRange → format.read .document f (.ofValue v) = .ok x →
      SpelledAs f x (some v)
  | leftOut : format.required f = false → x = format.blank f → SpelledAs f x none

/-- What is written stands for what the fields hold. -/
def Spells (spelled : F → Option Value) (get : (f : F) → format.Carrier f) : Prop :=
  ∀ f, format.SpelledAs f (get f) (spelled f)

section Fields

variable {format} {spelled : F → Option Value} {get : (f : F) → format.Carrier f} {f : F}
  {v : Value}

theorem Spells.written (h : format.Spells spelled get) (hv : spelled f = some v) :
    v.InRange ∧ format.read .document f (.ofValue v) = .ok (get f) := by
  have hf := h f
  rw [hv] at hf
  cases hf with
  | written _ hrange hread => exact ⟨hrange, hread⟩

theorem Spells.leftOut (h : format.Spells spelled get) (hnone : spelled f = none) :
    format.required f = false ∧ get f = format.blank f := by
  have hf := h f
  rw [hnone] at hf
  cases hf with
  | leftOut hrequired hblank => exact ⟨hrequired, hblank⟩

theorem Spells.membersInRange (h : format.Spells spelled get) (fields : List F) :
    membersInRange (format.spell spelled fields) := by
  rw [membersInRange_iff]
  intro m hm
  obtain ⟨f, -, hm⟩ := List.mem_flatMap.mp hm
  obtain ⟨v, hv, rfl⟩ := List.mem_map.mp hm
  exact (h.written (Option.mem_toList.mp hv)).1

end Fields

end Writing

/-! ## What is read -/

section Reading

variable {F : Type} [DecidableEq F] {format : RecordFormat F}

/-- All fields are listed, once each, and each is found by its key. -/
structure IsKeyed (format : RecordFormat F) : Prop where
  all : ∀ f, f ∈ format.fields
  nodup : format.fields.Nodup
  keys : ∀ f, format.field? (format.key f) = some f

theorem Draft.set_self (d : format.Draft) (f : F) (x : format.Carrier f) : d.set f x f = some x := by
  rw [set, dif_pos rfl]

theorem Draft.set_of_ne (d : format.Draft) {f g : F} (x : format.Carrier f) (h : f ≠ g) :
    d.set f x g = d g := by
  rw [set, dif_neg h]

variable {spelled : F → Option Value} {get : (f : F) → format.Carrier f}

/-- The members that are read fill in the fields that were written, and no others. -/
theorem Spells.readMembers (hformat : format.IsKeyed) (h : format.Spells spelled get)
    {fields : List F} (hnodup : fields.Nodup) {d : format.Draft} (hnew : ∀ f ∈ fields, d f = none) :
    ∃ d', format.readMembers .document d (Source.ofMembers (format.spell spelled fields)) = .ok d' ∧
      ∀ f, d' f = if f ∈ fields ∧ (spelled f).isSome then some (get f) else d f := by
  induction fields generalizing d with
  | nil => exact ⟨d, rfl, fun f => by simp⟩
  | cons g fields ih =>
      obtain ⟨hg, hnodup⟩ := List.nodup_cons.mp hnodup
      cases hspelled : spelled g with
      | none =>
          have hspell : format.spell spelled (g :: fields) = format.spell spelled fields := by
            simp [spell, hspelled]
          obtain ⟨d', hd', heq⟩ := ih hnodup fun f hf => hnew f (List.mem_cons_of_mem g hf)
          refine ⟨d', by rw [hspell, hd'], ?_⟩
          intro f
          rw [heq f]
          by_cases hf : f = g
          · subst hf
            simp [hspelled]
          · simp [hf]
      | some v =>
          have hspell : format.spell spelled (g :: fields) =
              (format.key g, v) :: format.spell spelled fields := by
            simp [spell, hspelled]
          have hfree : (d g).isSome = false := by simp [hnew g List.mem_cons_self]
          have hset : ∀ f ∈ fields, d.set g (get g) f = none := by
            intro f hf
            have hne : g ≠ f := fun heq => hg (heq ▸ hf)
            rw [d.set_of_ne (get g) hne]
            exact hnew f (List.mem_cons_of_mem g hf)
          obtain ⟨d', hd', heq⟩ := ih hnodup hset
          refine ⟨d', ?_, ?_⟩
          · rw [hspell, Source.ofMembers, RecordFormat.readMembers]
            simp only [hformat.keys g, hfree, (h.written hspelled).2]
            exact hd'
          · intro f
            rw [heq f]
            by_cases hf : f = g
            · subst hf
              simp [hg, hspelled, d.set_self]
            · simp [hf, d.set_of_ne (get g) (Ne.symm hf)]

/-- A record is read as it was written. -/
theorem Spells.readRecord (hformat : format.IsKeyed) (h : format.Spells spelled get) :
    format.readRecord .document (.ofValue (.object (format.spell spelled format.fields))) =
      .ok get := by
  have hempty : ∀ f ∈ format.fields, format.emptyDraft f = none := fun _ _ => rfl
  obtain ⟨d, hd, heq⟩ := h.readMembers hformat hformat.nodup hempty
  have hall : ∀ f, d f = if (spelled f).isSome then some (get f) else none := by
    intro f
    rw [heq f]
    simp [hformat.all f, emptyDraft]
  have hmissing : format.missing? d format.fields = none := by
    rw [missing?, List.find?_eq_none]
    intro f _
    cases hspelled : spelled f with
    | none => simp [(h.leftOut hspelled).1]
    | some v => simp [hall f, hspelled]
  have hfilled : d.filled = get := by
    funext f
    rw [Draft.filled, hall f]
    cases hspelled : spelled f with
    | none => simp [(h.leftOut hspelled).2]
    | some v => simp
  rw [Source.ofValue, RecordFormat.readRecord, visited, hd]
  show format.complete d = .ok get
  rw [complete, hmissing, hfilled]

end Reading

end RecordFormat

end MessageCache.Json
