/-
# What is read as a record

An object is read as a record from its members in the order in which they stand.  Members of
no field are skipped.  The others come to nothing more than this:

    accepted      no field has two members, each member of a field reads as the field, and
                  every required field has a member
    the record    each field holds what its member reads as, or its default without one
    refused       for the first member that is one too many for its field or does not read as
                  it; if there is none, for the first required field without a member

So the order of the members matters for the problem and not for the record.  An array of the
first fields is read as the object with these members is, in all of it, if no field that it
leaves out is required.

What the members say so far is in a draft (`Drafts`), and reading one more member keeps that:
`Fine.readMembers` goes up to the end, `FirstBad.readMembers` up to the first bad member.
-/
import Mathlib.Data.List.Induction
import MessageCache.Proofs.Json.Record

namespace MessageCache.Json

/-- Members under these names. -/
def namedMembers (ms : List (String × Source)) : List (Source × Source) :=
  ms.map fun m => (.text m.1, m.2)

/-- The object with members under these names. -/
def Source.named (ms : List (String × Source)) : Source := .object (namedMembers ms)

theorem namedMembers_append (ms rest : List (String × Source)) :
    namedMembers (ms ++ rest) = namedMembers ms ++ namedMembers rest := List.map_append

/-- The text does not break in any of the members. -/
def Unbroken (ms : List (String × Source)) : Prop := ∀ m ∈ ms, m.2.wellFormed = true

namespace RecordFormat

/-! ## Members -/

section Members

variable {F : Type} (format : RecordFormat F)

/-- One of the members is of the field. -/
def Occurs (ms : List (String × Source)) (f : F) : Prop := ∃ m ∈ ms, m.1 = format.key f

/-- No two members are of the same field. -/
def Unrepeated (ms : List (String × Source)) : Prop :=
  ∀ f, (ms.countP fun m => m.1 = format.key f) ≤ 1

/-- No two members are of the same field, and each reads as its field. -/
structure Fine (ms : List (String × Source)) : Prop where
  unrepeated : format.Unrepeated ms
  reads : ∀ f v, (format.key f, v) ∈ ms → ∃ x, format.read .document f v = .ok x

/-- The problem of the first member that is one too many for its field or does not read as
it. -/
inductive FirstBad (ms : List (String × Source)) : Problem → Prop
  | repeated (before after : List (String × Source)) (f : F) (v : Source) :
      ms = before ++ (format.key f, v) :: after → format.Fine before → format.Occurs before f →
      FirstBad ms (.unfit s!"duplicate field `{format.key f}`")
  | unread (before after : List (String × Source)) (f : F) (v : Source) (p : Problem) :
      ms = before ++ (format.key f, v) :: after → format.Fine before → ¬ format.Occurs before f →
      format.read .document f v = .error p → FirstBad ms p

/-- Every required field has a member. -/
def AllGiven (ms : List (String × Source)) : Prop :=
  ∀ f, format.required f = true → format.Occurs ms f

/-- The field is the first required one without a member, in order of declaration. -/
structure FirstMissing (ms : List (String × Source)) (f : F) : Prop where
  required : format.required f = true
  absent : ¬ format.Occurs ms f
  first : ∃ before after, format.fields = before ++ f :: after ∧
    ∀ g ∈ before, format.required g = true → format.Occurs ms g

/-- The problem of a record that is not read. -/
inductive FirstProblem (ms : List (String × Source)) : Problem → Prop
  | member (p : Problem) : format.FirstBad ms p → FirstProblem ms p
  | missing (f : F) : format.Fine ms → format.FirstMissing ms f →
      FirstProblem ms (.unfit s!"missing field `{format.key f}`")

/-- Each field holds what its member reads as, or its default if it has none. -/
@[mk_iff] structure Fills (ms : List (String × Source)) (get : (f : F) → format.Carrier f) : Prop where
  given : ∀ f v, (format.key f, v) ∈ ms → format.read .document f v = .ok (get f)
  absent : ∀ f, ¬ format.Occurs ms f → get f = format.blank f

variable {format} {ms : List (String × Source)} {m : String × Source} {f : F} {p : Problem}

theorem occurs_append {rest : List (String × Source)} :
    format.Occurs (ms ++ rest) f ↔ format.Occurs ms f ∨ format.Occurs rest f := by
  simp only [Occurs, List.mem_append, or_and_right, exists_or]

theorem occurs_singleton : format.Occurs [m] f ↔ m.1 = format.key f := by
  simp [Occurs]

theorem occurs_iff : format.Occurs ms f ↔ ∃ v, (format.key f, v) ∈ ms := by
  constructor
  · rintro ⟨⟨key, v⟩, hm, rfl⟩
    exact ⟨v, hm⟩
  · rintro ⟨v, hv⟩
    exact ⟨_, hv, rfl⟩

theorem fine_nil : format.Fine [] where
  unrepeated _ := Nat.zero_le 1
  reads _ _ h := nomatch h

theorem unrepeated_append_singleton : format.Unrepeated (ms ++ [m]) ↔
    format.Unrepeated ms ∧ ∀ f, m.1 = format.key f → ¬ format.Occurs ms f := by
  have hzero (f : F) : (ms.countP fun m => m.1 = format.key f) = 0 ↔ ¬ format.Occurs ms f := by
    simp only [List.countP_eq_zero, decide_eq_true_eq, Occurs, not_exists, not_and]
  simp only [Unrepeated, ← hzero, ← forall_and]
  refine forall_congr' fun f => ?_
  rw [List.countP_append, List.countP_singleton]
  by_cases hkey : m.1 = format.key f
  · simp only [hkey, decide_true, if_true, forall_const]
    omega
  · simp [hkey]

/-- One more member is fine if it is of no field, or the first of its field and reads as it. -/
theorem fine_append_singleton : format.Fine (ms ++ [m]) ↔ format.Fine ms ∧
    ∀ f, m.1 = format.key f →
      ¬ format.Occurs ms f ∧ ∃ x, format.read .document f m.2 = .ok x := by
  constructor
  · rintro ⟨hunrepeated, hreads⟩
    obtain ⟨hms, hm⟩ := unrepeated_append_singleton.mp hunrepeated
    refine ⟨⟨hms, fun f v hv => hreads f v (List.mem_append_left _ hv)⟩, fun f hf => ?_⟩
    refine ⟨hm f hf, hreads f m.2 ?_⟩
    rw [← hf]
    exact List.mem_append_right _ (List.mem_singleton_self m)
  · rintro ⟨⟨hunrepeated, hreads⟩, hm⟩
    refine ⟨unrepeated_append_singleton.mpr ⟨hunrepeated, fun f hf => (hm f hf).1⟩, ?_⟩
    intro f v hv
    rcases List.mem_append.mp hv with hv | hv
    · exact hreads f v hv
    · obtain rfl := List.mem_singleton.mp hv
      exact (hm f rfl).2

theorem FirstBad.append (h : format.FirstBad ms p) (rest : List (String × Source)) :
    format.FirstBad (ms ++ rest) p := by
  cases h with
  | repeated before after f v hms hfine hoccurs =>
      refine .repeated before (after ++ rest) f v ?_ hfine hoccurs
      rw [hms, List.append_assoc, List.cons_append]
  | unread before after f v p hms hfine hnew hread =>
      refine .unread before (after ++ rest) f v p ?_ hfine hnew hread
      rw [hms, List.append_assoc, List.cons_append]

/-- Where not all members are fine there is a first that is not. -/
theorem exists_firstBad (h : ¬ format.Fine ms) : ∃ p, format.FirstBad ms p := by
  induction ms using List.reverseRecOn with
  | nil => exact absurd fine_nil h
  | append_singleton ms m ih =>
      by_cases hfine : format.Fine ms
      · simp only [fine_append_singleton, hfine, true_and, not_forall] at h
        obtain ⟨f, hf, hbad⟩ := h
        have hms : ms ++ [m] = ms ++ (format.key f, m.2) :: [] := by rw [← hf]
        by_cases hoccurs : format.Occurs ms f
        · exact ⟨_, .repeated ms [] f m.2 hms hfine hoccurs⟩
        · cases hread : format.read .document f m.2 with
          | ok x => exact absurd ⟨hoccurs, x, hread⟩ hbad
          | error p => exact ⟨p, .unread ms [] f m.2 p hms hfine hoccurs hread⟩
      · obtain ⟨p, hp⟩ := ih hfine
        exact ⟨p, hp.append [m]⟩

end Members

/-! ## Drafts -/

section Drafts

variable {F : Type} (format : RecordFormat F)

/-- The draft holds what the members read as. -/
structure Drafts (ms : List (String × Source)) (d : format.Draft) : Prop where
  given : ∀ f v, (format.key f, v) ∈ ms → ∃ x, format.read .document f v = .ok x ∧ d f = some x
  absent : ∀ f, ¬ format.Occurs ms f → d f = none

variable {format} {ms : List (String × Source)} {m : String × Source} {d : format.Draft}
  {f : F} {p : Problem}

theorem IsKeyed.key_inj (hformat : format.IsKeyed) {g : F} (h : format.key f = format.key g) :
    f = g := by
  have hf := hformat.keys f
  rw [h, hformat.keys g] at hf
  exact (Option.some.inj hf).symm

theorem mem_filter_known (hformat : format.IsKeyed) {v : Source} :
    (format.key f, v) ∈ ms.filter (fun m => (format.field? m.1).isSome) ↔
      (format.key f, v) ∈ ms := by
  rw [List.mem_filter, hformat.keys f, Option.isSome_some, and_iff_left rfl]

theorem countP_filter_known (hformat : format.IsKeyed) (f : F) :
    ((ms.filter fun m => (format.field? m.1).isSome).countP fun m => m.1 = format.key f) =
      ms.countP fun m => m.1 = format.key f := by
  rw [List.countP_filter]
  refine List.countP_congr fun m _ => ?_
  rw [Bool.and_eq_true, decide_eq_true_eq]
  refine and_iff_left_of_imp fun hm => ?_
  rw [hm, hformat.keys f, Option.isSome_some]

/-- Items up to a field from which on none is required give all that is required. -/
theorem allGiven_zip (hformat : format.IsKeyed) {vs : List Source}
    (hrest : ∀ f ∈ format.fields.drop vs.length, format.required f = false) :
    format.AllGiven ((format.fields.map format.key).zip vs) := by
  intro f hf
  obtain ⟨i, hi, rfl⟩ := List.mem_iff_getElem.mp (hformat.all f)
  by_cases hlt : i < vs.length
  · have hzip : i < ((format.fields.map format.key).zip vs).length := by
      rw [List.length_zip, List.length_map]
      omega
    refine ⟨((format.fields.map format.key).zip vs)[i], List.getElem_mem hzip, ?_⟩
    rw [List.getElem_zip, List.getElem_map]
  · have hdrop : format.fields[i] ∈ format.fields.drop vs.length :=
      List.mem_drop_iff_getElem.mpr ⟨i - vs.length, by omega, by congr 1; omega⟩
    rw [hrest _ hdrop] at hf
    cases hf

theorem drafts_nil : format.Drafts [] format.emptyDraft where
  given _ _ h := nomatch h
  absent _ _ := rfl

theorem Drafts.isSome_iff (h : format.Drafts ms d) (f : F) :
    (d f).isSome = true ↔ format.Occurs ms f := by
  constructor
  · intro hsome
    refine Classical.not_not.mp fun hnot => ?_
    rw [h.absent f hnot] at hsome
    cases hsome
  · intro hoccurs
    obtain ⟨v, hv⟩ := occurs_iff.mp hoccurs
    obtain ⟨x, -, hx⟩ := h.given f v hv
    rw [hx]
    rfl

/-- The required fields that are not in the draft are those without a member. -/
theorem Drafts.isMissing_iff (h : format.Drafts ms d) (f : F) :
    (format.required f && (d f).isNone) = true ↔
      format.required f = true ∧ ¬ format.Occurs ms f := by
  rw [Bool.and_eq_true, ← h.isSome_iff f, Option.isNone_iff_eq_none, Option.not_isSome_iff_eq_none]

theorem Drafts.missing?_eq_none (hformat : format.IsKeyed) (h : format.Drafts ms d) :
    format.missing? d format.fields = none ↔ format.AllGiven ms := by
  simp only [missing?, List.find?_eq_none, h.isMissing_iff, hformat.all, forall_const, not_and,
    Classical.not_not, AllGiven]

theorem Drafts.missing?_eq_some (h : format.Drafts ms d) :
    format.missing? d format.fields = some f ↔ format.FirstMissing ms f := by
  have hgiven (g : F) : (!(format.required g && (d g).isNone)) = true ↔
      (format.required g = true → format.Occurs ms g) := by
    rw [Bool.not_eq_true', Bool.eq_false_iff, Ne, h.isMissing_iff, not_and, Classical.not_not]
  simp only [missing?, List.find?_eq_some_iff_append, h.isMissing_iff, hgiven]
  constructor
  · rintro ⟨⟨hrequired, habsent⟩, hfirst⟩
    exact ⟨hrequired, habsent, hfirst⟩
  · rintro ⟨hrequired, habsent, hfirst⟩
    exact ⟨⟨hrequired, habsent⟩, hfirst⟩

theorem Drafts.allGiven_or_missing (hformat : format.IsKeyed) (h : format.Drafts ms d) :
    format.AllGiven ms ∨ ∃ f, format.FirstMissing ms f := by
  cases hmissing : format.missing? d format.fields with
  | none => exact .inl ((h.missing?_eq_none hformat).mp hmissing)
  | some f => exact .inr ⟨f, h.missing?_eq_some.mp hmissing⟩

theorem Drafts.complete_eq_ok (hformat : format.IsKeyed) (h : format.Drafts ms d)
    (hall : format.AllGiven ms) : format.complete d = .ok d.filled := by
  rw [complete, (h.missing?_eq_none hformat).mpr hall]

theorem Drafts.complete_eq_error (h : format.Drafts ms d) (hf : format.FirstMissing ms f) :
    format.complete d = .error (.unfit s!"missing field `{format.key f}`") := by
  rw [complete, h.missing?_eq_some.mpr hf]

theorem Drafts.filled (h : format.Drafts ms d) : format.Fills ms d.filled where
  given f v hv := by
    obtain ⟨x, hread, hx⟩ := h.given f v hv
    rw [hread, Draft.filled, hx, Option.getD_some]
  absent f hf := by
    rw [Draft.filled, h.absent f hf, Option.getD_none]

/-- Members fill in a record in one way only. -/
theorem Fills.eq {get get' : (f : F) → format.Carrier f} (h : format.Fills ms get)
    (h' : format.Fills ms get') : get = get' := by
  funext f
  by_cases hf : format.Occurs ms f
  · obtain ⟨v, hv⟩ := occurs_iff.mp hf
    exact Except.ok.inj ((h.given f v hv).symm.trans (h'.given f v hv))
  · rw [h.absent f hf, h'.absent f hf]

theorem Drafts.skip (h : format.Drafts ms d) (hm : ∀ f, m.1 ≠ format.key f) :
    format.Drafts (ms ++ [m]) d where
  given f v hv := by
    rcases List.mem_append.mp hv with hv | hv
    · exact h.given f v hv
    · obtain rfl := List.mem_singleton.mp hv
      exact absurd rfl (hm f)
  absent f hf := h.absent f fun hoccurs => hf (occurs_append.mpr (.inl hoccurs))

variable [DecidableEq F]

theorem Drafts.set (hformat : format.IsKeyed) (h : format.Drafts ms d)
    (hnew : ¬ format.Occurs ms f) {v : Source} {x : format.Carrier f}
    (hread : format.read .document f v = .ok x) :
    format.Drafts (ms ++ [(format.key f, v)]) (d.set f x) where
  given g w hw := by
    rcases List.mem_append.mp hw with hw | hw
    · have hne : f ≠ g := by
        rintro rfl
        exact hnew (occurs_iff.mpr ⟨w, hw⟩)
      rw [d.set_of_ne x hne]
      exact h.given g w hw
    · obtain ⟨hkey, rfl⟩ := Prod.mk.inj (List.mem_singleton.mp hw)
      obtain rfl := hformat.key_inj hkey
      exact ⟨x, hread, d.set_self g x⟩
  absent g hg := by
    rw [occurs_append, occurs_singleton, not_or] at hg
    have hne : f ≠ g := by
      rintro rfl
      exact hg.2 rfl
    rw [d.set_of_ne x hne]
    exact h.absent g hg.1

/-! ## Reading members -/

theorem readMembers_append (d : format.Draft) (ms rest : List (Source × Source)) :
    format.readMembers .document d (ms ++ rest) =
      format.readMembers .document d ms >>= fun d => format.readMembers .document d rest := by
  induction ms generalizing d with
  | nil => rfl
  | cons m ms ih =>
      obtain ⟨k, v⟩ := m
      cases k with
      | text key =>
          rw [List.cons_append, readMembers, readMembers]
          cases format.field? key with
          | none =>
              simp only
              split
              · exact ih d
              · rfl
          | some f =>
              simp only
              split
              · rfl
              · cases format.read .document f v with
                | error p => rfl
                | ok x => exact ih (d.set f x)
      | _ => rfl

theorem readMembers_after {d d' : format.Draft} {ms : List (Source × Source)}
    (h : format.readMembers .document d ms = .ok d') (rest : List (Source × Source)) :
    format.readMembers .document d (ms ++ rest) = format.readMembers .document d' rest := by
  rw [readMembers_append, h]
  rfl

theorem readMembers_field (hformat : format.IsKeyed) (d : format.Draft) (f : F) (v : Source)
    (rest : List (Source × Source)) :
    format.readMembers .document d ((.text (format.key f), v) :: rest) =
      if (d f).isSome then .error (.unfit s!"duplicate field `{format.key f}`")
      else format.read .document f v >>= fun x => format.readMembers .document (d.set f x) rest := by
  rw [readMembers, hformat.keys f]
  simp only
  split
  · rfl
  · cases format.read .document f v <;> rfl

theorem readMembers_skip (hm : ∀ f, m.1 ≠ format.key f) (hv : m.2.wellFormed = true)
    (d : format.Draft) (rest : List (Source × Source)) :
    format.readMembers .document d ((.text m.1, m.2) :: rest) =
      format.readMembers .document d rest := by
  have hfield : format.field? m.1 = none := by
    rw [field?, List.find?_eq_none]
    intro f _
    simpa using (hm f).symm
  rw [readMembers, hfield]
  exact if_pos hv

theorem Fine.readMembers (hformat : format.IsKeyed) (h : format.Fine ms) (hms : Unbroken ms) :
    ∃ d, format.readMembers .document format.emptyDraft (namedMembers ms) = .ok d ∧
      format.Drafts ms d := by
  induction ms using List.reverseRecOn with
  | nil => exact ⟨_, rfl, drafts_nil⟩
  | append_singleton ms m ih =>
      obtain ⟨hfine, hm⟩ := fine_append_singleton.mp h
      obtain ⟨d, hd, hdrafts⟩ := ih hfine fun m hm => hms m (List.mem_append_left _ hm)
      have hwellFormed := hms m (List.mem_append_right _ (List.mem_singleton_self m))
      rw [namedMembers_append, readMembers_after hd]
      by_cases hfield : ∃ f, m.1 = format.key f
      · obtain ⟨key, v⟩ := m
        obtain ⟨f, rfl⟩ := hfield
        obtain ⟨hnew, x, hx⟩ := hm f rfl
        refine ⟨d.set f x, ?_, hdrafts.set hformat hnew hx⟩
        rw [namedMembers, List.map_singleton, readMembers_field hformat, hdrafts.absent f hnew, hx]
        rfl
      · have hskip : ∀ f, m.1 ≠ format.key f := not_exists.mp hfield
        exact ⟨d, readMembers_skip hskip hwellFormed d [], hdrafts.skip hskip⟩

theorem FirstBad.readMembers (hformat : format.IsKeyed) (h : format.FirstBad ms p)
    (hms : Unbroken ms) :
    format.readMembers .document format.emptyDraft (namedMembers ms) = .error p := by
  cases h with
  | repeated before after f v heq hfine hoccurs =>
      subst heq
      obtain ⟨d, hd, hdrafts⟩ :=
        hfine.readMembers hformat fun m hm => hms m (List.mem_append_left _ hm)
      rw [namedMembers_append, readMembers_after hd, namedMembers, List.map_cons,
        readMembers_field hformat, if_pos ((hdrafts.isSome_iff f).mpr hoccurs)]
  | unread before after f v p heq hfine hnew hread =>
      subst heq
      obtain ⟨d, hd, hdrafts⟩ :=
        hfine.readMembers hformat fun m hm => hms m (List.mem_append_left _ hm)
      rw [namedMembers_append, readMembers_after hd, namedMembers, List.map_cons,
        readMembers_field hformat, if_neg (fun h => hnew ((hdrafts.isSome_iff f).mp h)), hread]
      rfl

end Drafts

/-! ## Records -/

section Records

variable {F : Type} [DecidableEq F] {format : RecordFormat F} {ms : List (String × Source)}
  {get : (f : F) → format.Carrier f} {p : Problem}

theorem readRecord_named (ms : List (String × Source)) :
    format.readRecord .document (.named ms) =
      format.readMembers .document format.emptyDraft (namedMembers ms) >>= format.complete := rfl

theorem Fine.readRecord (hformat : format.IsKeyed) (h : format.Fine ms) (hms : Unbroken ms) :
    ∃ d, format.Drafts ms d ∧ format.readRecord .document (.named ms) = format.complete d := by
  obtain ⟨d, hd, hdrafts⟩ := h.readMembers hformat hms
  refine ⟨d, hdrafts, ?_⟩
  rw [readRecord_named, hd]
  rfl

theorem FirstBad.readRecord (hformat : format.IsKeyed) (h : format.FirstBad ms p)
    (hms : Unbroken ms) : format.readRecord .document (.named ms) = .error p := by
  rw [readRecord_named, h.readMembers hformat hms]
  rfl

/-- When an object is read as a record, and as which. -/
theorem readRecord_eq_ok (hformat : format.IsKeyed) (hms : Unbroken ms) :
    format.readRecord .document (.named ms) = .ok get ↔
      format.Unrepeated ms ∧ format.AllGiven ms ∧ format.Fills ms get := by
  constructor
  · intro hread
    by_cases hfine : format.Fine ms
    · obtain ⟨d, hdrafts, hd⟩ := hfine.readRecord hformat hms
      rw [hd] at hread
      rcases hdrafts.allGiven_or_missing hformat with hall | ⟨f, hf⟩
      · rw [hdrafts.complete_eq_ok hformat hall] at hread
        obtain rfl := Except.ok.inj hread
        exact ⟨hfine.unrepeated, hall, hdrafts.filled⟩
      · rw [hdrafts.complete_eq_error hf] at hread
        cases hread
    · obtain ⟨p, hp⟩ := exists_firstBad hfine
      rw [hp.readRecord hformat hms] at hread
      cases hread
  · rintro ⟨hunrepeated, hall, hfills⟩
    have hfine : format.Fine ms := ⟨hunrepeated, fun f v hv => ⟨get f, hfills.given f v hv⟩⟩
    obtain ⟨d, hdrafts, hd⟩ := hfine.readRecord hformat hms
    rw [hd, hdrafts.complete_eq_ok hformat hall, hfills.eq hdrafts.filled]

/-- When it is not, and for which problem. -/
theorem readRecord_eq_error (hformat : format.IsKeyed) (hms : Unbroken ms) :
    format.readRecord .document (.named ms) = .error p ↔ format.FirstProblem ms p := by
  constructor
  · intro hread
    by_cases hfine : format.Fine ms
    · obtain ⟨d, hdrafts, hd⟩ := hfine.readRecord hformat hms
      rw [hd] at hread
      rcases hdrafts.allGiven_or_missing hformat with hall | ⟨f, hf⟩
      · rw [hdrafts.complete_eq_ok hformat hall] at hread
        cases hread
      · rw [hdrafts.complete_eq_error hf] at hread
        rw [← Except.error.inj hread]
        exact .missing f hfine hf
    · obtain ⟨q, hq⟩ := exists_firstBad hfine
      rw [hq.readRecord hformat hms] at hread
      rw [← Except.error.inj hread]
      exact .member q hq
  · rintro (⟨_, hbad⟩ | ⟨f, hfine, hf⟩)
    · exact hbad.readRecord hformat hms
    · obtain ⟨d, hdrafts, hd⟩ := hfine.readRecord hformat hms
      rw [hd, hdrafts.complete_eq_error hf]

/-! ## The order of the members -/

/-- The record depends on the members of fields alone, and not on their order. -/
theorem readRecord_of_perm {ms' : List (String × Source)} (hformat : format.IsKeyed)
    (hms : Unbroken ms) (hms' : Unbroken ms')
    (hperm : (ms.filter fun m => (format.field? m.1).isSome).Perm
      (ms'.filter fun m => (format.field? m.1).isSome)) :
    format.readRecord .document (.named ms) = .ok get ↔
      format.readRecord .document (.named ms') = .ok get := by
  have hmem (f : F) (v : Source) : (format.key f, v) ∈ ms ↔ (format.key f, v) ∈ ms' := by
    rw [← mem_filter_known hformat, hperm.mem_iff, mem_filter_known hformat]
  have hcount (f : F) : (ms.countP fun m => m.1 = format.key f) =
      ms'.countP fun m => m.1 = format.key f := by
    rw [← countP_filter_known hformat, hperm.countP_eq, countP_filter_known hformat]
  have hoccurs (f : F) : format.Occurs ms f ↔ format.Occurs ms' f := by
    simp only [occurs_iff, hmem]
  have hunrepeated : format.Unrepeated ms ↔ format.Unrepeated ms' := by
    simp only [Unrepeated, hcount]
  have hall : format.AllGiven ms ↔ format.AllGiven ms' := by
    simp only [AllGiven, hoccurs]
  have hfills : format.Fills ms get ↔ format.Fills ms' get := by
    simp only [fills_iff, hmem, hoccurs]
  rw [readRecord_eq_ok hformat hms, readRecord_eq_ok hformat hms', hunrepeated, hall, hfills]

/-! ## Arrays -/

/-- The items of an array are read as members of the fields in their order. -/
theorem readItems_eq_readMembers (hformat : format.IsKeyed) {fields : List F} {vs : List Source}
    {d : format.Draft} (hnodup : fields.Nodup) (hnew : ∀ f ∈ fields, d f = none)
    (hlength : vs.length ≤ fields.length)
    (hrest : ∀ f ∈ fields.drop vs.length, format.required f = false) (length index : Nat) :
    format.readItems .document length index d fields vs =
      format.readMembers .document d (namedMembers ((fields.map format.key).zip vs)) := by
  induction fields generalizing vs d index with
  | nil =>
      obtain rfl := List.length_eq_zero_iff.mp (Nat.le_zero.mp hlength)
      rfl
  | cons f fields ih =>
      cases vs with
      | nil =>
          have hnone : (f :: fields).findIdx? format.required = none :=
            List.findIdx?_eq_none_iff.mpr hrest
          rw [readItems, hnone]
          rfl
      | cons v vs =>
          obtain ⟨hf, hnodup⟩ := List.nodup_cons.mp hnodup
          rw [List.map_cons, List.zip_cons_cons, namedMembers, List.map_cons,
            readMembers_field hformat, hnew f List.mem_cons_self, readItems]
          cases format.read .document f v with
          | error p => rfl
          | ok x =>
              refine ih hnodup (fun g hg => ?_) (Nat.le_of_succ_le_succ hlength) hrest (index + 1)
              have hne : f ≠ g := by
                rintro rfl
                exact hf hg
              rw [d.set_of_ne x hne]
              exact hnew g (List.mem_cons_of_mem f hg)

/-- An array is read as the object of the fields that it gives, if it leaves out none that is
required. -/
theorem readRecord_array (hformat : format.IsKeyed) {vs : List Source}
    (hvs : ∀ v ∈ vs, v.wellFormed = true) (hlength : vs.length ≤ format.fields.length)
    (hrest : ∀ f ∈ format.fields.drop vs.length, format.required f = false) :
    format.readRecord .document (.array vs) =
      format.readRecord .document (.named ((format.fields.map format.key).zip vs)) := by
  have hms : Unbroken ((format.fields.map format.key).zip vs) :=
    fun m hm => hvs m.2 (List.of_mem_zip hm).2
  have harray : format.readRecord .document (.array vs) =
      format.readItems .document vs.length 0 format.emptyDraft format.fields vs >>=
        fun d => .ok d.filled := rfl
  have hempty : ∀ f ∈ format.fields, format.emptyDraft f = none := fun _ _ => rfl
  rw [harray, readItems_eq_readMembers hformat hformat.nodup hempty hlength hrest,
    readRecord_named]
  by_cases hfine : format.Fine ((format.fields.map format.key).zip vs)
  · obtain ⟨d, hd, hdrafts⟩ := hfine.readMembers hformat hms
    rw [hd]
    exact (hdrafts.complete_eq_ok hformat (allGiven_zip hformat hrest)).symm
  · obtain ⟨p, hp⟩ := exists_firstBad hfine
    rw [hp.readMembers hformat hms]
    rfl

end Records

/-! ## Types that are read as records -/

section Types

variable {F : Type} [DecidableEq F] (format : RecordFormat F)

/-- A type is read from exactly the objects and arrays of its format.  `means` says when a
value is one of a field, and `held` what the fields of a record hold. -/
structure ReadExactly {α : Type} (means : (f : F) → Source → format.Carrier f → Prop)
    (held : α → (f : F) → format.Carrier f) (read : Source → Except Problem α) : Prop where
  /-- An object is read iff no field occurs twice, every required one occurs and each value is
  one of its field. -/
  accepted : ∀ ms, Unbroken ms → ((∃ a, read (.named ms) = .ok a) ↔
    format.Unrepeated ms ∧ format.AllGiven ms ∧
      ∀ f v, (format.key f, v) ∈ ms → ∃ x, means f v x)
  /-- Each field then holds its member's value, or its default if it has none. -/
  fields : ∀ ms a, Unbroken ms → read (.named ms) = .ok a → ∀ f,
    (∀ v, (format.key f, v) ∈ ms → means f v (held a f)) ∧
      (¬ format.Occurs ms f → held a f = format.blank f)
  /-- The order of the members and those of no field do not matter for that. -/
  unordered : ∀ ms ms', Unbroken ms → Unbroken ms' →
    (ms.filter fun m => (format.field? m.1).isSome).Perm
      (ms'.filter fun m => (format.field? m.1).isSome) →
    ∀ a, read (.named ms) = .ok a ↔ read (.named ms') = .ok a
  /-- The problem is that of the first bad member, else that of the first missing field. -/
  refused : ∀ ms p, Unbroken ms → (read (.named ms) = .error p ↔ format.FirstProblem ms p)
  /-- An array is read as the object of the fields it gives, if the others are optional. -/
  items : ∀ vs : List Source, (∀ v ∈ vs, v.wellFormed = true) →
    vs.length ≤ format.fields.length →
    (∀ f ∈ format.fields.drop vs.length, format.required f = false) →
    read (.array vs) = read (.named ((format.fields.map format.key).zip vs))

variable {format} {α : Type} {means : (f : F) → Source → format.Carrier f → Prop}
  {held : α → (f : F) → format.Carrier f} {make : ((f : F) → format.Carrier f) → α}
  {read : Source → Except Problem α}

/-- So it is with a reader that makes its value of the record. -/
theorem IsKeyed.readExactly (hformat : format.IsKeyed)
    (hmeans : ∀ f v x, format.read .document f v = .ok x ↔ means f v x)
    (hmake : ∀ get a, make get = a ↔ get = held a)
    (hread : ∀ s, read s = (format.readRecord .document s).map make) :
    format.ReadExactly means held read := by
  have hok (s : Source) (a : α) :
      read s = .ok a ↔ format.readRecord .document s = .ok (held a) := by
    rw [hread]
    cases format.readRecord .document s with
    | error p => exact iff_of_false nofun nofun
    | ok get => simp only [Except.map, Except.ok.injEq, hmake]
  have herror (s : Source) (p : Problem) :
      read s = .error p ↔ format.readRecord .document s = .error p := by
    rw [hread]
    cases format.readRecord .document s with
    | error q => simp only [Except.map, Except.error.injEq]
    | ok get => exact iff_of_false nofun nofun
  constructor
  case accepted =>
    intro ms hms
    constructor
    · rintro ⟨a, ha⟩
      obtain ⟨hunrepeated, hall, hfills⟩ := (readRecord_eq_ok hformat hms).mp ((hok _ a).mp ha)
      exact ⟨hunrepeated, hall, fun f v hv => ⟨_, (hmeans f v _).mp (hfills.given f v hv)⟩⟩
    · rintro ⟨hunrepeated, hall, hvalues⟩
      have hfine : format.Fine ms := by
        refine ⟨hunrepeated, fun f v hv => ?_⟩
        obtain ⟨x, hx⟩ := hvalues f v hv
        exact ⟨x, (hmeans f v x).mpr hx⟩
      obtain ⟨d, hdrafts, hd⟩ := hfine.readRecord hformat hms
      refine ⟨make d.filled, ?_⟩
      rw [hread, hd, hdrafts.complete_eq_ok hformat hall]
      rfl
  case fields =>
    intro ms a hms ha f
    obtain ⟨-, -, hfills⟩ := (readRecord_eq_ok hformat hms).mp ((hok _ a).mp ha)
    exact ⟨fun v hv => (hmeans f v _).mp (hfills.given f v hv), hfills.absent f⟩
  case unordered =>
    intro ms ms' hms hms' hperm a
    rw [hok, hok]
    exact readRecord_of_perm hformat hms hms' hperm
  case refused =>
    intro ms p hms
    exact (herror _ p).trans (readRecord_eq_error hformat hms)
  case items =>
    intro vs hvs hlength hrest
    rw [hread, hread, readRecord_array hformat hvs hlength hrest]

end Types

end RecordFormat

end MessageCache.Json
