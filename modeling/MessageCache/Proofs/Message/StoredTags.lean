/-
# Which texts hold tags

Tags and their stored form belong to each other both ways, and only within bounds.  A list of
tags has a stored form iff each of them is storable, and then it is the only list with that
form.  A text gives tags whatever it is, but these are stored as the text again only if there
is something between its separators:

    the text                                   its tags        what is stored of them
    ─────────────────────────────────────────────────────────────────────────────────
    is empty                                   none            the text
    has no empty piece                         its pieces      the text
    begins or ends with a separator, or
    has two of them in a row                   its pieces      nothing, for the tag ""

No other tag is refused there, since no piece holds a separator.  The first piece is empty
where the text begins with a separator, and a later one where a separator ends the text or
has the next one right behind it (`nil_mem_split_iff`).
-/
import Mathlib.Data.List.Infix
import MessageCache.Proofs.Message.Tags
import MessageCache.Store.Error

namespace MessageCache

/-! ## Pieces -/

namespace Text

variable {α : Type} [DecidableEq α] {separator : α}

/-- What is no separator belongs to the first piece. -/
theorem exists_split_cons {x : α} (hx : x ≠ separator) (xs : List α) : ∃ p ps,
    split separator xs = p :: ps ∧ split separator (x :: xs) = (x :: p) :: ps := by
  obtain ⟨p, ps, hsplit⟩ := List.exists_cons_of_ne_nil (split_ne_nil separator xs)
  refine ⟨p, ps, hsplit, ?_⟩
  rw [split, if_neg hx, hsplit]

theorem split_separator_cons (xs : List α) :
    split separator (separator :: xs) = [] :: split separator xs :=
  if_pos rfl

/-- No piece holds a separator. -/
theorem notMem_of_mem_split {p xs : List α} (hp : p ∈ split separator xs) : separator ∉ p := by
  induction xs generalizing p with
  | nil =>
      obtain rfl := List.mem_singleton.mp hp
      exact List.not_mem_nil
  | cons x xs ih =>
      by_cases hx : x = separator
      · rw [hx, split_separator_cons] at hp
        rcases List.mem_cons.mp hp with rfl | hp
        · exact List.not_mem_nil
        · exact ih hp
      · obtain ⟨first, rest, hxs, hcons⟩ := exists_split_cons hx xs
        rw [hxs] at ih
        rw [hcons] at hp
        rcases List.mem_cons.mp hp with rfl | hp
        · rw [List.mem_cons, not_or]
          exact ⟨Ne.symm hx, ih List.mem_cons_self⟩
        · exact ih (List.mem_cons_of_mem _ hp)

/-- The first piece is empty if nothing stands before the first separator, and a later one if
nothing stands between two separators or behind the last. -/
theorem exists_split (separator : α) (xs : List α) : ∃ p ps, split separator xs = p :: ps ∧
    (p = [] ↔ xs = [] ∨ [separator] <+: xs) ∧
    ([] ∈ ps ↔ [separator] <:+ xs ∨ [separator, separator] <:+: xs) := by
  induction xs with
  | nil => exact ⟨[], [], rfl, by simp, by simp⟩
  | cons x xs ih =>
      obtain ⟨p, ps, hsplit, hfirst, hlater⟩ := ih
      rw [List.suffix_cons_iff, List.infix_cons_iff, List.cons_prefix_cons,
        List.cons_prefix_cons]
      by_cases hx : x = separator
      · -- the pieces of the rest are all later ones now, its first one too
        refine ⟨[], p :: ps, by rw [hx, split_separator_cons, hsplit], by simp [hx], ?_⟩
        rw [List.mem_cons, eq_comm, hfirst, hlater]
        simp only [hx, true_and, List.cons.injEq, eq_comm (a := ([] : List α))]
        exact or_or_or_comm
      · refine ⟨x :: p, ps, ?_, ?_, ?_⟩
        · rw [split, if_neg hx, hsplit]
        · simp [Ne.symm hx]
        · rw [hlater]
          simp [Ne.symm hx]

theorem nil_mem_split_iff {xs : List α} : [] ∈ split separator xs ↔
    xs = [] ∨ [separator] <+: xs ∨ [separator] <:+ xs ∨ [separator, separator] <:+: xs := by
  obtain ⟨p, ps, hsplit, hfirst, hlater⟩ := exists_split separator xs
  rw [hsplit, List.mem_cons, eq_comm, hfirst, hlater, or_assoc]

end Text

/-! ## Lists and texts -/

theorem mapError_eq_error {ε ε' α : Type} {x : Except ε α} {f : ε → ε'} {e : ε'} :
    x.mapError f = .error e ↔ ∃ cause, x = .error cause ∧ f cause = e := by
  cases x with
  | error cause =>
      constructor
      · rintro ⟨⟩
        exact ⟨cause, rfl, rfl⟩
      · rintro ⟨_, ⟨⟩, rfl⟩
        rfl
  | ok a => exact iff_of_false nofun nofun

namespace Tags

/-- The text begins or ends with a separator, or has two of them in a row. -/
def HasGap (text : String) : Prop :=
  [','] <+: text.toList ∨ [','] <:+ text.toList ∨ [',', ','] <:+: text.toList

instance (text : String) : Decidable (HasGap text) := by
  unfold HasGap
  infer_instance

/-- What storing makes of a list of tags. -/
structure StoredExactly (tags : List String) : Prop where
  accepted_iff : (∃ stored, encode tags = .ok stored) ↔ ∀ tag ∈ tags, tag ≠ "" ∧ ',' ∉ tag.toList
  /-- A refusal is for the first of the tags that is not storable. -/
  refused_iff : ∀ e, (encode tags).mapError StoreError.invalidTag = .error e ↔
    ∃ before bad rest, e = .invalidTag bad ∧ tags = before ++ bad :: rest ∧
      (∀ tag ∈ before, tag ≠ "" ∧ ',' ∉ tag.toList) ∧ (bad = "" ∨ ',' ∈ bad.toList)
  decoded : ∀ stored, encode tags = .ok stored → decode stored = tags
  /-- No other list has the same stored form. -/
  injective : ∀ stored others, encode tags = .ok stored → encode others = .ok stored →
    others = tags

theorem not_storable_iff {tag : String} : ¬ Storable tag ↔ tag = "" ∨ ',' ∈ tag.toList := by
  unfold Storable
  rw [not_and_or, not_not, not_not]
  exact Iff.rfl

theorem storedExactly (tags : List String) : StoredExactly tags where
  accepted_iff := by
    simp only [encode_eq_ok, exists_and_left, exists_eq, and_true]
    exact Iff.rfl
  refused_iff e := by
    simp only [mapError_eq_error, encode_eq_error, not_storable_iff]
    constructor
    · rintro ⟨bad, ⟨before, rest, rfl, hbefore, hbad⟩, rfl⟩
      exact ⟨before, bad, rest, rfl, rfl, hbefore, hbad⟩
    · rintro ⟨before, bad, rest, rfl, rfl, hbefore, hbad⟩
      exact ⟨bad, ⟨before, rest, rfl, hbefore, hbad⟩, rfl⟩
  decoded _ := decode_encode
  injective stored others htags hothers := (decode_encode hothers).symm.trans (decode_encode htags)

variable {text : String}

theorem mem_decode_iff {tag : String} (h : text ≠ "") :
    tag ∈ decode text ↔ tag.toList ∈ Text.split separator text.toList := by
  rw [decode, if_neg h, List.mem_map]
  constructor
  · rintro ⟨p, hp, rfl⟩
    rwa [String.toList_ofList]
  · exact fun htag => ⟨_, htag, String.ofList_toList⟩

/-- No tag of a text holds a separator. -/
theorem storable_iff_of_mem_decode {tag : String} (htag : tag ∈ decode text) :
    Storable tag ↔ tag ≠ "" := by
  have hne : text ≠ "" := by
    rintro rfl
    cases htag
  exact and_iff_left (Text.notMem_of_mem_split ((mem_decode_iff hne).mp htag))

/-- A text has an empty tag iff there is nothing on one side of a separator. -/
theorem empty_mem_decode_iff : "" ∈ decode text ↔ HasGap text := by
  by_cases hempty : text = ""
  · subst hempty
    exact iff_of_false (fun h => nomatch h) (by decide)
  · have hchars : text.toList ≠ [] := fun h => hempty (String.toList_eq_nil_iff.mp h)
    rw [mem_decode_iff hempty, String.toList_empty, Text.nil_mem_split_iff, or_iff_right hchars]
    exact Iff.rfl

/-- The tags of a text are stored as the text, if none of them is empty. -/
theorem encode_decode_of_notMem (h : "" ∉ decode text) : encode (decode text) = .ok text := by
  refine encode_eq_ok.mpr ⟨?_, ?_⟩
  · intro tag htag
    rw [storable_iff_of_mem_decode htag]
    rintro rfl
    exact h htag
  · by_cases hempty : text = ""
    · subst hempty
      rfl
    · have hid : String.toList ∘ String.ofList = id := by
        funext cs
        exact String.toList_ofList
      rw [decode, if_neg hempty, List.map_map, hid, List.map_id, Text.join_split,
        String.ofList_toList]

/-- If one of them is empty they are refused for it. -/
theorem encode_decode_of_mem (h : "" ∈ decode text) : encode (decode text) = .error "" := by
  cases hencode : encode (decode text) with
  | ok stored =>
      exact absurd rfl ((encode_eq_ok.mp hencode).1 "" h).1
  | error bad =>
      obtain ⟨before, rest, hsplit, -, hbad⟩ := encode_eq_error.mp hencode
      have hmem : bad ∈ decode text := by simp [hsplit]
      rw [storable_iff_of_mem_decode hmem, not_not] at hbad
      rw [hbad]

/-- Tags are stored iff each of them is non-empty and without a separator, and otherwise
refused for the first that is not; what is stored gives the list back, and no other list is
stored so.  The tags of a text are stored as that text iff it is empty or without a gap, and
otherwise refused for the empty tag. -/
theorem encode_inverse_decode :
    (∀ tags, StoredExactly tags) ∧ ∀ text,
      ("" ∈ decode text ↔ HasGap text) ∧
        (encode (decode text)).mapError StoreError.invalidTag =
          if text = "" ∨ ¬ HasGap text then .ok text else .error (.invalidTag "") := by
  refine ⟨storedExactly, fun text => ⟨empty_mem_decode_iff, ?_⟩⟩
  by_cases hgap : HasGap text
  · have hne : text ≠ "" := by
      rintro rfl
      exact absurd hgap (by decide)
    rw [encode_decode_of_mem (empty_mem_decode_iff.mpr hgap), if_neg (by simp [hne, hgap])]
    rfl
  · rw [encode_decode_of_notMem (mt empty_mem_decode_iff.mp hgap), if_pos (.inr hgap)]
    rfl

end Tags

end MessageCache
