/-
# Tags come back as they were

What is joined with a separator is split into the same pieces, if there is a piece and
none of them holds the separator (`split_join`).  A list of storable tags is stored so,
and the empty list as the empty text, which no other list of storable tags gives.
-/
import MessageCache.Proofs.Table.Transaction
import MessageCache.Message.Tags

namespace MessageCache

namespace Text

variable {α : Type} [DecidableEq α] {separator : α}

theorem split_append {p : List α} (hp : separator ∉ p) (rest : List α) :
    split separator (p ++ separator :: rest) = p :: split separator rest := by
  induction p with
  | nil => rw [List.nil_append, split, if_pos rfl]
  | cons x p ih =>
      rw [List.mem_cons, not_or] at hp
      rw [List.cons_append, split, if_neg (Ne.symm hp.1), ih hp.2]

theorem split_of_notMem {p : List α} (hp : separator ∉ p) : split separator p = [p] := by
  induction p with
  | nil => rfl
  | cons x p ih =>
      rw [List.mem_cons, not_or] at hp
      rw [split, if_neg (Ne.symm hp.1), ih hp.2]

theorem split_join {p : List α} {ps : List (List α)} (hps : ∀ q ∈ p :: ps, separator ∉ q) :
    split separator (join separator (p :: ps)) = p :: ps := by
  induction ps generalizing p with
  | nil => exact split_of_notMem (hps p List.mem_cons_self)
  | cons q ps ih =>
      have hrest : ∀ r ∈ q :: ps, separator ∉ r := fun r hr => hps r (List.mem_cons_of_mem p hr)
      rw [join, split_append (hps p List.mem_cons_self), ih hrest]
      exact List.cons_ne_nil _ _

end Text

namespace Tags

/-- A list has a stored form iff all of its tags are storable. -/
theorem encode_eq_ok {tags : List String} {stored : String} :
    encode tags = .ok stored ↔ (∀ tag ∈ tags, Storable tag) ∧
      stored = String.ofList (Text.join separator (tags.map String.toList)) := by
  unfold encode
  cases hbad : tags.find? fun t => ¬ Storable t with
  | some bad =>
      have hmem := List.mem_of_find?_eq_some hbad
      have hnot : ¬ Storable bad := by simpa using List.find?_some hbad
      exact ⟨fun h => (nomatch h), fun h => absurd (h.1 bad hmem) hnot⟩
  | none =>
      have hall : ∀ tag ∈ tags, Storable tag := by simpa using List.find?_eq_none.mp hbad
      exact ⟨fun h => ⟨hall, (Except.ok.inj h).symm⟩, fun h => by rw [h.2]⟩

/-- A list without a stored form is refused for the first tag that is not storable. -/
theorem encode_eq_error {tags : List String} {bad : String} :
    encode tags = .error bad ↔
      ∃ before rest, tags = before ++ bad :: rest ∧ (∀ tag ∈ before, Storable tag) ∧
        ¬ Storable bad := by
  have hfirst : encode tags = .error bad ↔ (tags.find? fun t => ¬ Storable t) = some bad := by
    unfold encode
    cases tags.find? fun t => ¬ Storable t with
    | some first =>
        constructor
        · intro h
          exact congrArg some (Except.error.inj h)
        · intro h
          rw [Option.some.inj h]
    | none =>
        constructor
        · intro h
          cases h
        · intro h
          cases h
  rw [hfirst, List.find?_eq_some_iff_append]
  simp only [decide_eq_true_eq, decide_not, Bool.not_not]
  constructor
  · rintro ⟨hbad, before, rest, rfl, hbefore⟩
    exact ⟨before, rest, rfl, hbefore, by simpa using hbad⟩
  · rintro ⟨before, rest, rfl, hbefore, hbad⟩
    exact ⟨by simpa using hbad, before, rest, rfl, hbefore⟩

/-- Stored tags come back as they were. -/
theorem decode_encode {tags : List String} {stored : String} (h : encode tags = .ok stored) :
    decode stored = tags := by
  obtain ⟨hall, rfl⟩ := encode_eq_ok.mp h
  cases tags with
  | nil => rfl
  | cons tag rest =>
      have hpieces : ∀ q ∈ tag.toList :: rest.map String.toList, separator ∉ q := by
        intro q hq
        rw [← List.map_cons] at hq
        obtain ⟨s, hs, rfl⟩ := List.mem_map.mp hq
        exact (hall s hs).2
      have hne : String.ofList (Text.join separator ((tag :: rest).map String.toList)) ≠ "" := by
        -- the first piece is not empty
        obtain ⟨x, p, hxp⟩ : ∃ x p, tag.toList = x :: p := by
          cases htag : tag.toList with
          | nil => exact absurd (String.toList_eq_nil_iff.mp htag) (hall tag List.mem_cons_self).1
          | cons x p => exact ⟨x, p, rfl⟩
        rw [List.map_cons, hxp, Text.join_cons_cons]
        intro hempty
        have := congrArg String.toList hempty
        simp at this
      rw [decode, if_neg hne, String.toList_ofList, List.map_cons, Text.split_join hpieces,
        ← List.map_cons, List.map_map]
      have hid : String.ofList ∘ String.toList = id := by
        funext s
        exact String.ofList_toList
      rw [hid, List.map_id]

end Tags

end MessageCache
