/-
# Scanning what was written

A written value is scanned as itself, whatever comes after it in the text:

    a string      each character stands for itself or is escaped, and an escape is
                  read as the one character it was written for
    an integer    its digits end where no digit, point or exponent follows; up to
                  sixty-four bits it is the same integer
    a value       the scanner needs two units of fuel for each character

So the compact text of a value is one document with nothing after it (`scan_print`), as
long as the integers in it fit into sixty-four bits (`Value.InRange`).
-/
import MessageCache.Json.Scan

namespace MessageCache.Json

/-! ## Integers -/

theorem le_ofDigitChars (ds : List Char) (m : Nat) : m ≤ Nat.ofDigitChars 10 ds m := by
  induction ds generalizing m with
  | nil => exact Nat.le_of_eq Nat.ofDigitChars_nil.symm
  | cons d ds ih =>
      rw [Nat.ofDigitChars_cons]
      have := ih (10 * m + (d.toNat - '0'.toNat))
      omega

theorem significandFrom_nil (n : Nat) : significandFrom n [] = (n, []) := rfl

theorem significandFrom_cons (n : Nat) (c : Char) (rest : List Char) :
    significandFrom n (c :: rest) =
      if InUInt64 (10 * n + Digits.value c : Nat) then significandFrom (10 * n + Digits.value c) rest
      else (n, c :: rest) := rfl

/-- Digits that fit into sixty-four bits are all taken. -/
theorem significandFrom_eq {ds : List Char} {m : Nat}
    (h : InUInt64 (Nat.ofDigitChars 10 ds m : Nat)) :
    significandFrom m ds = (Nat.ofDigitChars 10 ds m, []) := by
  induction ds generalizing m with
  | nil => rw [Nat.ofDigitChars_nil, significandFrom_nil]
  | cons d ds ih =>
      rw [Nat.ofDigitChars_cons] at h ⊢
      have hle := le_ofDigitChars ds (10 * m + (d.toNat - '0'.toNat))
      have hfits : InUInt64 (10 * m + Digits.value d : Nat) := by
        have hlt := h.2
        exact ⟨by omega, by unfold Digits.value; omega⟩
      rw [significandFrom_cons, if_pos hfits]
      exact ih h

/-- Only zero is written with a zero in front. -/
theorem head?_toDigits {n : Nat} (hn : 0 < n) : (Nat.toDigits 10 n).head? ≠ some '0' := by
  induction n using Nat.base_induction 10 (by decide) with
  | single m hm =>
      rw [Nat.toDigits_of_lt_base hm, List.head?_singleton, ne_eq, Option.some.injEq,
        Nat.digitChar_eq_zero]
      omega
  | digit m k hk hm ih =>
      obtain ⟨c, cs, hcs⟩ := List.exists_cons_of_ne_nil (Nat.toDigits_ne_nil (n := m) (b := 10))
      have hfirst := ih hm
      rw [← Nat.toDigits_append_toDigits (by decide) hm hk]
      rw [hcs] at hfirst ⊢
      exact hfirst

/-- What can follow an integer: nothing that would go on with it. -/
def EndsNumber (rest : List Char) : Prop :=
  ∀ c ∈ rest.head?, c.isDigit = false ∧ c ≠ '.' ∧ c ≠ 'e' ∧ c ≠ 'E'

theorem split_digits {ds rest : List Char} (hds : ∀ c ∈ ds, c.isDigit = true)
    (hrest : EndsNumber rest) : Digits.split (ds ++ rest) = (ds, rest) := by
  have hnone : rest.takeWhile Char.isDigit = [] ∧ rest.dropWhile Char.isDigit = rest := by
    cases rest with
    | nil => exact ⟨rfl, rfl⟩
    | cons c rest =>
        have hc := (hrest c rfl).1
        exact ⟨List.takeWhile_cons_of_neg (by simp [hc]), List.dropWhile_cons_of_neg (by simp [hc])⟩
  rw [Digits.split, List.takeWhile_append_of_pos hds, List.dropWhile_append_of_pos hds, hnone.1,
    hnone.2, List.append_nil]

theorem scanNumber_toDigits (negative : Bool) (n : Nat) {rest : List Char}
    (hrest : EndsNumber rest) :
    scanNumber negative (Nat.toDigits 10 n ++ rest) =
      (numberSource negative (Nat.toDigits 10 n) none none, some rest) := by
  have hds : ∀ c ∈ Nat.toDigits 10 n, c.isDigit = true :=
    fun c hc => Nat.isDigit_of_mem_toDigits (by decide) (by decide) hc
  have hwhole : ¬ (Nat.toDigits 10 n = [] ∨
      ((Nat.toDigits 10 n).head? = some '0' ∧ 1 < (Nat.toDigits 10 n).length)) := by
    rintro (hnil | ⟨hzero, hlong⟩)
    · exact Nat.toDigits_ne_nil hnil
    · rcases Nat.eq_zero_or_pos n with rfl | hn
      · rw [Nat.toDigits_zero] at hlong
        exact absurd hlong (by decide)
      · exact head?_toDigits hn hzero
  have hpart : scanFraction rest = some (none, rest) ∧
      Digits.exponent rest = some (none, rest) := by
    cases rest with
    | nil => exact ⟨rfl, rfl⟩
    | cons c rest =>
        obtain ⟨-, hpoint, he, hE⟩ := hrest c rfl
        constructor
        · rw [scanFraction]
          exact fun _ h => hpoint (List.cons.inj h).1
        · rw [Digits.exponent, if_neg (not_or.mpr ⟨he, hE⟩)]
  unfold scanNumber
  simp only [split_digits hds hrest, if_neg hwhole, hpart.1, hpart.2]

theorem numberSource_toDigits {n : Nat} (hn : InUInt64 n) (negative : Bool) :
    numberSource negative (Nat.toDigits 10 n) none none =
      if negative then
        if n ≠ 0 ∧ InInt64 (-(n : Int)) then .integer (-(n : Int))
        else .float (-n.toUInt64.toFloat)
      else .integer n := by
  have hdigits : significandFrom 0 (Nat.toDigits 10 n) = (n, []) := by
    rw [significandFrom_eq (by rwa [Nat.ofDigitChars_ten_toDigits]), Nat.ofDigitChars_ten_toDigits]
  unfold numberSource
  simp only [hdigits]

/-! ## Strings -/

theorem hexValue_hexDigit {d : Nat} (h : d < 16) : Text.hexValue (Text.hexDigit d) = some d :=
  (by decide : ∀ d < 16, Text.hexValue (Text.hexDigit d) = some d) d h

theorem scanString_no_unit {a b c d : Char} (h : codeUnit a b c d = none) (tail : List Char) :
    scanString ('\\' :: 'u' :: a :: b :: c :: d :: tail) = (none, none) := by
  by_cases htail : ∃ e f g h rest, tail = '\\' :: 'u' :: e :: f :: g :: h :: rest
  · obtain ⟨e, f, g, h', rest, rfl⟩ := htail
    rw [scanString.eq_3, h]
  · rw [scanString.eq_4 _ _ _ _ _ fun e f g h' rest heq => htail ⟨e, f, g, h', rest, heq⟩, h]

variable {tail rest cs : List Char}

/-- A code unit that stands alone is a character. -/
theorem scanString_unit {a b c d : Char} {unit : Nat} (hunit : codeUnit a b c d = some unit)
    (hhigh : isHighSurrogate unit = false) (hlow : isLowSurrogate unit = false)
    (htail : scanString tail = (some cs, some rest)) :
    scanString ('\\' :: 'u' :: a :: b :: c :: d :: tail) =
      (some (Char.ofNat unit :: cs), some rest) := by
  by_cases hnext : ∃ e f g h rest, tail = '\\' :: 'u' :: e :: f :: g :: h :: rest
  · -- the next escape is looked at too, and it has to be one
    obtain ⟨e, f, g, h, after, rfl⟩ := hnext
    cases hcode : codeUnit e f g h with
    | none =>
        rw [scanString_no_unit hcode] at htail
        cases htail
    | some low =>
        rw [scanString.eq_3, hunit, hcode, htail]
        simp [hhigh, hlow]
  · rw [scanString.eq_4 _ _ _ _ _ fun e f g h rest heq => hnext ⟨e, f, g, h, rest, heq⟩, hunit,
      htail]
    simp [hhigh, hlow]

theorem scanString_short {c e : Char} (hc : c ≠ 'u') (he : shortEscape c = some e)
    (htail : scanString tail = (some cs, some rest)) :
    scanString ('\\' :: c :: tail) = (some (e :: cs), some rest) := by
  rw [scanString.eq_5 _ _ (fun _ _ _ _ _ _ _ _ _ h => absurd h hc)
    (fun _ _ _ _ _ h => absurd h hc), he, htail]
  rfl

theorem scanString_escapedChar (c : Char) (htail : scanString tail = (some cs, some rest)) :
    scanString (escapedChar c ++ tail) = (some (c :: cs), some rest) := by
  unfold escapedChar
  split
  all_goals try exact scanString_short (by decide) rfl htail
  split
  · rename_i hcontrol
    have hunit : codeUnit '0' '0' (Text.hexDigit (c.toNat / 16)) (Text.hexDigit (c.toNat % 16)) =
        some c.toNat := by
      have hzero : Text.hexValue '0' = some 0 := rfl
      rw [codeUnit, hzero, hexValue_hexDigit (by omega), hexValue_hexDigit (by omega)]
      show some _ = some _
      rw [Option.some.injEq]
      omega
    have hhigh : isHighSurrogate c.toNat = false := by
      simp [isHighSurrogate]
      omega
    have hlow : isLowSurrogate c.toNat = false := by
      simp [isLowSurrogate]
      omega
    have hscan := scanString_unit hunit hhigh hlow htail
    rw [Char.ofNat_toNat] at hscan
    exact hscan
  · rename_i hquote hbackslash _ _ _ _ _ hplain
    have hsimple : ¬ (decide (c.toNat < 0x20) || decide (c = '\\')) = true := by
      rw [Bool.or_eq_true, decide_eq_true_eq, decide_eq_true_eq]
      exact not_or.mpr ⟨hplain, hbackslash⟩
    rw [List.singleton_append, scanString.eq_6 _ _ hquote
      (fun _ _ _ _ _ _ _ _ _ h => absurd h hbackslash)
      (fun _ _ _ _ _ h => absurd h hbackslash) (fun _ _ h => absurd h hbackslash),
      if_neg hsimple, htail]
    rfl

/-- A written string is read as it was. -/
theorem scanString_escaped (s : List Char) (rest : List Char) :
    scanString (s.flatMap escapedChar ++ '\"' :: rest) = (some s, some rest) := by
  induction s with
  | nil => rw [List.flatMap_nil, List.nil_append, scanString]
  | cons c s ih =>
      rw [List.flatMap_cons, List.append_assoc]
      exact scanString_escapedChar c ih

/-! ## Values -/

mutual

/-- All integers in the value fit into sixty-four bits, with or without a sign. -/
def Value.InRange : Value → Prop
  | .integer n => InInt64 n ∨ InUInt64 n
  | .array items => itemsInRange items
  | .object members => membersInRange members
  | _ => True

def itemsInRange : List Value → Prop
  | [] => True
  | v :: vs => v.InRange ∧ itemsInRange vs

def membersInRange : List (String × Value) → Prop
  | [] => True
  | (_, v) :: ms => v.InRange ∧ membersInRange ms

end

/-- A character that a value can begin with: it is no blank and closes nothing. -/
def BeginsValue (c : Char) : Prop := isBlank c = false ∧ c ≠ ']' ∧ c ≠ '}'

instance (c : Char) : Decidable (BeginsValue c) := by
  unfold BeginsValue
  infer_instance

theorem beginsValue_of_isDigit {c : Char} (h : c.isDigit = true) : BeginsValue c := by
  have hne : ∀ d : Char, d.isDigit = false → c ≠ d := by
    rintro d hd rfl
    cases h.symm.trans hd
  refine ⟨?_, hne _ (by decide), hne _ (by decide)⟩
  simp only [isBlank, Bool.or_eq_false_iff, decide_eq_false_iff_not]
  exact ⟨⟨⟨hne _ (by decide), hne _ (by decide)⟩, hne _ (by decide)⟩, hne _ (by decide)⟩

theorem exists_toDigits (n : Nat) : ∃ c cs, Nat.toDigits 10 n = c :: cs ∧ c.isDigit = true := by
  obtain ⟨c, cs, hcs⟩ := List.exists_cons_of_ne_nil (Nat.toDigits_ne_nil (n := n) (b := 10))
  refine ⟨c, cs, hcs, Nat.isDigit_of_mem_toDigits (by decide) (by decide) (n := n) (b := 10) ?_⟩
  rw [hcs]
  exact List.mem_cons_self

theorem Value.exists_chars (v : Value) : ∃ c cs, v.chars = c :: cs ∧ BeginsValue c := by
  cases v with
  | null => exact ⟨_, _, by rw [chars], by decide⟩
  | bool b => cases b <;> exact ⟨_, _, by rw [chars], by decide⟩
  | text s => exact ⟨_, _, by rw [chars, stringChars], by decide⟩
  | array items => cases items <;> exact ⟨_, _, by rw [chars], by decide⟩
  | object members =>
      rcases members with _ | ⟨⟨k, v⟩, ms⟩ <;> exact ⟨_, _, by rw [chars], by decide⟩
  | integer n =>
      cases n with
      | ofNat n =>
          obtain ⟨c, cs, hcs, hc⟩ := exists_toDigits n
          exact ⟨c, cs, by rw [chars, integerChars, hcs], beginsValue_of_isDigit hc⟩
      | negSucc n => exact ⟨_, _, by rw [chars, integerChars], by decide⟩

theorem skipBlanks_of_beginsValue {c : Char} (h : BeginsValue c) (cs : List Char) :
    skipBlanks (c :: cs) = c :: cs :=
  List.dropWhile_cons_of_neg (by simp [h.1])

section Steps

variable {v : Value} {fuel : Nat} {first : Bool} {rest tail : List Char}

theorem scanValue_text (s : String) :
    scanValue (fuel + 1) (stringChars s ++ rest) = (.text s, some rest) := by
  have hskip : skipBlanks (stringChars s ++ rest) =
      '\"' :: (s.toList.flatMap escapedChar ++ '\"' :: rest) := by
    rw [stringChars, List.cons_append, List.append_assoc, List.singleton_append]
    exact skipBlanks_of_beginsValue (by decide) _
  rw [scanValue, hskip]
  simp only [scanString_escaped, stringSource, String.ofList_toList]

theorem scanValue_digit {c : Char} (hc : c.isDigit = true) (cs : List Char) :
    scanValue (fuel + 1) (c :: cs) = scanNumber false (c :: cs) := by
  have hne : ∀ d : Char, d.isDigit = false → ∀ ds, c :: cs ≠ d :: ds := by
    rintro d hd ds h
    obtain rfl := (List.cons.inj h).1
    cases hc.symm.trans hd
  rw [scanValue, skipBlanks_of_beginsValue (beginsValue_of_isDigit hc)]
  split
  case h_8 c' rest _ _ _ _ _ _ _ h =>
    obtain ⟨rfl, rfl⟩ := List.cons.inj h
    rw [if_pos hc]
  case h_9 h => cases h
  all_goals
    rename_i h
    exact absurd h (hne _ (by decide) _)

theorem scanValue_integer {n : Int} (hn : InInt64 n ∨ InUInt64 n) (hrest : EndsNumber rest) :
    scanValue (fuel + 1) (integerChars n ++ rest) = (.integer n, some rest) := by
  cases n with
  | ofNat n =>
      have hrange : InUInt64 n := by
        rcases hn with ⟨hl, hu⟩ | hn
        · exact ⟨by omega, by simp only [Int.ofNat_eq_natCast] at hu; omega⟩
        · exact hn
      obtain ⟨c, cs, hcs, hc⟩ := exists_toDigits n
      have hscan := scanNumber_toDigits false n hrest
      rw [numberSource_toDigits hrange] at hscan
      rw [integerChars]
      rw [hcs, List.cons_append] at hscan ⊢
      rw [scanValue_digit hc]
      exact hscan
  | negSucc n =>
      have hneg : InInt64 (-((n + 1 : Nat) : Int)) := by
        rcases hn with ⟨hl, hu⟩ | ⟨hl, hu⟩
        · exact ⟨by omega, by omega⟩
        · omega
      have hrange : InUInt64 (n + 1 : Nat) := by
        obtain ⟨hl, hu⟩ := hneg
        exact ⟨by omega, by omega⟩
      have hscan := scanNumber_toDigits true (n + 1) hrest
      rw [numberSource_toDigits hrange, if_pos rfl, if_pos ⟨Nat.succ_ne_zero n, hneg⟩] at hscan
      rw [integerChars, List.cons_append, scanValue, skipBlanks_of_beginsValue (by decide)]
      exact hscan

/-- The item of an array that comes next, and what is scanned after it. -/
theorem scanItems_item {source : Source}
    (hv : scanValue fuel (v.chars ++ tail) = (source, some tail)) :
    scanItems (fuel + 1) first (v.chars ++ tail) =
      match skipBlanks tail with
      | ',' :: rest => (source :: (scanItems fuel false rest).1, (scanItems fuel false rest).2)
      | ']' :: rest => ([source], some rest)
      | _ => ([source, .broken], none) := by
  obtain ⟨c, cs, hcs, hc⟩ := v.exists_chars
  have hskip : skipBlanks (v.chars ++ tail) = v.chars ++ tail := by
    rw [hcs]
    exact skipBlanks_of_beginsValue hc _
  have hopen : ∀ rest, first = true → skipBlanks (v.chars ++ tail) = ']' :: rest → False := by
    intro rest _ h
    rw [hskip, hcs] at h
    exact hc.2.1 (List.cons.inj h).1
  rewrite [scanItems.eq_3 _ _ _ hopen, hskip, hv]
  rfl

/-- The member of an object that comes next, and what is scanned after it. -/
theorem scanMembers_member {source : Source} (k : String)
    (hv : scanValue (fuel + 1) (v.chars ++ tail) = (source, some tail)) :
    scanMembers (fuel + 2) first (stringChars k ++ ':' :: (v.chars ++ tail)) =
      match skipBlanks tail with
      | ',' :: rest =>
        ((.text k, source) :: (scanMembers (fuel + 1) false rest).1,
          (scanMembers (fuel + 1) false rest).2)
      | '}' :: rest => ([(.text k, source)], some rest)
      | _ => ([(.text k, source), (.broken, .broken)], none) := by
  have hskip : ∀ rest, skipBlanks (stringChars k ++ rest) = stringChars k ++ rest :=
    fun rest => skipBlanks_of_beginsValue (c := '\"') (by decide) _
  have hopen : ∀ rest, first = true →
      skipBlanks (stringChars k ++ ':' :: (v.chars ++ tail)) = '}' :: rest → False := by
    intro rest _ h
    rw [hskip, stringChars, List.cons_append] at h
    exact absurd (List.cons.inj h).1 (by decide)
  have hcolon : skipBlanks (':' :: (v.chars ++ tail)) = ':' :: (v.chars ++ tail) :=
    skipBlanks_of_beginsValue (by decide) _
  rewrite [scanMembers.eq_3 _ _ _ hopen, hskip, scanValue_text]
  simp only [hcolon, Source.isString]
  rewrite [hv]
  rfl

end Steps

theorem endsNumber_itemsChars (vs : List Value) (rest : List Char) :
    EndsNumber (itemsChars vs ++ rest) := by
  intro c hc
  cases vs with
  | nil =>
      obtain rfl : ']' = c := by simpa [itemsChars] using hc
      decide
  | cons v vs =>
      obtain rfl : ',' = c := by simpa [itemsChars] using hc
      decide

theorem endsNumber_membersChars (ms : List (String × Value)) (rest : List Char) :
    EndsNumber (membersChars ms ++ rest) := by
  intro c hc
  rcases ms with _ | ⟨⟨k, v⟩, ms⟩
  · obtain rfl : '}' = c := by simpa [membersChars] using hc
    decide
  · obtain rfl : ',' = c := by simpa [membersChars] using hc
    decide

theorem Value.exists_fuel {v : Value} {fuel : Nat} (h : 2 * v.chars.length ≤ fuel) :
    ∃ n, fuel = n + 2 := by
  obtain ⟨c, cs, hcs, -⟩ := v.exists_chars
  rw [hcs, List.length_cons] at h
  exact ⟨fuel - 2, by omega⟩

mutual

/-- A value is scanned as itself, and what follows it is left. -/
theorem scanValue_chars : ∀ (v : Value) {fuel : Nat} {rest : List Char}, v.InRange →
    2 * v.chars.length ≤ fuel → EndsNumber rest →
    scanValue fuel (v.chars ++ rest) = (.ofValue v, some rest)
  | .null, fuel, rest, _, hfuel, _ => by
      obtain ⟨fuel, rfl⟩ := Value.exists_fuel hfuel
      rfl
  | .bool b, fuel, rest, _, hfuel, _ => by
      obtain ⟨fuel, rfl⟩ := Value.exists_fuel hfuel
      cases b <;> rfl
  | .text s, fuel, rest, _, hfuel, _ => by
      obtain ⟨fuel, rfl⟩ := Value.exists_fuel hfuel
      exact scanValue_text s
  | .integer n, fuel, rest, hv, hfuel, hrest => by
      obtain ⟨fuel, rfl⟩ := Value.exists_fuel hfuel
      rw [Value.InRange] at hv
      exact scanValue_integer hv hrest
  | .array [], fuel, rest, _, hfuel, _ => by
      obtain ⟨fuel, rfl⟩ := Value.exists_fuel hfuel
      rfl
  | .array (v :: vs), fuel, rest, hv, hfuel, _ => by
      obtain ⟨fuel, rfl⟩ := Value.exists_fuel hfuel
      rw [Value.InRange, itemsInRange] at hv
      rw [Value.chars, List.length_cons, List.length_append] at hfuel
      have hitems : scanItems (fuel + 1) true (v.chars ++ (itemsChars vs ++ rest)) = _ :=
        scanItems_chars v vs hv.1 hv.2 (by omega)
      rw [Value.chars, List.cons_append, List.append_assoc, scanValue,
        skipBlanks_of_beginsValue (by decide)]
      simp only [hitems]
      rfl
  | .object [], fuel, rest, _, hfuel, _ => by
      obtain ⟨fuel, rfl⟩ := Value.exists_fuel hfuel
      rfl
  | .object ((k, v) :: ms), fuel, rest, hv, hfuel, _ => by
      obtain ⟨fuel, rfl⟩ := Value.exists_fuel hfuel
      rw [Value.InRange, membersInRange] at hv
      rw [Value.chars, List.length_cons, List.length_append, List.length_cons,
        List.length_append] at hfuel
      have hmembers : scanMembers (fuel + 1) true
          (stringChars k ++ ':' :: (v.chars ++ (membersChars ms ++ rest))) = _ :=
        scanMembers_chars k v ms hv.1 hv.2 (by omega)
      rw [Value.chars, List.cons_append, List.append_assoc, List.cons_append, List.append_assoc,
        scanValue, skipBlanks_of_beginsValue (by decide)]
      simp only [hmembers]
      rfl
termination_by v => sizeOf v

/-- Items are scanned as themselves, up to the closing bracket. -/
theorem scanItems_chars : ∀ (v : Value) (vs : List Value) {first : Bool} {fuel : Nat}
    {rest : List Char}, v.InRange → itemsInRange vs →
    2 * (v.chars.length + (itemsChars vs).length) < fuel →
    scanItems fuel first (v.chars ++ (itemsChars vs ++ rest)) =
      (.ofValue v :: Source.ofItems vs, some rest)
  | v, [], first, fuel, rest, hv, _, hfuel => by
      obtain ⟨fuel, rfl⟩ : ∃ n, fuel = n + 1 := ⟨fuel - 1, by omega⟩
      rw [scanItems_item (scanValue_chars v hv (by omega) (endsNumber_itemsChars [] rest))]
      rfl
  | v, v' :: vs, first, fuel, rest, hv, hvs, hfuel => by
      obtain ⟨fuel, rfl⟩ : ∃ n, fuel = n + 1 := ⟨fuel - 1, by omega⟩
      rw [itemsInRange] at hvs
      rw [scanItems_item (scanValue_chars v hv (by omega) (endsNumber_itemsChars (v' :: vs) rest))]
      rw [itemsChars, List.length_cons, List.length_append] at hfuel
      have hitems : scanItems fuel false (v'.chars ++ (itemsChars vs ++ rest)) = _ :=
        scanItems_chars v' vs hvs.1 hvs.2 (by omega)
      rw [itemsChars, List.cons_append, List.append_assoc, skipBlanks_of_beginsValue (by decide)]
      simp only [hitems, Source.ofItems]
termination_by v vs => sizeOf v + sizeOf vs

/-- Members are scanned as themselves, up to the closing brace. -/
theorem scanMembers_chars : ∀ (k : String) (v : Value) (ms : List (String × Value)) {first : Bool}
    {fuel : Nat} {rest : List Char}, v.InRange → membersInRange ms →
    2 * ((stringChars k).length + v.chars.length + (membersChars ms).length) < fuel →
    scanMembers fuel first (stringChars k ++ ':' :: (v.chars ++ (membersChars ms ++ rest))) =
      ((.text k, .ofValue v) :: Source.ofMembers ms, some rest)
  | k, v, [], first, fuel, rest, hv, _, hfuel => by
      have hkey : 0 < (stringChars k).length := Nat.succ_pos _
      obtain ⟨fuel, rfl⟩ : ∃ n, fuel = n + 2 := ⟨fuel - 2, by omega⟩
      rw [scanMembers_member k (scanValue_chars v hv (by omega) (endsNumber_membersChars [] rest))]
      rfl
  | k, v, (k', v') :: ms, first, fuel, rest, hv, hms, hfuel => by
      have hkey : 0 < (stringChars k).length := Nat.succ_pos _
      obtain ⟨fuel, rfl⟩ : ∃ n, fuel = n + 2 := ⟨fuel - 2, by omega⟩
      rw [membersInRange] at hms
      rw [scanMembers_member k
        (scanValue_chars v hv (by omega) (endsNumber_membersChars ((k', v') :: ms) rest))]
      rw [membersChars, List.length_cons, List.length_append, List.length_cons,
        List.length_append] at hfuel
      have hmembers : scanMembers (fuel + 1) false
          (stringChars k' ++ ':' :: (v'.chars ++ (membersChars ms ++ rest))) = _ :=
        scanMembers_chars k' v' ms hms.1 hms.2 (by omega)
      rw [membersChars, List.cons_append, List.append_assoc, List.cons_append, List.append_assoc,
        skipBlanks_of_beginsValue (by decide)]
      simp only [hmembers, Source.ofMembers]
termination_by _ v ms => sizeOf v + sizeOf ms

end

/-- A written value is one document, and nothing else. -/
theorem scan_print {v : Value} (hv : v.InRange) :
    scan v.print = { root := .ofValue v, complete := true } := by
  have hends : EndsNumber [] := fun c hc => nomatch hc
  have hvalue : scanValue (2 * v.chars.length + 2) (v.chars ++ []) = (.ofValue v, some []) :=
    scanValue_chars v hv (by omega) hends
  rw [List.append_nil] at hvalue
  rw [scan, Value.print, String.toList_ofList, scanChars, hvalue]
  rfl

end MessageCache.Json
