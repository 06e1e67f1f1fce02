/-
# Timeouts that stop the program

The timeout of a configuration is read as a number of sixty-four bits, and the connection
takes one of thirty-one.  What lies between them passes the reader without a warning:

    what the variable says                         timeout            opening a cache
    ─────────────────────────────────────────────────────────────────────────────────
    nothing, no text, or no number of 64 bits      the default        opens or fails
    a number up to 2147483647                      that number        opens or fails
    a greater number of sixty-four bits            that number        halts once connected

So a configuration from the environment is safe to open unless the variable asks for more
than a connection takes (`halts_iff`), and then nothing but a failure before the connection
is made keeps the program from halting.
-/
import MessageCache.Opening
import MessageCache.Proofs.Json.Scan

namespace MessageCache

/-! ## Numbers in variables -/

namespace Config

/-- The text is this number of sixty-four bits: digits, after at most one plus sign. -/
def Spells (value : String) (ms : Nat) : Prop :=
  ∃ ds, ds ≠ [] ∧ (value.toList = ds ∨ value.toList = '+' :: ds) ∧
    (∀ c ∈ ds, c.isDigit = true) ∧ ms = Nat.ofDigitChars 10 ds 0 ∧ InUInt64 ms

/-- The environment asks for this timeout. -/
def AsksFor (env : Environment) (ms : Nat) : Prop :=
  ∃ value, text? env busyTimeoutVariable = some value ∧ Spells value ms

/-- Digits are read as the number that they are, if it fits into sixty-four bits, by
induction on the digits: a number that has left the range does not come back. -/
theorem readDigits_eq_ok {cs : List Char} {n m : Nat} (hn : InUInt64 n) :
    readDigits n cs = .ok m ↔
      (∀ c ∈ cs, c.isDigit = true) ∧ m = Nat.ofDigitChars 10 cs n ∧ InUInt64 m := by
  induction cs generalizing n with
  | nil =>
      rw [readDigits, Nat.ofDigitChars_nil, Except.ok.injEq]
      constructor
      · rintro rfl
        exact ⟨fun c hc => (nomatch hc), rfl, hn⟩
      · exact fun h => h.2.1.symm
  | cons c rest ih =>
      rw [readDigits, Nat.ofDigitChars_cons, List.forall_mem_cons]
      by_cases hc : c.isDigit = true
      · have hvalue : c.toNat - '0'.toNat = Digits.value c := rfl
        simp only [hc, Bool.not_true, Bool.false_eq_true, if_false, true_and, hvalue]
        by_cases hfits : InUInt64 (10 * n + Digits.value c : Nat)
        · rw [if_pos hfits]
          exact ih hfits
        · rw [if_neg hfits]
          refine iff_of_false (fun h => nomatch h) ?_
          rintro ⟨-, rfl, hrange⟩
          have hle := Json.le_ofDigitChars rest (10 * n + Digits.value c)
          have hlt := hrange.2
          exact hfits ⟨by omega, by omega⟩
      · rw [if_pos (by simp [hc])]
        exact iff_of_false (fun h => (nomatch h)) fun h => hc h.1.1

theorem readNumber_eq_ok {value : String} {ms : Nat} :
    readNumber value = .ok ms ↔ Spells value ms := by
  have hdigits (ds : List Char) : readDigits 0 ds = .ok ms ↔
      (∀ c ∈ ds, c.isDigit = true) ∧ ms = Nat.ofDigitChars 10 ds 0 ∧ InUInt64 ms :=
    readDigits_eq_ok (by decide)
  unfold readNumber
  constructor
  · intro h
    split at h
    · cases h
    · cases h
    · rename_i rest hrest hvalue
      obtain ⟨hall, hms, hrange⟩ := (hdigits rest).mp h
      exact ⟨rest, hrest, .inr hvalue, hall, hms, hrange⟩
    · rename_i hne hplus hvalue
      obtain ⟨hall, hms, hrange⟩ := (hdigits _).mp h
      exact ⟨_, hne, .inl rfl, hall, hms, hrange⟩
  · rintro ⟨ds, hne, hvalue | hvalue, hall, hms, hrange⟩
    · have hsign : '+' ∉ ds := fun hmem => absurd (hall '+' hmem) (by decide)
      split
      · rename_i hnil
        exact absurd (hvalue.symm.trans hnil) hne
      · rename_i hplus
        obtain rfl := hvalue.symm.trans hplus
        exact absurd List.mem_cons_self hsign
      · rename_i hplus
        obtain rfl := hvalue.symm.trans hplus
        exact absurd List.mem_cons_self hsign
      · rw [hvalue]
        exact (hdigits ds).mpr ⟨hall, hms, hrange⟩
    · obtain ⟨c, rest, rfl⟩ := List.exists_cons_of_ne_nil hne
      rw [hvalue]
      exact (hdigits _).mpr ⟨hall, hms, hrange⟩

theorem busyTimeout_of_asksFor {env : Environment} {ms : Nat} (h : AsksFor env ms) :
    busyTimeoutOf env = (ms, []) := by
  obtain ⟨value, hvalue, hspells⟩ := h
  unfold busyTimeoutOf
  rw [hvalue]
  simp only [readNumber_eq_ok.mpr hspells]

theorem busyTimeout_of_not_asksFor {env : Environment} (h : ∀ ms, ¬ AsksFor env ms) :
    (busyTimeoutOf env).1 = default.busyTimeout := by
  unfold busyTimeoutOf
  cases hvalue : text? env busyTimeoutVariable with
  | none => rfl
  | some value =>
      cases hread : readNumber value with
      | ok ms => exact absurd ⟨value, hvalue, readNumber_eq_ok.mp hread⟩ (h ms)
      | error fault => simp only [hread]

/-- A timeout that is too long was asked for, since the default is not. -/
theorem longestTimeout_lt_iff (env : Environment) :
    longestTimeout < (ofEnvironment env).1.busyTimeout ↔
      ∃ ms, AsksFor env ms ∧ longestTimeout < ms := by
  show longestTimeout < (busyTimeoutOf env).1 ↔ _
  constructor
  · intro h
    by_cases hasks : ∃ ms, AsksFor env ms
    · obtain ⟨ms, hasks⟩ := hasks
      rw [busyTimeout_of_asksFor hasks] at h
      exact ⟨ms, hasks, h⟩
    · rw [busyTimeout_of_not_asksFor (not_exists.mp hasks)] at h
      exact absurd h (by decide)
  · rintro ⟨ms, hasks, hlong⟩
    rw [busyTimeout_of_asksFor hasks]
    exact hlong

end Config

/-! ## Opening -/

/-- The directories of a file are made, and then a connection to it. -/
def Storage.Connects (s : Storage) (file : String) : Prop :=
  ∃ disk r, s.files.disk.makeDirectories (Route.ofBytes (Utf8.bytes file)).parent =
      (disk, .ok ()) ∧
    Channel.connect { s with files := { s.files with disk } } file = .ok r

namespace Opening

variable {s : Storage} {c : Channel} {log : List LogEvent} {config : Config}

theorem ofUpgrade_not_halted : (ofUpgrade s c log).outcome ≠ .halted := by
  unfold ofUpgrade failure
  simp only
  split <;> exact fun h => nomatch h

theorem ofWalRequest_not_halted : (ofWalRequest s c log).outcome ≠ .halted := by
  unfold ofWalRequest failure
  split
  · exact fun h => nomatch h
  · exact ofUpgrade_not_halted

theorem ofConnection_halted :
    (ofConnection config s c log).outcome = .halted ↔ longestTimeout < config.busyTimeout := by
  unfold ofConnection
  split
  · rename_i hlong
    exact iff_of_true rfl hlong
  · rename_i hlong
    split
    · exact iff_of_false ofWalRequest_not_halted hlong
    · exact iff_of_false ofUpgrade_not_halted hlong

end Opening

/-- Opening halts where the connection is made and does not take the timeout. -/
theorem openCache_halted {s : Storage} {config : Config} :
    (openCache s config).outcome = .halted ↔
      longestTimeout < config.busyTimeout ∧ s.Connects config.cacheFile := by
  unfold openCache Storage.Connects
  simp only
  rcases s.files.disk.makeDirectories (Route.ofBytes (Utf8.bytes config.cacheFile)).parent with
    ⟨disk, fault | -⟩
  · refine iff_of_false (fun h => nomatch h) ?_
    rintro ⟨-, _, _, hmade, -⟩
    cases hmade
  · simp only
    cases hconnect : Channel.connect { s with files := { s.files with disk } } config.cacheFile with
    | error fault =>
        refine iff_of_false (fun h => nomatch h) ?_
        rintro ⟨-, _, _, hmade, hok⟩
        cases hmade
        cases hconnect.symm.trans hok
    | ok r =>
        refine Opening.ofConnection_halted.trans ⟨fun h => ⟨h, disk, r, rfl, hconnect⟩, And.left⟩

/-- The timeout of an environment is one that a connection takes unless the environment asks
for a longer one, and then opening the cache halts as soon as there is a connection. -/
theorem halts_iff (env : Config.Environment) :
    ((Config.ofEnvironment env).1.busyTimeout ≤ longestTimeout ↔
        ∀ ms, Config.AsksFor env ms → ms ≤ longestTimeout) ∧
      ∀ s, (openCache s (Config.ofEnvironment env).1).outcome = .halted ↔
        (∃ ms, Config.AsksFor env ms ∧ longestTimeout < ms) ∧
          s.Connects (Config.ofEnvironment env).1.cacheFile := by
  have hlong := Config.longestTimeout_lt_iff env
  constructor
  · rw [← Nat.not_lt, hlong]
    simp only [not_exists, not_and, Nat.not_lt]
  · intro s
    rw [openCache_halted, hlong]

/-- An environment that asks for the least timeout that is too long. -/
def longWait : Config.Environment := fun name =>
  if name = Config.busyTimeoutVariable then some (Utf8.bytes "2147483648") else none

/-- Nothing is said of the value, and opening a new cache halts. -/
theorem halts_longWait :
    Config.ofEnvironment longWait =
        ({ Config.default with busyTimeout := longestTimeout + 1 }, []) ∧
      (openCache .empty (Config.ofEnvironment longWait).1).outcome = .halted ∧
      ¬ ∀ env, (Config.ofEnvironment env).1.busyTimeout ≤ longestTimeout ∧
        ∀ s, (openCache s (Config.ofEnvironment env).1).outcome ≠ .halted := by
  have hread : Config.text? longWait Config.busyTimeoutVariable = some "2147483648" := by
    unfold Config.text? longWait
    rw [if_pos rfl, Option.bind_some, Utf8.read_bytes]
    rfl
  have henv : Config.ofEnvironment longWait =
      ({ Config.default with busyTimeout := longestTimeout + 1 }, []) := by
    unfold Config.ofEnvironment Config.busyTimeoutOf
    rw [hread]
    rfl
  have hhalts : (openCache .empty (Config.ofEnvironment longWait).1).outcome = .halted := by
    rw [henv, openCache_halted]
    exact ⟨by decide, _, _, rfl, rfl⟩
  exact ⟨henv, hhalts, fun h => (h longWait).2 .empty hhalts⟩

end MessageCache
