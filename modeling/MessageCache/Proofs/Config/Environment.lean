/-
# Environments that are followed

Each setting has a variable of its own and is read from it alone.  A value that cannot be used
should leave the setting at its default, and one warning should name the variable.  What
becomes of such values:

    variable      value                              setting          warning
    ──────────────────────────────────────────────────────────────────────────────
    the file      the empty text                     the default      none, none is due
    the timeout   text, but no number of 64 bits     the default      one
    the switch    "0"                                off              none
    the switch    any other but "true", "false"      on               none
    each          bytes that are no text             the default      none

Where a warning is due, only the timeout gives it.  Any text but two switches write-ahead
logging on, and bytes that are no text count as not set before a setting is read from them.
So an environment is followed iff the file and the timeout are texts, where they are set, and
the switch is "true" or "false" (`followsEnvironment_iff`).
-/
import Mathlib.Data.List.Infix
import MessageCache.Proofs.Config.Timeout
import MessageCache.Proofs.Store.Decode

namespace MessageCache.Config

/-! ## What should become of a variable -/

/-- The event has the name of a variable in its text. -/
def Names (name : String) (e : LogEvent) : Prop := name.toList <:+: e.message.toList

instance (name : String) (e : LogEvent) : Decidable (Names name e) := by
  unfold Names
  infer_instance

/-- The warnings about an environment that name a variable. -/
def warningsNaming (env : Environment) (name : String) : List LogEvent :=
  (ofEnvironment env).2.filter fun e => e.level = .warn ∧ Names name e

/-- The timeout that a value asks for. -/
def IsTimeout (value : Bytes) (ms : Nat) : Prop := ∃ s, value = Utf8.bytes s ∧ Spells s ms

/-- What a value says about write-ahead logging. -/
def IsSwitch (value : Bytes) (on : Bool) : Prop :=
  value = Utf8.bytes "true" ∧ on = true ∨ value = Utf8.bytes "false" ∧ on = false

section Following

variable {α : Type} (env : Environment)

/-- The setting hangs on one variable and on no other. -/
def HangsOn (name : String) (setting : Config → α) : Prop :=
  ∀ other : Environment, other name = env name →
    setting (ofEnvironment other).1 = setting (ofEnvironment env).1

/-- The setting is what its variable asks for, and its default where it asks for nothing that
can be used, with a warning if there is a value and none otherwise. -/
structure FollowsVariable (name : String) (setting : Config → α) (asks : Bytes → α → Prop) :
    Prop where
  own : HangsOn env name setting
  unset : env name = none →
    setting (ofEnvironment env).1 = setting default ∧ warningsNaming env name = []
  used : ∀ value a, env name = some value → asks value a →
    setting (ofEnvironment env).1 = a ∧ warningsNaming env name = []
  ignored : ∀ value, env name = some value → (∀ a, ¬ asks value a) →
    setting (ofEnvironment env).1 = setting default ∧ (warningsNaming env name).length = 1

/-- The file is the value of its variable, unless that is empty or not set. -/
structure FollowsFile : Prop where
  own : HangsOn env cacheFileVariable (·.cacheFile)
  unset : env cacheFileVariable = none ∨ env cacheFileVariable = some [] →
    (ofEnvironment env).1.cacheFile = default.cacheFile
  used : ∀ value, env cacheFileVariable = some value → value ≠ [] →
    Utf8.bytes (ofEnvironment env).1.cacheFile = value

/-- All settings follow their variables, and there are no other warnings. -/
structure FollowsEnvironment : Prop where
  cacheFile : FollowsFile env
  busyTimeout : FollowsVariable env busyTimeoutVariable (·.busyTimeout) IsTimeout
  wal : FollowsVariable env walVariable (·.wal) IsSwitch
  warnings : ∀ e ∈ (ofEnvironment env).2, e.level = .warn →
    Names busyTimeoutVariable e ∨ Names walVariable e

/-- The variable holds a text, if it is set. -/
def HoldsText (name : String) : Prop := ∀ value, env name = some value → ∃ s, value = Utf8.bytes s

/-- The environment without the variables that hold no text. -/
def Environment.texts : Environment := fun name => (text? env name).map Utf8.bytes

end Following

/-! ## Variables as texts -/

section Texts

variable {env other : Environment} {name : String}

theorem text?_eq_some {s : String} : text? env name = some s ↔ env name = some (Utf8.bytes s) := by
  unfold text?
  cases env name with
  | none => exact iff_of_false nofun nofun
  | some value =>
      rw [Option.bind_some, Option.some.injEq, ← Utf8.read_eq_ok]
      cases Utf8.read value <;> simp [Except.toOption]

theorem text?_of_none (h : env name = none) : text? env name = none := by
  rw [text?, h, Option.bind_none]

theorem text?_of_eq (h : other name = env name) : text? other name = text? env name := by
  rw [text?, text?, h]

theorem text?_texts (env : Environment) (name : String) : text? env.texts name = text? env name := by
  cases htext : text? env name with
  | none => rw [text?, Environment.texts, htext, Option.map_none, Option.bind_none]
  | some s => rw [text?_eq_some, Environment.texts, htext, Option.map_some]

/-- A variable that holds no text is not set. -/
theorem ofEnvironment_texts (env : Environment) : ofEnvironment env.texts = ofEnvironment env := by
  unfold ofEnvironment busyTimeoutOf cacheFileOf walOf
  simp only [text?_texts]

end Texts

/-! ## The warnings -/

section Warnings

variable {env : Environment}

theorem names_invalidTimeout (value error : String) :
    Names busyTimeoutVariable (.invalidTimeout value error) := by
  show busyTimeoutVariable.toList <:+: "Invalid HERALD_CACHE_BUSY_TIMEOUT_MS, using default".toList
  decide +kernel

theorem not_names_invalidTimeout (value error : String) :
    ¬ Names walVariable (.invalidTimeout value error) := by
  show ¬ walVariable.toList <:+: "Invalid HERALD_CACHE_BUSY_TIMEOUT_MS, using default".toList
  decide +kernel

/-- The timeout is not asked for, or it is read, or the value is warned of. -/
theorem busyTimeoutOf_cases (env : Environment) :
    text? env busyTimeoutVariable = none ∧ busyTimeoutOf env = (default.busyTimeout, []) ∨
      (∃ ms, AsksFor env ms ∧ busyTimeoutOf env = (ms, [])) ∨
      ∃ value error, text? env busyTimeoutVariable = some value ∧ (∀ ms, ¬ Spells value ms) ∧
        busyTimeoutOf env = (default.busyTimeout, [.invalidTimeout value error]) := by
  unfold busyTimeoutOf
  cases hvalue : text? env busyTimeoutVariable with
  | none => exact .inl ⟨rfl, rfl⟩
  | some value =>
      cases hread : readNumber value with
      | ok ms =>
          exact .inr (.inl ⟨ms, ⟨value, hvalue, readNumber_eq_ok.mp hread⟩, by simp only [hread]⟩)
      | error fault =>
          refine .inr (.inr ⟨value, fault.message, rfl, ?_, by simp only [hread]⟩)
          intro ms hms
          cases hread.symm.trans (readNumber_eq_ok.mpr hms)

/-- Every warning is about the timeout. -/
theorem exists_invalidTimeout {e : LogEvent} (he : e ∈ (ofEnvironment env).2) :
    ∃ value error, e = .invalidTimeout value error := by
  have he : e ∈ (busyTimeoutOf env).2 := he
  rcases busyTimeoutOf_cases env with ⟨-, h⟩ | ⟨ms, -, h⟩ | ⟨value, error, -, -, h⟩
  · rw [h] at he
    cases he
  · rw [h] at he
    cases he
  · rw [h] at he
    exact ⟨value, error, List.mem_singleton.mp he⟩

theorem warningsNaming_wal (env : Environment) : warningsNaming env walVariable = [] := by
  rw [warningsNaming, List.filter_eq_nil_iff]
  intro e he
  obtain ⟨value, error, rfl⟩ := exists_invalidTimeout he
  simp [not_names_invalidTimeout]

theorem warningsNaming_busyTimeout (env : Environment) :
    warningsNaming env busyTimeoutVariable = (busyTimeoutOf env).2 := by
  rw [warningsNaming]
  refine List.filter_eq_self.mpr fun e he => ?_
  obtain ⟨value, error, rfl⟩ := exists_invalidTimeout he
  exact decide_eq_true ⟨rfl, names_invalidTimeout value error⟩

end Warnings

/-! ## Each variable -/

section Variables

variable {env : Environment}

/-- A variable that is followed without a warning asks for something, if it is set. -/
theorem FollowsVariable.exists_asks {α : Type} {name : String} {setting : Config → α}
    {asks : Bytes → α → Prop} (h : FollowsVariable env name setting asks)
    (hsilent : warningsNaming env name = []) {value : Bytes} (hvalue : env name = some value) :
    ∃ a, asks value a := by
  by_cases hasks : ∃ a, asks value a
  · exact hasks
  · have hone := (h.ignored value hvalue (not_exists.mp hasks)).2
    rw [hsilent] at hone
    cases hone

theorem cacheFile_of_text {s : String} (h : text? env cacheFileVariable = some s) (hs : s ≠ "") :
    (ofEnvironment env).1.cacheFile = s := by
  show cacheFileOf env = s
  rw [cacheFileOf, h]
  exact if_neg hs

theorem followsFile_iff : FollowsFile env ↔ HoldsText env cacheFileVariable := by
  constructor
  · intro h value hvalue
    by_cases hempty : value = []
    · exact ⟨"", hempty⟩
    · exact ⟨_, (h.used value hvalue hempty).symm⟩
  · intro htext
    constructor
    case own =>
      intro other hother
      show cacheFileOf other = cacheFileOf env
      unfold cacheFileOf
      rw [text?_of_eq hother]
    case unset =>
      show _ → cacheFileOf env = defaultCacheFile
      unfold cacheFileOf
      rintro (hnone | hempty)
      · rw [text?_of_none hnone]
      · have htext : text? env cacheFileVariable = some "" := text?_eq_some.mpr hempty
        rw [htext]
        rfl
    case used =>
      intro value hvalue hne
      obtain ⟨s, rfl⟩ := htext value hvalue
      have hs : s ≠ "" := by
        rintro rfl
        exact hne rfl
      rw [cacheFile_of_text (text?_eq_some.mpr hvalue) hs]

theorem followsTimeout_iff : FollowsVariable env busyTimeoutVariable (·.busyTimeout) IsTimeout ↔
    HoldsText env busyTimeoutVariable := by
  constructor
  · intro h value hvalue
    cases htext : text? env busyTimeoutVariable with
    | some s =>
        rw [text?_eq_some, hvalue, Option.some.injEq] at htext
        exact ⟨s, htext⟩
    | none =>
        -- the value is not seen, so nothing is said of it
        have hsilent : warningsNaming env busyTimeoutVariable = [] := by
          rw [warningsNaming_busyTimeout, busyTimeoutOf, htext]
        obtain ⟨ms, s, hs, -⟩ := h.exists_asks hsilent hvalue
        exact ⟨s, hs⟩
  · intro htext
    constructor
    case own =>
      intro other hother
      show (busyTimeoutOf other).1 = (busyTimeoutOf env).1
      unfold busyTimeoutOf
      rw [text?_of_eq hother]
    case unset =>
      intro hnone
      rw [warningsNaming_busyTimeout]
      show (busyTimeoutOf env).1 = _ ∧ _
      rw [busyTimeoutOf, text?_of_none hnone]
      exact ⟨rfl, rfl⟩
    case used =>
      rintro _ ms hvalue ⟨s, rfl, hspells⟩
      rw [warningsNaming_busyTimeout]
      show (busyTimeoutOf env).1 = _ ∧ _
      rw [busyTimeout_of_asksFor ⟨s, text?_eq_some.mpr hvalue, hspells⟩]
      exact ⟨rfl, rfl⟩
    case ignored =>
      intro value hvalue hnot
      obtain ⟨s, rfl⟩ := htext value hvalue
      have hs := text?_eq_some.mpr hvalue
      rw [warningsNaming_busyTimeout]
      show (busyTimeoutOf env).1 = _ ∧ _
      rcases busyTimeoutOf_cases env with ⟨hnone, -⟩ | ⟨ms, ⟨s', hs', hms⟩, -⟩ | ⟨_, _, -, -, h⟩
      · cases hs.symm.trans hnone
      · obtain rfl := Option.some.inj (hs.symm.trans hs')
        exact absurd ⟨s, rfl, hms⟩ (hnot ms)
      · rw [h]
        exact ⟨rfl, rfl⟩

/-- The switch is followed where it is "true", "false" or not set.  Of any other value nothing
is said. -/
theorem followsWal_iff : FollowsVariable env walVariable (·.wal) IsSwitch ↔
    env walVariable = none ∨ env walVariable = some (Utf8.bytes "true") ∨
      env walVariable = some (Utf8.bytes "false") := by
  constructor
  · intro h
    cases hvalue : env walVariable with
    | none => exact .inl rfl
    | some value =>
        obtain ⟨_, ⟨rfl, -⟩ | ⟨rfl, -⟩⟩ := h.exists_asks (warningsNaming_wal env) hvalue
        · exact .inr (.inl rfl)
        · exact .inr (.inr rfl)
  · intro h
    constructor
    case own =>
      intro other hother
      show walOf other = walOf env
      unfold walOf
      rw [text?_of_eq hother]
    case unset =>
      intro hnone
      refine ⟨?_, warningsNaming_wal env⟩
      show walOf env = default.wal
      rw [walOf, text?_of_none hnone]
    case used =>
      intro value on hvalue hasks
      refine ⟨?_, warningsNaming_wal env⟩
      show walOf env = on
      obtain ⟨rfl, rfl⟩ | ⟨rfl, rfl⟩ := hasks
      · rw [walOf, text?_eq_some.mpr hvalue]
        rfl
      · rw [walOf, text?_eq_some.mpr hvalue]
        rfl
    case ignored =>
      intro value hvalue hnot
      rw [hvalue] at h
      obtain h | h | h := h
      · cases h
      · exact absurd (.inl ⟨Option.some.inj h, rfl⟩) (hnot true)
      · exact absurd (.inr ⟨Option.some.inj h, rfl⟩) (hnot false)

end Variables

/-- An environment is followed iff the file and the timeout are texts, where they are set, and
the switch is "true" or "false", where it is.  What is no text counts as not set. -/
theorem followsEnvironment_iff (env : Environment) :
    (FollowsEnvironment env ↔
        HoldsText env cacheFileVariable ∧ HoldsText env busyTimeoutVariable ∧
          (env walVariable = none ∨ env walVariable = some (Utf8.bytes "true") ∨
            env walVariable = some (Utf8.bytes "false"))) ∧
      ofEnvironment env.texts = ofEnvironment env := by
  refine ⟨?_, ofEnvironment_texts env⟩
  rw [← followsFile_iff, ← followsTimeout_iff, ← followsWal_iff]
  constructor
  · exact fun h => ⟨h.cacheFile, h.busyTimeout, h.wal⟩
  · rintro ⟨hfile, htimeout, hwal⟩
    refine ⟨hfile, htimeout, hwal, fun e he _ => .inl ?_⟩
    obtain ⟨value, error, rfl⟩ := exists_invalidTimeout he
    exact names_invalidTimeout value error

/-- An environment that switches write-ahead logging off in another word. -/
def otherWord : Environment := fun name =>
  if name = walVariable then some (Utf8.bytes "off") else none

/-- It stays on, and nothing is said of the word. -/
theorem not_followsEnvironment_otherWord :
    ofEnvironment otherWord = (default, []) ∧ ¬ FollowsEnvironment otherWord := by
  have hvalue : otherWord walVariable = some (Utf8.bytes "off") := if_pos rfl
  constructor
  · unfold ofEnvironment busyTimeoutOf cacheFileOf walOf
    rw [text?_eq_some.mpr hvalue]
    rfl
  · intro h
    have hwal := followsWal_iff.mp h.wal
    rw [hvalue] at hwal
    revert hwal
    decide +kernel

end MessageCache.Config
