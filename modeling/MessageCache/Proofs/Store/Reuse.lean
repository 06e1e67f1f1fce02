/-
# Whether a sweep publishes a message before its time

A message that is not due to any sweeper is on no list that is made while it is there.  But
a list may be older than the message: it has the id of an earlier one, which another sweeper
has marked and a pruning has removed.  When the new message comes the id is on the list
already, and the late mark publishes it before its time (`not_staysScheduled_reused`).

    a sweeper marks the id that was on its list before    ⟹   no longer scheduled
    none does                                              ⟹   scheduled, whatever is called

So the message stays scheduled iff no sweeper marks its id that had it on its list when the
message came (`staysScheduled_iff`).
-/
import MessageCache.Proofs.Store.Sweep

namespace MessageCache

namespace Sweeps

section Runs

variable {ι : Type} [DecidableEq ι] {now : ι → Int64} {s t u : System ι} {e : Event ι}
  {events : List (Event ι)} {m : Message}

/-- The message is there and scheduled before the calls and after each of them. -/
def StaysScheduled (s : System ι) (events : List (Event ι)) (m : Message) : Prop :=
  ∀ first, first <+: events →
    Store.Stored (Store.run s.db (first.map (·.call))).2 m .scheduled

/-- A call that does not mark the id of a message that is not due puts it on no list, and
takes it off none. -/
theorem Step.mem_left_iff (h : Step now s e t) (hs : s.Sound)
    (hm : Store.Stored s.db m .scheduled) (hnow : ∀ i, now i < m.time)
    (hother : e.call ≠ .mark m.id) (i : ι) :
    m.id ∈ (t.sweeper i).left ↔ m.id ∈ (s.sweeper i).left := by
  cases h with
  | @ask j hj =>
      show m.id ∈ (Function.update s.sweeper j _ i).left ↔ _
      by_cases hij : i = j
      · subst hij
        obtain ⟨es, hes⟩ := hs.represents
        obtain ⟨left, htold, -, hmem⟩ := hes.told_due (now i)
        rw [Function.update_self, htold, hj]
        refine iff_of_false ?_ List.not_mem_nil
        intro hid
        obtain ⟨m', hm', htime, hid⟩ := (hmem m.id).mp hid
        obtain ⟨rfl, -⟩ := hes.lifeCycle.unique _ _ _ _ hm' hm hid
        exact absurd (hnow i) (Int64.not_lt.mpr htime)
      · rw [Function.update_of_ne hij]
  | @mark j id rest hj =>
      show m.id ∈ (Function.update s.sweeper j _ i).left ↔ _
      by_cases hij : i = j
      · subst hij
        have hne : m.id ≠ id := fun hid => hother (by rw [hid])
        rw [Function.update_self, hj]
        simp [Sweeper.left, hne]
      · rw [Function.update_of_ne hij]
  | other _ => exact Iff.rfl

theorem Step.stored_of_ne_mark (h : Step now s e t) (hs : s.Sound)
    (hm : Store.Stored s.db m .scheduled) (hother : e.call ≠ .mark m.id) :
    Store.Stored t.db m .scheduled := by
  obtain ⟨es, hes⟩ := hs.represents
  have hkept := (hes.transition e.call).kept m .scheduled hm
  rw [h.run_eq] at hkept
  rcases hkept with hsame | ⟨-, hmark, -⟩ | ⟨hstate, -⟩
  · exact hsame
  · exact absurd hmark hother
  · cases hstate

/-- A marked message is no longer scheduled. -/
theorem Step.not_stored_of_mark (h : Step now s e t) (hs : s.Sound)
    (hm : Store.Stored s.db m .scheduled) (hmark : e.call = .mark m.id) :
    ¬ Store.Stored t.db m .scheduled := by
  intro hstill
  obtain ⟨es, hes⟩ := hs.represents
  have hpublished := ((hes.transition e.call).marked m.id hmark).2.1 m .scheduled hm rfl
  obtain ⟨es', hes'⟩ := (h.sound hs).represents
  rw [h.run_eq] at hpublished
  cases (hes'.lifeCycle.unique _ _ _ _ hpublished hstill rfl).2

/-- A sweeper that marks an id has it on its list no longer, then or later. -/
theorem Step.notMem_left_of_mark {id : String} (h : Step now s e t) (hs : s.Sound)
    (hmark : e.call = .mark id) (hrun : Run now t events u) :
    ∃ i, id ∈ (s.sweeper i).left ∧ id ∉ (u.sweeper i).left := by
  obtain ⟨i, hi⟩ := h.actor_eq.1 id hmark
  obtain ⟨actor, call, answer⟩ := e
  obtain rfl : actor = .sweeper i := hi
  obtain rfl : call = .mark id := hmark
  refine ⟨i, ?_⟩
  cases h with
  | @mark _ _ rest hleft =>
      have hnodup := hs.nodup i
      rw [hleft] at hnodup ⊢
      refine ⟨List.mem_cons_self, ?_⟩
      obtain ⟨later, hlater, hsplit⟩ := hrun.left (i := i) (Function.update_self ..)
      rw [hlater]
      intro hid
      refine (List.nodup_cons.mp hnodup).1 ?_
      rw [hsplit]
      exact List.mem_append_right _ hid

/-- A message whose time has come for no sweeper stays scheduled iff no sweeper marks its id
that had it on its list before. -/
theorem Run.stays_iff (h : Run now s events t) (hs : s.Sound)
    (hm : Store.Stored s.db m .scheduled) (hnow : ∀ i, now i < m.time) :
    StaysScheduled s events m ↔
      ∀ i, m.id ∈ (s.sweeper i).left → m.id ∈ (t.sweeper i).left := by
  induction h with
  | nil =>
      refine iff_of_true ?_ fun _ => id
      intro first hfirst
      rw [List.prefix_nil.mp hfirst]
      exact hm
  | @cons s mid t e events hstep hrest ih =>
      have hcons : ∀ first, (Store.run s.db ((e :: first).map (·.call))).2 =
          (Store.run mid.db (first.map (·.call))).2 := by
        intro first
        rw [List.map_cons, run_cons, hstep.run_eq]
      by_cases hmark : e.call = .mark m.id
      · refine iff_of_false ?_ ?_
        · intro hstays
          have hafter := hstays [e] ⟨events, rfl⟩
          rw [hcons] at hafter
          exact hstep.not_stored_of_mark hs hm hmark hafter
        · intro hleft
          obtain ⟨i, hbefore, hafter⟩ := hstep.notMem_left_of_mark hs hmark hrest
          exact hafter (hleft i hbefore)
      · have hmid := hstep.stored_of_ne_mark hs hm hmark
        have hleft := hstep.mem_left_iff hs hm hnow hmark
        simp only [← hleft, ← ih (hstep.sound hs) hmid]
        constructor
        · intro hstays first hfirst
          rw [← hcons]
          exact hstays (e :: first) (List.prefix_cons_inj e |>.mpr hfirst)
        · intro hstays first hfirst
          rcases List.prefix_cons_iff.mp hfirst with rfl | ⟨others, rfl, hothers⟩
          · exact hm
          · rw [hcons]
            exact hstays others hothers

/-- After any calls and with any sweepers at work, a scheduled message whose time has come
for none of them stays so iff no sweeper marks its id that already had it on its list. -/
theorem staysScheduled_iff (calls : List Store.Call) {before : List (Event ι)}
    (hbefore : Run now (.start (Store.after calls)) before s)
    (hm : Store.Stored s.db m .scheduled) (hnow : ∀ i, now i < m.time)
    (hrun : Run now s events t) :
    StaysScheduled s events m ↔
      ∀ i, m.id ∈ (s.sweeper i).left → m.id ∈ (t.sweeper i).left :=
  hrun.stays_iff (hbefore.sound (System.sound_start calls)) hm hnow

end Runs

/-- Another message with the same id, to be delivered much later. -/
def late : Message := Message.new "x" 1000 "t" ""

/-- The sweep of one message, while another one waits. -/
def quietSweep : List (Event Bool) :=
  [⟨.sweeper false, .due 10, .ok (.messages [early])⟩,
    ⟨.sweeper false, .mark "x", .ok (.marked true)⟩,
    ⟨.client, .prune 2000, .ok (.pruned 1)⟩]

/-- A message with an id of its own stays scheduled. -/
theorem staysScheduled_iff_other : ∃ t : System Bool,
    Store.Stored (Store.after [.add early 0, .add (late.withId "y") 0]) (late.withId "y")
        .scheduled ∧
      Run (fun _ => 10) (.start (Store.after [.add early 0, .add (late.withId "y") 0])) quietSweep
        t ∧
      StaysScheduled (.start (Store.after [.add early 0, .add (late.withId "y") 0])) quietSweep
        (late.withId "y") := by
  have hstored : Store.Stored (Store.after [.add early 0, .add (late.withId "y") 0])
      (late.withId "y") .scheduled := by
    rw [(represents_after _).stored_iff]
    exact ⟨_, .tail _ (.head _), rfl, rfl⟩
  have hrun : ∃ t, Run (fun _ : Bool => 10)
      ⟨Store.after [.add early 0, .add (late.withId "y") 0], fun _ => .waiting⟩ quietSweep t := by
    refine ⟨_, .cons (Step.ask_after rfl ?_) (.cons (Step.mark_after [] rfl ?_)
      (.cons (Step.other_after ?_ ?_) .nil))⟩
    · rfl
    · rfl
    · intro id hcall
      cases hcall
    · rfl
  obtain ⟨t, hrun⟩ := hrun
  refine ⟨t, hstored, hrun, ?_⟩
  refine (staysScheduled_iff [.add early 0, .add (late.withId "y") 0] .nil hstored
    (fun _ => by decide) hrun).mpr ?_
  intro i hi
  cases hi

/-- The id that the first sweeper has on its list is given to a message that is to be
delivered much later, and the sweeper publishes that. -/
theorem not_staysScheduled_reused : ∃ s t : System Bool,
    Run (fun _ => 10) (.start (Store.after [.add early 0]))
        [⟨.sweeper true, .due 10, .ok (.messages [early])⟩,
          ⟨.sweeper false, .due 10, .ok (.messages [early])⟩,
          ⟨.sweeper true, .mark "x", .ok (.marked true)⟩,
          ⟨.client, .prune 100, .ok (.pruned 1)⟩,
          ⟨.client, .add late 20, .ok .stored⟩] s ∧
      Store.Stored s.db late .scheduled ∧ 10 < late.time ∧
      Run (fun _ => 10) s [⟨.sweeper false, .mark "x", .ok (.marked true)⟩] t ∧
      Store.Stored t.db late .published ∧
      ¬ StaysScheduled s [⟨.sweeper false, .mark "x", .ok (.marked true)⟩] late := by
  obtain ⟨s, t, place, hbefore, hask, hrace, hplace⟩ := exists_race
  have hadd : Step (fun _ : Bool => 10)
      ⟨Store.after [.add early 0, .due 10, .due 10, .mark "x", .prune 100], place⟩
      ⟨.client, .add late 20, .ok .stored⟩
      ⟨Store.after [.add early 0, .due 10, .due 10, .mark "x", .prune 100, .add late 20], place⟩ :=
    Step.other_after (fun _ h => nomatch h) rfl
  have hmark : Step (fun _ : Bool => 10)
      ⟨Store.after [.add early 0, .due 10, .due 10, .mark "x", .prune 100, .add late 20], place⟩
      ⟨.sweeper false, .mark "x", .ok (.marked true)⟩
      ⟨Store.after [.add early 0, .due 10, .due 10, .mark "x", .prune 100, .add late 20,
        .mark "x"], _⟩ := Step.mark_after [] hplace rfl
  have hscheduled : Store.Stored
      (Store.after [.add early 0, .due 10, .due 10, .mark "x", .prune 100, .add late 20]) late
      .scheduled := by
    rw [(represents_after _).stored_iff]
    exact ⟨_, .head _, rfl, rfl⟩
  have hpublished : Store.Stored (Store.after [.add early 0, .due 10, .due 10, .mark "x",
      .prune 100, .add late 20, .mark "x"]) late .published := by
    rw [(represents_after _).stored_iff]
    exact ⟨_, .head _, rfl, rfl⟩
  refine ⟨_, _, hbefore.append (.cons hask (hrace.append (.cons hadd .nil))), hscheduled,
    by decide, .cons hmark .nil, hpublished, ?_⟩
  intro hstays
  have hstill := hstays _ (List.prefix_refl _)
  rw [(Run.cons hmark .nil).run_eq] at hstill
  cases ((represents_after _).lifeCycle.unique _ _ _ _ hpublished hstill rfl).2

end Sweeps

end MessageCache
