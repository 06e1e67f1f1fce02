/-
# The way to a file

The path of a database is looked for each time that the database is opened, and so are the
directories above it.  Both are found by going through directories, and directories stay:

    d.Keeps d'   ⟹   where a walk leads on d, it leads on d'             (`walk_of_keeps`)

A path that was found through directories which were made for it is therefore found again,
whatever has become of the files, and there is nothing left to be made (`way_stays`).  That
the path ends in a file matters: with a double dot in it a path can pass by the very file
that it means, which is not there the first time and is in the way the second.  Among
directories that were all made this cannot happen.
-/
import Mathlib.Tactic.SplitIfs
import MessageCache.Disk.Directory
import MessageCache.Storage.Place

namespace MessageCache

namespace Disk

/-- Every directory is still there. -/
def Keeps (d d' : Disk) : Prop :=
  ∀ q, d.node q = some .directory → d'.node q = some .directory

/-- There is a directory at a path, and at every path above it. -/
def HasWay (d : Disk) (p : Path) : Prop := ∀ q, q <+: p → d.node q = some .directory

variable {d d' d₁ : Disk} {p q there : Path} {n : FileName} {names : List FileName}

theorem Keeps.refl (d : Disk) : d.Keeps d := fun _ h => h

theorem Keeps.trans (h : d.Keeps d₁) (h' : d₁.Keeps d') : d.Keeps d' := fun q hq => h' q (h q hq)

/-- What is not a directory can be replaced. -/
theorem Keeps.set (h : d.node p ≠ some .directory) (n : Option Node) : d.Keeps (d.set p n) := by
  intro q hq
  have hne : q ≠ p := by
    rintro rfl
    exact h hq
  rw [node_set, if_neg hne]
  exact hq

theorem HasWay.self (h : d.HasWay p) : d.node p = some .directory := h p List.prefix_rfl

theorem HasWay.above (h : d.HasWay p) (hq : q <+: p) : d.HasWay q :=
  fun r hr => h r (hr.trans hq)

theorem HasWay.concat (h : d.HasWay p) (hn : d.node (p ++ [n]) = some .directory) :
    d.HasWay (p ++ [n]) := by
  intro q hq
  rcases List.prefix_concat_iff.mp hq with rfl | hq
  · exact hn
  · exact h q hq

theorem HasWay.keeps (h : d.HasWay p) (hkeeps : d.Keeps d') : d'.HasWay p :=
  fun q hq => hkeeps q (h q hq)

/-! ## Walking -/

/-- A name that leads to something of that name. -/
def IsStep (n : FileName) : Prop := ¬ n.stays = true ∧ n ≠ FileName.dots

theorem walk_cons (h : d.node q = some .directory) :
    d.walk q (n :: names) =
      if n.stays then d.walk q names
      else if n = FileName.dots then d.walk q.dropLast names
      else if FileName.longest < n.length then .error .nameTooLong
      else d.walk (q ++ [n]) names := by
  rw [walk, h]

theorem walk_step (h : d.node q = some .directory) (hn : IsStep n) :
    d.walk q (n :: names) =
      if FileName.longest < n.length then .error .nameTooLong else d.walk (q ++ [n]) names := by
  rw [walk_cons h, if_neg hn.1, if_neg hn.2]

theorem start_of_walk (h : d.walk q (n :: names) = .ok p) : d.node q = some .directory := by
  rw [walk] at h
  split at h
  · cases h
  · cases h
  · assumption

theorem walk_of_keeps (hkeeps : d.Keeps d') (h : d.walk q names = .ok p) :
    d'.walk q names = .ok p := by
  induction names generalizing q with
  | nil => exact h
  | cons n ns ih =>
      have hq := start_of_walk h
      rw [walk_cons hq] at h
      rw [walk_cons (hkeeps q hq)]
      split_ifs at h ⊢ <;> exact ih h

/-- The way down leads there, unless a name is too long. -/
theorem walk_down (hsteps : ∀ m ∈ p ++ [n], IsStep m)
    (h : ∀ r, r <+: p → d.node (q ++ r) = some .directory) :
    d.walk q (p ++ [n]) = .ok (q ++ (p ++ [n])) ∨
      d.walk q (p ++ [n]) = .error .nameTooLong := by
  have hq : d.node q = some .directory := by simpa using h [] List.nil_prefix
  induction p generalizing q with
  | nil =>
      rw [List.nil_append, walk_step hq (hsteps n List.mem_cons_self)]
      split_ifs
      · exact .inr rfl
      · exact .inl rfl
  | cons m ms ih =>
      have hbelow : ∀ r, r <+: ms → d.node (q ++ [m] ++ r) = some .directory := by
        intro r hr
        rw [List.append_assoc]
        exact h (m :: r) (List.cons_prefix_cons.mpr ⟨rfl, hr⟩)
      rw [List.cons_append, walk_step hq (hsteps m List.mem_cons_self)]
      split_ifs
      · exact .inr rfl
      · have hrest := ih (fun k hk => hsteps k (List.mem_cons_of_mem _ hk)) hbelow
          (by simpa using hbelow [] List.nil_prefix)
        rwa [List.append_assoc] at hrest

/-! ## Paths of databases -/

theorem extend_of_stays (h : n.stays = true) : Place.extend d q n = some q := by
  rw [Place.extend, if_pos h]

/-- Where one more name leads. -/
theorem extend_cases (h : Place.extend d q n = some p) :
    n.stays = true ∧ p = q ∨ n = FileName.dots ∧ p = q.dropLast ∨ IsStep n ∧ p = q ++ [n] := by
  unfold Place.extend at h
  split_ifs at h with hstays hdots
  · exact .inl ⟨hstays, (Option.some.inj h).symm⟩
  · exact .inr (.inl ⟨hdots, (Option.some.inj h).symm⟩)
  · refine .inr (.inr ⟨⟨hstays, hdots⟩, ?_⟩)
    split at h
    · exact (Option.some.inj h).symm
    · exact (Option.some.inj h).symm
    · cases h

/-- From a directory a path is extended in the same way later. -/
theorem extend_of_keeps (hkeeps : d.Keeps d') (hway : d.HasWay q) (hsteps : ∀ m ∈ q, IsStep m)
    (h : Place.extend d q n = some p) : Place.extend d' q n = some p := by
  unfold Place.extend at h ⊢
  split_ifs at h ⊢ with hstays hdots
  · exact h
  · exact h
  · have hall : ∀ m ∈ q ++ [n], IsStep m :=
      List.forall_mem_append.mpr ⟨hsteps, List.forall_mem_singleton.mpr ⟨hstays, hdots⟩⟩
    rcases walk_down (q := []) hall hway with hwalk | hwalk
    · rw [hwalk] at h
      rw [walk_of_keeps hkeeps hwalk]
      exact h
    · rw [hwalk] at h
      cases h

/-- A path for a database that is found by going through directories alone, and again as
long as these are there. -/
structure Passes (d : Disk) (q : Path) (names : List FileName) (p : Path) : Prop where
  way : d.HasWay p
  steps : ∀ m ∈ p, IsStep m
  again : ∀ d', d.Keeps d' → names.foldlM (Place.extend d') q = some p

/-- Where one can walk, there are directories on the way. -/
theorem passes_of_walk (hway : d.HasWay q) (hsteps : ∀ m ∈ q, IsStep m)
    (hwalk : d.walk q names = .ok there) (hthere : d.node there = some .directory)
    (hp : names.foldlM (Place.extend d) q = some p) : d.Passes q names p := by
  induction names generalizing q with
  | nil =>
      cases hp
      exact ⟨hway, hsteps, fun _ _ => rfl⟩
  | cons n ns ih =>
      rw [List.foldlM_cons, Option.bind_eq_bind, Option.bind_eq_some_iff] at hp
      obtain ⟨next, hnext, hp⟩ := hp
      have hrest : d.Passes next ns p := by
        rcases extend_cases hnext with ⟨hstays, rfl⟩ | ⟨rfl, rfl⟩ | ⟨hn, rfl⟩
        · rw [walk_cons hway.self, if_pos hstays] at hwalk
          exact ih hway hsteps hwalk hp
        · rw [walk_cons hway.self, if_neg (by decide), if_pos rfl] at hwalk
          have hdrop := List.dropLast_prefix q
          exact ih (hway.above hdrop) (fun m hm => hsteps m (hdrop.subset hm)) hwalk hp
        · rw [walk_step hway.self hn] at hwalk
          split_ifs at hwalk
          -- the walk goes on from there, or ends there
          have hnode : d.node (q ++ [n]) = some .directory := by
            cases ns with
            | nil =>
                cases hwalk
                exact hthere
            | cons m ms => exact start_of_walk hwalk
          exact ih (hway.concat hnode)
            (List.forall_mem_append.mpr ⟨hsteps, List.forall_mem_singleton.mpr hn⟩) hwalk hp
      refine ⟨hrest.way, hrest.steps, fun d' hkeeps => ?_⟩
      rw [List.foldlM_cons, extend_of_keeps hkeeps hway hsteps hnext]
      exact hrest.again d' hkeeps

/-! ## Directories that were made -/

/-- The directory of a route is there, if the route names one; the names come last first. -/
def Reaches (d : Disk) (absolute : Bool) : List FileName → Prop
  | [] => True
  | n :: above =>
    if Route.isIdle (n :: above) n then d.Reaches absolute above
    else ∃ p, d.follow { absolute, names := (n :: above).reverse } = .ok p ∧
      d.node p = some .directory

variable {absolute : Bool}

theorem follow_eq_ok {r : Route} : d.follow r = .ok p ↔
    r.names.any (0 ∈ ·) = false ∧ r.size ≤ Route.longest ∧ d.walk (origin r) r.names = .ok p := by
  unfold follow
  cases r.names.any (0 ∈ ·) with
  | true => simp
  | false =>
      by_cases hlong : Route.longest < r.size
      · simp [hlong, Nat.not_le_of_lt hlong]
      · simp [hlong, Nat.le_of_not_lt hlong]

theorem follow_of_keeps {r : Route} (hkeeps : d.Keeps d') (h : d.follow r = .ok p) :
    d'.follow r = .ok p := by
  rw [follow_eq_ok] at h ⊢
  exact ⟨h.1, h.2.1, walk_of_keeps hkeeps h.2.2⟩

theorem Reaches.keeps (hkeeps : d.Keeps d') (h : d.Reaches absolute names) :
    d'.Reaches absolute names := by
  induction names with
  | nil => trivial
  | cons n above ih =>
      unfold Reaches at h ⊢
      split_ifs at h ⊢
      · exact ih h
      · obtain ⟨p, hp, hnode⟩ := h
        exact ⟨p, follow_of_keeps hkeeps hp, hkeeps p hnode⟩

/-- A directory that was made is there, and so is what was there before. -/
theorem makeDirectory_ok {r : Route} (h : d.makeDirectory r = .ok d') :
    d.Keeps d' ∧ ∃ p, d'.follow r = .ok p ∧ d'.node p = some .directory := by
  unfold makeDirectory at h
  cases hp : d.follow r with
  | error fault =>
      rw [hp] at h
      cases h
  | ok p =>
      rw [hp] at h
      simp only [Except.mapError, bind, Except.bind, pure, Except.pure] at h
      split at h
      · rename_i hnode
        cases h
        exact ⟨.refl d, p, hp, hnode⟩
      · cases h
      · rename_i hnone
        split at h
        · cases h
          have hkeeps : d.Keeps (d.set p (some .directory)) := .set (by rw [hnone]; nofun) _
          exact ⟨hkeeps, p, follow_of_keeps hkeeps hp, by rw [node_set, if_pos rfl]⟩
        · cases h
        · cases h

theorem makeDirectory_again {r : Route} (hp : d.follow r = .ok p)
    (hnode : d.node p = some .directory) : d.makeDirectory r = .ok d := by
  unfold makeDirectory
  rw [hp]
  simp only [Except.mapError, bind, Except.bind, pure, Except.pure, hnode]

theorem makeDirectoriesUp_keeps : d.Keeps (d.makeDirectoriesUp absolute names).1 := by
  induction names with
  | nil => exact .refl d
  | cons n above ih =>
      unfold makeDirectoriesUp
      split_ifs
      · exact ih
      · simp only
        split
        · rename_i hmade
          exact (makeDirectory_ok hmade).1
        · split
          · rename_i hup
            rw [hup] at ih
            exact ih
          · rename_i hup
            rw [hup] at ih
            split
            · rename_i hmade
              exact ih.trans (makeDirectory_ok hmade).1
            · exact ih
        · exact .refl d

theorem makeDirectories_keeps (d : Disk) (r : Route) : d.Keeps (d.makeDirectories r).1 :=
  makeDirectoriesUp_keeps

theorem reaches_of_made (h : d.makeDirectoriesUp absolute names = (d', .ok ())) :
    d'.Reaches absolute names := by
  induction names with
  | nil => trivial
  | cons n above ih =>
      unfold makeDirectoriesUp at h
      unfold Reaches
      split_ifs at h ⊢
      · exact ih h
      · simp only at h
        split at h
        · rename_i hmade
          cases h
          exact (makeDirectory_ok hmade).2
        · split at h
          · cases h
          · split at h
            · rename_i hmade
              cases h
              exact (makeDirectory_ok hmade).2
            · cases h
        · cases h

theorem makeDirectoriesUp_again (h : d.Reaches absolute names) :
    d.makeDirectoriesUp absolute names = (d, .ok ()) := by
  induction names with
  | nil => rfl
  | cons n above ih =>
      unfold Reaches at h
      unfold makeDirectoriesUp
      split_ifs at h ⊢
      · exact ih h
      · obtain ⟨p, hp, hnode⟩ := h
        simp only [makeDirectory_again hp hnode]

/-! ## Both together -/

theorem stays_of_isIdle (h : Route.isIdle names n = true) : n.stays = true := by
  unfold Route.isIdle at h
  unfold FileName.stays
  simp only [Bool.or_eq_true, Bool.and_eq_true, decide_eq_true_eq] at h ⊢
  exact h.imp_right And.left

theorem foldlM_reverse_cons (d : Disk) (q : Path) (n : FileName) (above : List FileName) :
    (n :: above).reverse.foldlM (Place.extend d) q =
      above.reverse.foldlM (Place.extend d) q >>= fun p => Place.extend d p n := by
  rw [List.reverse_cons, List.foldlM_append]
  simp

/-- The path to a directory that was made. -/
theorem Reaches.passes (h : d.Reaches absolute names)
    (hway : d.HasWay (origin { absolute, names := [] }))
    (hsteps : ∀ m ∈ origin { absolute, names := [] }, IsStep m)
    (hp : names.reverse.foldlM (Place.extend d) (origin { absolute, names := [] }) = some p) :
    d.Passes (origin { absolute, names := [] }) names.reverse p := by
  induction names generalizing p with
  | nil => exact passes_of_walk hway hsteps rfl hway.self hp
  | cons n above ih =>
      unfold Reaches at h
      split_ifs at h with hidle
      · have hstays := stays_of_isIdle hidle
        rw [foldlM_reverse_cons, Option.bind_eq_bind, Option.bind_eq_some_iff] at hp
        obtain ⟨q, hq, hp⟩ := hp
        rw [extend_of_stays hstays] at hp
        cases hp
        obtain ⟨hway', hsteps', hagain⟩ := ih h hq
        refine ⟨hway', hsteps', fun d' hkeeps => ?_⟩
        rw [foldlM_reverse_cons, hagain d' hkeeps]
        exact extend_of_stays hstays
      · obtain ⟨there, hfollow, hthere⟩ := h
        exact passes_of_walk hway hsteps (follow_eq_ok.mp hfollow).2.2 hthere hp

/-- A path that does not end in a directory ends in the one that its route leads into. -/
theorem passes_of_parent (hway : d.HasWay (origin { absolute, names := [] }))
    (hsteps : ∀ m ∈ origin { absolute, names := [] }, IsStep m)
    (h : d.Reaches absolute (Route.parentOf absolute names).names.reverse)
    (hp : names.reverse.foldlM (Place.extend d) (origin { absolute, names := [] }) = some p)
    (hfile : d.node p ≠ some .directory) :
    d.node p.dropLast = some .directory ∧ ∀ d', d.Keeps d' →
      names.reverse.foldlM (Place.extend d') (origin { absolute, names := [] }) = some p := by
  induction names with
  | nil =>
      cases hp
      exact absurd hway.self hfile
  | cons n above ih =>
      rw [foldlM_reverse_cons, Option.bind_eq_bind, Option.bind_eq_some_iff] at hp
      obtain ⟨q, hq, hnext⟩ := hp
      unfold Route.parentOf at h
      split_ifs at h with hidle
      · have hstays := stays_of_isIdle hidle
        rw [extend_of_stays hstays] at hnext
        cases hnext
        obtain ⟨hparent, hagain⟩ := ih h hq
        refine ⟨hparent, fun d' hkeeps => ?_⟩
        rw [foldlM_reverse_cons, hagain d' hkeeps]
        exact extend_of_stays hstays
      · rw [List.reverse_reverse] at h
        obtain ⟨hqway, hqsteps, hagain⟩ := h.passes hway hsteps hq
        constructor
        · rcases extend_cases hnext with ⟨-, rfl⟩ | ⟨-, rfl⟩ | ⟨-, rfl⟩
          · exact absurd hqway.self hfile
          · exact absurd (hqway _ (List.dropLast_prefix q)) hfile
          · rw [List.dropLast_concat]
            exact hqway.self
        · intro d' hkeeps
          rw [foldlM_reverse_cons, hagain d' hkeeps]
          exact extend_of_keeps hkeeps hqway hqsteps hnext

end Disk

namespace Place

variable {d d₁ : Disk} {path : Bytes} {p : Path}

theorem pathOf?_eq_some : pathOf? d path = some p ↔
    (Route.ofBytes path).names.foldlM (extend d) (Disk.origin (Route.ofBytes path)) = some p ∧
      ¬ (p = [] ∨ longestPath < p.size + (Utf8.bytes "-journal").length) := by
  simp only [pathOf?, Option.bind_eq_bind, Option.bind_eq_some_iff, Option.ite_none_left_eq_some,
    Option.some.injEq]
  constructor
  · rintro ⟨q, hq, hsize, rfl⟩
    exact ⟨hq, hsize⟩
  · rintro ⟨hq, hsize⟩
    exact ⟨p, hq, hsize, rfl⟩

theorem absolute_parentOf (absolute : Bool) (names : List FileName) :
    (Route.parentOf absolute names).absolute = absolute := by
  induction names with
  | nil => rfl
  | cons n above ih =>
      unfold Route.parentOf
      split_ifs
      · exact ih
      · rfl

/-- A path that was found for a database beyond directories that were made for it: it ends
in one of them, and as long as there are directories where there were, nothing has to be
made and the path is found. -/
theorem way_stays (hhome : d.HasWay Disk.home)
    (hmade : d.makeDirectories (Route.ofBytes path).parent = (d₁, .ok ()))
    (hp : pathOf? d₁ path = some p) (hfile : d₁.node p ≠ some .directory) :
    d₁.node p.dropLast = some .directory ∧ ∀ d₂, d₁.Keeps d₂ →
      d₂.makeDirectories (Route.ofBytes path).parent = (d₂, .ok ()) ∧
        pathOf? d₂ path = some p := by
  have hkept : d.Keeps d₁ := by
    have h := d.makeDirectories_keeps (Route.ofBytes path).parent
    rwa [hmade] at h
  have hway : d₁.HasWay (Disk.origin (Route.ofBytes path)) := by
    unfold Disk.origin
    split_ifs
    · exact (hhome.keeps hkept).above List.nil_prefix
    · exact hhome.keeps hkept
  have hsteps : ∀ m ∈ Disk.origin (Route.ofBytes path), Disk.IsStep m := by
    unfold Disk.origin
    split_ifs
    · exact List.forall_mem_nil _
    · unfold Disk.IsStep
      decide
  have hreaches := Disk.reaches_of_made hmade
  rw [Route.parent, absolute_parentOf] at hreaches
  obtain ⟨hfold, hsize⟩ := pathOf?_eq_some.mp hp
  rw [← List.reverse_reverse (Route.ofBytes path).names] at hfold
  obtain ⟨hparent, hagain⟩ := Disk.passes_of_parent hway hsteps hreaches hfold hfile
  rw [List.reverse_reverse] at hagain
  refine ⟨hparent, fun d₂ hkeeps => ⟨?_, pathOf?_eq_some.mpr ⟨hagain d₂ hkeeps, hsize⟩⟩⟩
  unfold Disk.makeDirectories
  rw [Route.parent, absolute_parentOf]
  exact Disk.makeDirectoriesUp_again (hreaches.keeps hkeeps)

end Place

end MessageCache
