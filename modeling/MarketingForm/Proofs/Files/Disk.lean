import MarketingForm.Files.Disk
import MarketingForm.Proofs.Files.Tree

/-!
# Paths in a changed tree

A path is resolved along directories. So a change that keeps every directory keeps the place of
every path, though a file that lies there may come or go. From this it follows what is read after a
file was written or moved.
-/

namespace MarketingForm.Files

/-- A sequence that goes well goes well in both parts. -/
theorem bind_eq_ok {ε α β : Type} {x : Except ε α} {f : α → Except ε β} {b : β} :
    x.bind f = .ok b ↔ ∃ a, x = .ok a ∧ f a = .ok b := by
  cases x with
  | error e =>
    constructor
    · intro h
      cases h
    · rintro ⟨a, h, -⟩
      cases h
  | ok a =>
    constructor
    · intro h
      exact ⟨a, rfl, h⟩
    · rintro ⟨a', h, hf⟩
      cases h
      exact hf

theorem toOption_eq_some {ε α : Type} {x : Except ε α} {a : α} :
    x.toOption = some a ↔ x = .ok a := by
  cases x with
  | error e => exact ⟨nofun, nofun⟩
  | ok b => exact ⟨fun h => congrArg Except.ok (Option.some.inj h), fun h => by cases h; rfl⟩

namespace Tree

/-! ## Walking -/

/-- A name that a directory can have. -/
structure IsName (s : Segment) : Prop where
  notDot : s ≠ ['.']
  notDots : s ≠ ['.', '.']
  length : ¬ nameLimit < Text.utf8Length s

/-- What lies right below a directory. -/
theorem get?_below {t : Tree} {p : Location} {es : List (Segment × Tree)}
    (hp : t.get? p = some (dir es)) (s : Segment) : t.get? (p ++ [s]) = es.lookup s := by
  rw [get?_append, hp, Option.bind_some, get?_dir_cons]
  cases es.lookup s with
  | none => rfl
  | some u => exact get?_nil u

/-- A step stays in its directory, leaves it or goes to what lies right below it. -/
theorem step_eq_ok {t : Tree} {p q : Location} {s : Segment} :
    t.step p s = .ok q ↔ t.DirAt p ∧
      (s = ['.'] ∧ q = p ∨ s = ['.', '.'] ∧ q = p.dropLast ∨
        IsName s ∧ (t.get? (p ++ [s])).isSome ∧ q = p ++ [s]) := by
  unfold step
  constructor
  · intro h
    split at h
    · rename_i es hes
      refine ⟨⟨es, hes⟩, ?_⟩
      rw [get?_below hes]
      by_cases hdot : s = ['.']
      · rw [if_pos hdot] at h
        cases h
        exact .inl ⟨hdot, rfl⟩
      by_cases hdots : s = ['.', '.']
      · rw [if_neg hdot, if_pos hdots] at h
        cases h
        exact .inr (.inl ⟨hdots, rfl⟩)
      by_cases hlong : nameLimit < Text.utf8Length s
      · rw [if_neg hdot, if_neg hdots, if_pos hlong] at h
        cases h
      rw [if_neg hdot, if_neg hdots, if_neg hlong] at h
      split at h
      · rename_i hsome
        cases h
        exact .inr (.inr ⟨⟨hdot, hdots, hlong⟩, hsome, rfl⟩)
      · cases h
    · cases h
    · cases h
  · rintro ⟨⟨es, hes⟩, ⟨rfl, rfl⟩ | ⟨rfl, rfl⟩ | ⟨hs, hsome, rfl⟩⟩
    · simp [hes]
    · simp [hes]
    · rw [get?_below hes] at hsome
      simp only [hes, hs.notDot, hs.notDots, hs.length, hsome, ↓reduceIte]

theorem dirAt_of_walk {t : Tree} {p q : Location} {ss : List Segment} (h : t.walk p ss = .ok q)
    (hq : t.DirAt q) : t.DirAt p := by
  cases ss with
  | nil =>
    cases h
    exact hq
  | cons s ss =>
    obtain ⟨_, hstep, -⟩ := bind_eq_ok.1 h
    exact (step_eq_ok.1 hstep).1

theorem isSome_of_step {t : Tree} {p q : Location} {s : Segment} (h : t.step p s = .ok q) :
    (t.get? q).isSome := by
  obtain ⟨hp, ⟨-, rfl⟩ | ⟨-, rfl⟩ | ⟨-, hsome, rfl⟩⟩ := step_eq_ok.1 h
  · obtain ⟨es, hes⟩ := hp
    rw [hes]
    rfl
  · obtain ⟨es, hes⟩ := hp.dropLast
    rw [hes]
    rfl
  · exact hsome

/-- Something lies where segments lead. -/
theorem isSome_of_walk {t : Tree} {p q : Location} {ss : List Segment} (hp : (t.get? p).isSome)
    (h : t.walk p ss = .ok q) : (t.get? q).isSome := by
  induction ss generalizing p with
  | nil =>
    cases h
    exact hp
  | cons s ss ih =>
    obtain ⟨p', hstep, hrest⟩ := bind_eq_ok.1 h
    exact ih (isSome_of_step hstep) hrest

theorem walk_append (t : Tree) (p : Location) (ss rs : List Segment) :
    t.walk p (ss ++ rs) = (t.walk p ss).bind fun q => t.walk q rs := by
  induction ss generalizing p with
  | nil => rfl
  | cons s ss ih =>
    rw [List.cons_append, walk, walk]
    cases t.step p s with
    | error e => rfl
    | ok q => exact ih q

namespace KeepsDirs

variable {t u : Tree} (h : t.KeepsDirs u)
include h

theorem step {p q : Location} {s : Segment} (hs : t.step p s = .ok q) (hq : t.DirAt q) :
    u.step p s = .ok q := by
  obtain ⟨hp, hcases⟩ := step_eq_ok.1 hs
  refine step_eq_ok.2 ⟨h p hp, ?_⟩
  rcases hcases with hdot | hdots | ⟨hname, -, rfl⟩
  · exact .inl hdot
  · exact .inr (.inl hdots)
  · obtain ⟨es, hes⟩ := h _ hq
    exact .inr (.inr ⟨hname, by rw [hes, Option.isSome_some], rfl⟩)

theorem walk {p q : Location} {ss : List Segment} (hs : t.walk p ss = .ok q) (hq : t.DirAt q) :
    u.walk p ss = .ok q := by
  induction ss generalizing p with
  | nil => exact hs
  | cons s ss ih =>
    obtain ⟨p', hstep, hrest⟩ := bind_eq_ok.1 hs
    have hp' : t.DirAt p' := dirAt_of_walk hrest hq
    exact bind_eq_ok.2 ⟨p', h.step hstep hp', ih hrest⟩

end KeepsDirs

/-! ## The place of a path -/

/-- The place where the name at the end of a path may lie. -/
theorem locateParent_eq_name {t : Tree} {path : String} {x : Target} :
    t.locateParent path = .ok (.name x) ↔
      ∃ (r : Route) (ss : List Segment) (s : Segment) (p : Location),
        route path = .ok r ∧ r.segments = ss ++ [s] ∧ t.walk [] ss = .ok p ∧ t.DirAt p ∧ IsName s ∧
          x = ⟨p ++ [s], r.slashed⟩ := by
  unfold locateParent
  constructor
  · intro h
    obtain ⟨r, hroute, h⟩ := bind_eq_ok.1 h
    rcases List.eq_nil_or_concat r.segments with hnil | ⟨ss, s, hcons⟩
    · simp only [hnil, List.getLast?_nil] at h
      cases h
    rw [List.concat_eq_append] at hcons
    simp only [hcons, List.getLast?_concat, List.dropLast_concat] at h
    obtain ⟨p, hwalk, h⟩ := bind_eq_ok.1 h
    refine ⟨r, ss, s, p, hroute, hcons, hwalk, ?_⟩
    split at h
    · rename_i es hes
      by_cases hdot : s = ['.']
      · rw [if_pos hdot] at h
        cases h
      by_cases hdots : s = ['.', '.']
      · rw [if_neg hdot, if_pos hdots] at h
        cases h
      by_cases hlong : nameLimit < Text.utf8Length s
      · rw [if_neg hdot, if_neg hdots, if_pos hlong] at h
        cases h
      rw [if_neg hdot, if_neg hdots, if_neg hlong] at h
      cases h
      exact ⟨⟨es, hes⟩, ⟨hdot, hdots, hlong⟩, rfl⟩
    · cases h
    · cases h
  · rintro ⟨r, ss, s, p, hroute, hsegments, hwalk, ⟨es, hes⟩, hs, rfl⟩
    simp only [hroute, bind, Except.bind, hsegments, List.getLast?_concat, List.dropLast_concat,
      hwalk, hes, hs.notDot, hs.notDots, hs.length, ↓reduceIte]

theorem target_unique {t : Tree} {path : String} {x y : Target}
    (hx : t.locateParent path = .ok (.name x)) (hy : t.locateParent path = .ok (.name y)) : x = y :=
  Ending.name.inj (Except.ok.inj (hx.symm.trans hy))

/-- A kept directory keeps the places of the names in it. -/
theorem KeepsDirs.locateParent {t u : Tree} (h : t.KeepsDirs u) {path : String} {x : Target}
    (hx : t.locateParent path = .ok (.name x)) : u.locateParent path = .ok (.name x) := by
  obtain ⟨r, ss, s, p, hroute, hsegments, hwalk, hp, hs, rfl⟩ := locateParent_eq_name.1 hx
  exact locateParent_eq_name.2
    ⟨r, ss, s, p, hroute, hsegments, h.walk hwalk hp, h p hp, hs, rfl⟩

/-- What is put at the place of a path lies there. -/
theorem get?_put_target {t : Tree} {path : String} {x : Target}
    (h : t.locateParent path = .ok (.name x)) (y : Tree) :
    (t.put x.location y).get? x.location = some y := by
  obtain ⟨r, ss, s, p, -, -, -, hp, -, rfl⟩ := locateParent_eq_name.1 h
  exact get?_put_self hp s y

/-- No place but a directory lies on the way to the place of a path. -/
theorem not_prefix_of_target {t : Tree} {path : String} {x : Target}
    (h : t.locateParent path = .ok (.name x)) {p : Location} (hp : ¬ t.DirAt p)
    (hne : ¬ p = x.location) : ¬ p <+: x.location := by
  obtain ⟨r, ss, s, q, -, -, -, hq, -, rfl⟩ := locateParent_eq_name.1 h
  intro hpre
  rcases List.prefix_concat_iff.1 hpre with hpx | ⟨r, rfl⟩
  · exact hne hpx
  · exact hp hq.of_append

/-- A path with a slash at its end leads to no file. -/
theorem locate_eq_ok {t : Tree} {path : String} {p : Location} :
    t.locate path = .ok p ↔ ∃ r, route path = .ok r ∧ t.walk [] r.segments = .ok p ∧
      (r.slashed = true → ∀ c, t.get? p ≠ some (file c)) := by
  unfold locate
  constructor
  · intro h
    obtain ⟨r, hroute, h⟩ := bind_eq_ok.1 h
    obtain ⟨q, hwalk, h⟩ := bind_eq_ok.1 h
    split at h
    · split at h
      · cases h
      · rename_i hslash
        cases h
        exact ⟨r, hroute, hwalk, fun hslashed => absurd hslashed hslash⟩
    · rename_i hfile
      cases h
      exact ⟨r, hroute, hwalk, fun _ => hfile⟩
  · rintro ⟨r, hroute, hwalk, hfile⟩
    refine bind_eq_ok.2 ⟨r, hroute, bind_eq_ok.2 ⟨p, hwalk, ?_⟩⟩
    split
    · rename_i c hc
      rw [if_neg fun hslashed => hfile hslashed c hc]
    · rfl

theorem read_eq_ok {t : Tree} {path : String} {c : ByteArray} :
    t.read path = .ok c ↔ ∃ p, t.locate path = .ok p ∧ t.get? p = some (file c) := by
  unfold read
  constructor
  · intro h
    obtain ⟨p, hlocate, h⟩ := bind_eq_ok.1 h
    split at h
    · rename_i d hfile
      cases h
      exact ⟨p, hlocate, hfile⟩
    · cases h
    · cases h
  · rintro ⟨p, hlocate, hfile⟩
    exact bind_eq_ok.2 ⟨p, hlocate, by simp only [hfile]⟩

theorem locate_of_target {t : Tree} {path : String} {x : Target} {c : ByteArray}
    (h : t.locateParent path = .ok (.name x)) (hslash : x.slashed = false)
    (hx : t.get? x.location = some (file c)) : t.locate path = .ok x.location := by
  obtain ⟨r, ss, s, p, hroute, hsegments, hwalk, hp, hs, rfl⟩ := locateParent_eq_name.1 h
  have hlast : t.walk [] (ss ++ [s]) = .ok (p ++ [s]) := by
    have hstep : t.step p s = .ok (p ++ [s]) :=
      step_eq_ok.2 ⟨hp, .inr (.inr ⟨hs, by simp [hx], rfl⟩)⟩
    rw [walk_append]
    exact bind_eq_ok.2 ⟨p, hwalk, bind_eq_ok.2 ⟨p ++ [s], hstep, rfl⟩⟩
  refine locate_eq_ok.2 ⟨r, hroute, hsegments ▸ hlast, fun hslashed => ?_⟩
  exact absurd hslashed (Bool.eq_false_iff.1 hslash)

theorem read_of_target {t : Tree} {path : String} {x : Target} {c : ByteArray}
    (h : t.locateParent path = .ok (.name x)) (hslash : x.slashed = false)
    (hx : t.get? x.location = some (file c)) : t.read path = .ok c :=
  read_eq_ok.2 ⟨x.location, locate_of_target h hslash hx, hx⟩

/-- What is read at a path lies at the place of its last name. -/
theorem target_of_read {t : Tree} {path : String} {c : ByteArray} (hroot : t.DirAt [])
    (h : t.read path = .ok c) : ∃ x, t.locateParent path = .ok (.name x) ∧ x.slashed = false ∧
      t.get? x.location = some (file c) := by
  obtain ⟨q, hlocate, hfile⟩ := read_eq_ok.1 h
  obtain ⟨r, hroute, hwalk, hslashed⟩ := locate_eq_ok.1 hlocate
  have hslash : r.slashed = false := by
    rw [← Bool.not_eq_true]
    exact fun hslash => hslashed hslash c hfile
  rcases List.eq_nil_or_concat r.segments with hnil | ⟨ss, s, hsegments⟩
  · rw [hnil] at hwalk
    cases hwalk
    exact absurd hfile (hroot.get?_ne_file c)
  rw [List.concat_eq_append] at hsegments
  rw [hsegments, walk_append] at hwalk
  obtain ⟨p, hparent, hlast⟩ := bind_eq_ok.1 hwalk
  obtain ⟨_, hstep, hrest⟩ := bind_eq_ok.1 hlast
  cases hrest
  obtain ⟨hp, hcases⟩ := step_eq_ok.1 hstep
  rcases hcases with ⟨-, rfl⟩ | ⟨-, rfl⟩ | ⟨hname, -, rfl⟩
  · exact absurd hfile (hp.get?_ne_file c)
  · exact absurd hfile (hp.dropLast.get?_ne_file c)
  · exact ⟨_, locateParent_eq_name.2 ⟨r, ss, s, p, hroute, hsegments, hparent, hp, hname, rfl⟩,
      hslash, hfile⟩

/-! ## Writing and moving -/

/-- A file that is put at the place of a path changes nothing but that place. -/
theorem entry_put_target {t : Tree} {path : String} {x : Target}
    (hx : t.locateParent path = .ok (.name x)) (hfree : ¬ t.DirAt x.location) (c : ByteArray) :
    (t.put x.location (file c)).entry x.location = .file c ∧
      ∀ p, p ≠ x.location → (t.put x.location (file c)).entry p = t.entry p := by
  have hfile := get?_put_target hx (file c)
  refine ⟨entry_eq_file.2 hfile, fun p hp => ?_⟩
  obtain ⟨r, ss, s, q, -, -, -, hq, -, rfl⟩ := locateParent_eq_name.1 hx
  exact (local_put (file c)).entry_eq hq hfree (not_dirAt_of_file hfile) hp

/-- A file that is taken away from the place of a path leaves nothing there. -/
theorem entry_erase_target {t : Tree} {path : String} {x : Target} {c : ByteArray}
    (hx : t.locateParent path = .ok (.name x)) (hfile : t.get? x.location = some (file c)) :
    (t.erase x.location).entry x.location = .nothing ∧
      ∀ p, p ≠ x.location → (t.erase x.location).entry p = t.entry p := by
  obtain ⟨r, ss, s, q, -, -, -, hq, -, rfl⟩ := locateParent_eq_name.1 hx
  have hnone := get?_erase_self hq s
  refine ⟨entry_eq_nothing.2 hnone, fun p hp => ?_⟩
  exact local_erase.entry_eq hq (not_dirAt_of_file hfile) (not_dirAt_of_none hnone) hp

theorem write_eq_ok {t u : Tree} {path : String} {c : ByteArray} (h : t.write path c = .ok u) :
    ∃ x : Target, t.locateParent path = .ok (.name x) ∧ x.slashed = false ∧ ¬ t.DirAt x.location ∧
      u = t.put x.location (file c) := by
  unfold write at h
  obtain ⟨x, hpath, h⟩ := bind_eq_ok.1 h
  cases x with
  | dots p => cases h
  | name x =>
    cases hslash : x.slashed with
    | true =>
      simp only [hslash, ↓reduceIte] at h
      cases h
    | false =>
      simp only [hslash, Bool.false_eq_true, ↓reduceIte] at h
      split at h
      · cases h
      · rename_i hdir
        cases h
        exact ⟨x, hpath, hslash, fun ⟨es, hes⟩ => hdir es hes, rfl⟩

theorem write_of_target {t : Tree} {path : String} {p : Location}
    (h : t.locateParent path = .ok (.name ⟨p, false⟩)) (hp : ¬ t.DirAt p) (c : ByteArray) :
    t.write path c = .ok (t.put p (file c)) := by
  unfold write
  simp only [h, bind, Except.bind, Bool.false_eq_true, ↓reduceIte]
  split
  · rename_i es hes
    exact absurd ⟨es, hes⟩ hp
  · rfl

theorem keepsDirs_of_write {t u : Tree} {path : String} {c : ByteArray}
    (h : t.write path c = .ok u) : t.KeepsDirs u := by
  obtain ⟨x, -, -, hdir, rfl⟩ := write_eq_ok h
  exact (local_put (file c)).keepsDirs hdir

/-- Nothing but the place of the path changes. -/
theorem entry_of_write {t u : Tree} {path : String} {c : ByteArray} {x : Target}
    (h : t.write path c = .ok u) (hx : t.locateParent path = .ok (.name x)) :
    u.entry x.location = .file c ∧ ∀ p, p ≠ x.location → u.entry p = t.entry p := by
  obtain ⟨y, hy, -, hfree, rfl⟩ := write_eq_ok h
  obtain rfl := target_unique hx hy
  exact entry_put_target hx hfree c

theorem read_of_write {t u : Tree} {path : String} {c : ByteArray} (h : t.write path c = .ok u) :
    u.read path = .ok c := by
  obtain ⟨x, hx, hslash, -, rfl⟩ := write_eq_ok h
  exact read_of_target ((keepsDirs_of_write h).locateParent hx) hslash (get?_put_target hx _)

theorem move_eq_ok {t u : Tree} {source target : String} (h : t.move source target = .ok u) :
    ∃ (x y : Target) (c : ByteArray), t.locateParent source = .ok (.name x) ∧
      t.locateParent target = .ok (.name y) ∧ x.slashed = false ∧ y.slashed = false ∧
      t.get? x.location = some (file c) ∧ ¬ t.DirAt y.location ∧
      u = if x.location = y.location then t else (t.erase x.location).put y.location (file c) := by
  unfold move at h
  obtain ⟨_, -, h⟩ := bind_eq_ok.1 h
  obtain ⟨_, -, h⟩ := bind_eq_ok.1 h
  obtain ⟨src, hsource, h⟩ := bind_eq_ok.1 h
  obtain ⟨dst, htarget, h⟩ := bind_eq_ok.1 h
  cases src with
  | dots p => cases h
  | name x =>
  cases dst with
  | dots p => cases h
  | name y =>
  simp only at h
  split at h
  · cases h
  · cases h
  · rename_i c hfile
    split at h
    · cases h
    · rename_i hslash
      rw [Bool.not_eq_true, Bool.or_eq_false_iff] at hslash
      split at h
      · cases h
      · rename_i hdir
        refine ⟨x, y, c, hsource, htarget, hslash.1, hslash.2, hfile,
          fun ⟨es, hes⟩ => hdir es hes, ?_⟩
        split at h <;> cases h <;> simp [*]

theorem move_of_targets {t : Tree} {source target : String} {p q : Location} {c : ByteArray}
    (hp : t.locateParent source = .ok (.name ⟨p, false⟩))
    (hq : t.locateParent target = .ok (.name ⟨q, false⟩)) (hfile : t.get? p = some (file c))
    (hdir : ¬ t.DirAt q) : ∃ u, t.move source target = .ok u := by
  obtain ⟨_, _, _, _, hroute, -⟩ := locateParent_eq_name.1 hp
  obtain ⟨_, _, _, _, hroute', -⟩ := locateParent_eq_name.1 hq
  unfold move
  simp only [hroute, hroute', hp, hq, hfile, bind, Except.bind, Bool.or_self, Bool.false_eq_true,
    ↓reduceIte]
  split
  · rename_i es hes
    exact absurd ⟨es, hes⟩ hdir
  · split <;> exact ⟨_, rfl⟩

/-- A move takes a file from one place and puts it at another one; every directory is kept. -/
theorem keepsDirs_of_move {t u : Tree} {source target : String}
    (h : t.move source target = .ok u) : t.KeepsDirs u := by
  obtain ⟨x, y, c, hx, hy, -, -, hfile, hdir, rfl⟩ := move_eq_ok h
  have hxdir := not_dirAt_of_file hfile
  split
  · exact fun _ hp => hp
  · have hydir : ¬ (t.erase x.location).DirAt y.location :=
      fun h => hdir (local_erase.dirAt_of_op (not_prefix_of_target hy hxdir ‹_›) h)
    exact fun p hp => (local_put (file c)).keepsDirs hydir p (local_erase.keepsDirs hxdir p hp)

/-- Where a file has been taken from, no directory lies. -/
theorem not_dirAt_of_move {t u : Tree} {source target : String} {x : Target}
    (h : t.move source target = .ok u) (hx : t.locateParent source = .ok (.name x)) :
    ¬ u.DirAt x.location := by
  obtain ⟨x', y, c, hx', -, -, -, hfile, hdir, rfl⟩ := move_eq_ok h
  obtain rfl := target_unique hx hx'
  split
  · exact not_dirAt_of_file hfile
  · rename_i hne
    intro hu
    have hpre := not_prefix_of_target hx hdir (Ne.symm hne)
    obtain ⟨es, hes⟩ := (local_put (file c)).dirAt_of_op hpre hu
    obtain ⟨r, ss, s, p, -, -, -, hp, -, rfl⟩ := locateParent_eq_name.1 hx
    rw [get?_erase_self hp] at hes
    cases hes

theorem read_of_move {t u : Tree} {source target : String} {c : ByteArray}
    (h : t.move source target = .ok u) (hread : t.read source = .ok c) :
    u.read target = .ok c := by
  have hkeeps := keepsDirs_of_move h
  obtain ⟨x, y, d, hx, hy, hslash, hslash', hfile, hdir, rfl⟩ := move_eq_ok h
  obtain rfl : c = d := by
    rw [read_of_target hx hslash hfile] at hread
    cases hread
    rfl
  refine read_of_target (hkeeps.locateParent hy) hslash' ?_
  split
  · rename_i hxy
    exact hxy ▸ hfile
  · exact get?_put_target (local_erase.keepsDirs (not_dirAt_of_file hfile) |>.locateParent hy) _

/-- What a move takes from one place lies at the other one, and nothing else changes. -/
theorem entry_of_move {t u : Tree} {source target : String} {x y : Target}
    (h : t.move source target = .ok u) (hx : t.locateParent source = .ok (.name x))
    (hy : t.locateParent target = .ok (.name y)) (hxy : x.location ≠ y.location) :
    u.entry y.location = t.entry x.location ∧ u.entry x.location = .nothing ∧
      ∀ p, p ≠ x.location → p ≠ y.location → u.entry p = t.entry p := by
  obtain ⟨x', y', c, hx', hy', -, -, hfile, hdir, rfl⟩ := move_eq_ok h
  obtain rfl := target_unique hx hx'
  obtain rfl := target_unique hy hy'
  rw [if_neg hxy]
  -- first the file is taken away, then it is put at its new place
  have hxdir := not_dirAt_of_file hfile
  have hkeeps : t.KeepsDirs (t.erase x.location) := local_erase.keepsDirs hxdir
  have hydir : ¬ (t.erase x.location).DirAt y.location :=
    fun h => hdir (local_erase.dirAt_of_op (not_prefix_of_target hy hxdir hxy) h)
  obtain ⟨hnothing, herase⟩ := entry_erase_target hx hfile
  obtain ⟨hput, hothers⟩ := entry_put_target (hkeeps.locateParent hy) hydir c
  refine ⟨?_, ?_, fun p hpx hpy => (hothers p hpy).trans (herase p hpx)⟩
  · rw [hput, entry_eq_file.2 hfile]
  · rw [hothers _ hxy, hnothing]

/-- A file that has been written can be removed again; then only its place is another one. -/
theorem remove_written {t u : Tree} {path : String} {c : ByteArray} (h : t.write path c = .ok u) :
    ∃ x v, t.locateParent path = .ok (.name x) ∧ u.remove path = .ok v ∧ ¬ t.DirAt x.location ∧
      v.entry x.location = .nothing ∧ ∀ p, p ≠ x.location → v.entry p = t.entry p := by
  have hkeeps := keepsDirs_of_write h
  obtain ⟨x, hx, hslash, hdir, -⟩ := write_eq_ok h
  obtain ⟨hwritten, hothers⟩ := entry_of_write h hx
  have hfile := entry_eq_file.1 hwritten
  have hux := hkeeps.locateParent hx
  have hlocate := locate_of_target hux hslash hfile
  obtain ⟨hnothing, herase⟩ := entry_erase_target hux hfile
  refine ⟨x, u.erase x.location, hx, ?_, hdir, hnothing, fun p hp => ?_⟩
  · unfold remove
    simp only [hlocate, bind, Except.bind, hfile]
  · rw [herase p hp, hothers p hp]

end Tree

end MarketingForm.Files
