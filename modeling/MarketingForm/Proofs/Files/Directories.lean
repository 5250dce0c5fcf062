import MarketingForm.Proofs.Files.Follow
import MarketingForm.Proofs.Files.Ways

/-!
# Creating directories

Creating the directories of a path goes well if and only if its way is clear (`runOn_makeDirs_clear`,
`clear_of_makeDirs`), and then there is a directory at every place of the way and nothing else has
changed (`Opened`). Even if it fails, every file and every directory is kept (`Grown`), and all that
has come are directories where nothing was, at places of the way (`Along`). For whatever creating
directories does is done one directory after another (`Makes`).
-/

namespace MarketingForm.Files

namespace Tree

/-! ## New directories -/

/-- One tree has the files of another one and at least its directories. -/
structure Grown (t u : Tree) : Prop where
  files : ∀ p c, u.get? p = some (file c) ↔ t.get? p = some (file c)
  dirs : t.KeepsDirs u

/-- One tree differs from another one in directories at the places of a way only. -/
structure Opened (t u : Tree) (ss : List Segment) : Prop where
  files : ∀ p c, u.get? p = some (file c) ↔ t.get? p = some (file c)
  dirs : ∀ p, u.DirAt p ↔ t.DirAt p ∨ ∃ rs, rs <+: ss ∧ p = placeFrom [] rs

/-- A directory has come where nothing was, at a place of a way. -/
structure Came (t u : Tree) (ss : List Segment) (p : Location) : Prop where
  before : t.entry p = .nothing
  after : u.entry p = .directory
  onWay : ∃ rs, rs <+: ss ∧ p = placeFrom [] rs

/-- Nothing has changed but that directories have come at places of a way. -/
def Along (t u : Tree) (ss : List Segment) : Prop :=
  ∀ p, u.entry p = t.entry p ∨ t.Came u ss p

theorem Grown.refl (t : Tree) : t.Grown t := ⟨fun _ _ => Iff.rfl, fun _ h => h⟩

theorem Grown.trans {t u v : Tree} (h : t.Grown u) (h' : u.Grown v) : t.Grown v :=
  ⟨fun p c => (h'.files p c).trans (h.files p c), fun p hp => h'.dirs p (h.dirs p hp)⟩

theorem Along.refl (t : Tree) (ss : List Segment) : t.Along t ss := fun _ => .inl rfl

/-- What is as it was after directories came is as before or has come. -/
theorem Along.congr {t u v : Tree} {ss : List Segment} (h : t.Along v ss) {p : Location}
    (hp : u.entry p = v.entry p) : u.entry p = t.entry p ∨ t.Came u ss p := by
  rcases h p with hsame | hcame
  · exact .inl (hp.trans hsame)
  · exact .inr ⟨hcame.before, hp.trans hcame.after, hcame.onWay⟩

theorem Along.trans {t u v : Tree} {ss : List Segment} (h : t.Along u ss) (h' : u.Along v ss) :
    t.Along v ss := by
  intro p
  rcases h' p with hsame' | hcame'
  · exact h.congr hsame'
  · rcases h p with hsame | hcame
    · exact .inr ⟨hsame ▸ hcame'.before, hcame'.after, hcame'.onWay⟩
    · cases hcame.after.symm.trans hcame'.before

theorem Opened.grown {t u : Tree} {ss : List Segment} (h : t.Opened u ss) : t.Grown u :=
  ⟨h.files, fun p hp => (h.dirs p).2 (.inl hp)⟩

/-- A place lies at or below a new one, above it, or apart from it. -/
theorem below_or_above_or_apart (p q : Location) (s : Segment) :
    (∃ r, q = p ++ [s] ++ r) ∨ q <+: p ∨ Apart (p ++ [s]) q := by
  by_cases hdown : p ++ [s] <+: q
  · obtain ⟨r, rfl⟩ := hdown
    exact .inl ⟨r, rfl⟩
  by_cases hup : q <+: p ++ [s]
  · rcases List.prefix_concat_iff.1 hup with rfl | hup
    · exact absurd List.prefix_rfl hdown
    · exact .inr (.inl hup)
  · exact .inr (.inr ⟨hdown, hup⟩)

theorem DirAt.above {t : Tree} {p q : Location} (hp : t.DirAt p) (h : q <+: p) : t.DirAt q := by
  obtain ⟨r, rfl⟩ := h
  exact hp.of_append

/-- Below a new directory there is nothing. -/
theorem get?_put_empty_below {t : Tree} {p : Location} {s : Segment} (hp : t.DirAt p) {r : Location}
    (hr : r ≠ []) : (t.put (p ++ [s]) empty).get? (p ++ [s] ++ r) = none := by
  obtain ⟨n, r, rfl⟩ := List.exists_cons_of_ne_nil hr
  rw [get?_append, get?_put_self hp s empty]
  rfl

/-- An empty directory in a free place adds no file. -/
theorem get?_put_empty_file {t : Tree} {p : Location} {s : Segment} (hp : t.DirAt p)
    (hfree : t.get? (p ++ [s]) = none) (q : Location) (c : ByteArray) :
    (t.put (p ++ [s]) empty).get? q = some (file c) ↔ t.get? q = some (file c) := by
  rcases below_or_above_or_apart p q s with ⟨r, rfl⟩ | hup | hapart
  · refine iff_of_false ?_ ?_
    · by_cases hr : r = []
      · rw [hr, List.append_nil, get?_put_self hp s empty]
        nofun
      · rw [get?_put_empty_below hp hr]
        nofun
    · rw [get?_append, hfree]
      nofun
  · have hq := hp.above hup
    have hq' := (local_put empty).keepsDirs (not_dirAt_of_none hfree) q hq
    exact iff_of_false (hq'.get?_ne_file c) (hq.get?_ne_file c)
  · rw [(local_put empty).get?_apart hapart]

/-- An empty directory in a free place is the only new one. -/
theorem dirAt_put_empty {t : Tree} {p : Location} {s : Segment} (hp : t.DirAt p)
    (hfree : t.get? (p ++ [s]) = none) (q : Location) :
    (t.put (p ++ [s]) empty).DirAt q ↔ t.DirAt q ∨ q = p ++ [s] := by
  constructor
  · intro hq
    rcases below_or_above_or_apart p q s with ⟨r, rfl⟩ | hup | hapart
    · by_cases hr : r = []
      · exact .inr (by rw [hr, List.append_nil])
      · exact absurd hq (not_dirAt_of_none (get?_put_empty_below hp hr))
    · exact .inl (hp.above hup)
    · obtain ⟨es, hes⟩ := hq
      rw [(local_put empty).get?_apart hapart] at hes
      exact .inl ⟨es, hes⟩
  · rintro (hq | rfl)
    · exact (local_put empty).keepsDirs (not_dirAt_of_none hfree) q hq
    · exact ⟨[], get?_put_self hp s empty⟩

/-! ## One directory -/

variable {t u : Tree} {path : String}

/-- The last segment of a path with steps is the last step. -/
theorem segments_of_tight {qs : List Segment} {s : Segment} (h : Tight path)
    (hsteps : steps path = qs ++ [s]) :
    ∃ ss, segments path.toList = ss ++ [s] ∧ (ss.filter fun r => !isIdle r) = qs := by
  rcases h with h | ⟨ss, s', hsegments, hs'⟩
  · simp [h] at hsteps
  · have hlast : [s'].filter (fun r => !isIdle r) = [s'] := by simp [hs']
    rw [steps, hsegments, List.filter_append, hlast] at hsteps
    obtain ⟨hss, hs⟩ := List.append_inj' hsteps rfl
    obtain rfl : s' = s := List.singleton_inj.1 hs
    exact ⟨ss, hsegments, hss⟩

theorem makeDir_of_steps {qs : List Segment} {s : Segment} (hpath : Sound path) (h : Tight path)
    (hsteps : steps path = qs ++ [s]) :
    t.makeDir path = (t.enter [] qs).bind fun p =>
      if s = ['.', '.'] then .error .alreadyExists
      else if nameLimit < Text.utf8Length s then .error .nameTooLong
      else
        match t.get? (p ++ [s]) with
        | some _ => .error .alreadyExists
        | none => .ok (t.put (p ++ [s]) empty) := by
  obtain ⟨ss, hsegments, rfl⟩ := segments_of_tight h hsteps
  have hs : isIdle s = false := steps_not_idle path s (by simp [hsteps])
  unfold makeDir
  rw [locateParent_of_steps t hpath hsegments hs]
  cases t.enter [] (ss.filter fun r => !isIdle r) with
  | error e => rfl
  | ok p =>
    simp only [bind, Except.bind]
    by_cases hdots : s = ['.', '.']
    · simp only [hdots, ↓reduceIte]
    by_cases hlong : nameLimit < Text.utf8Length s
    · simp only [hdots, hlong, ↓reduceIte]
    · cases hget : t.get? (p ++ [s]) with
      | none => simp only [hdots, hlong, hget, ↓reduceIte]
      | some u => simp only [hdots, hlong, hget, ↓reduceIte]

theorem makeDir_of_no_steps (hpath : Sound path) (hne : path ≠ "") (hsteps : steps path = [])
    (hroot : t.DirAt []) : t.makeDir path = .error .alreadyExists := by
  unfold makeDir
  rw [locateParent_of_no_steps hpath hne hsteps hroot]
  rfl

theorem sound_of_makeDir (h : t.makeDir path = .ok u) : Sound path ∧ path ≠ "" := by
  obtain ⟨x, hx, -⟩ := bind_eq_ok.1 h
  obtain ⟨r, hroute, -⟩ := bind_eq_ok.1 hx
  exact sound_of_route hroute

theorem makeDir_eq_ok (h : t.makeDir path = .ok u) :
    ∃ (p : Location) (s : Segment), t.DirAt p ∧ t.get? (p ++ [s]) = none ∧
      place path = p ++ [s] ∧ u = t.put (p ++ [s]) empty := by
  obtain ⟨x, hx, h⟩ := bind_eq_ok.1 h
  cases x with
  | dots p => cases h
  | name x =>
    have hplace := location_of_target hx
    obtain ⟨r, ss, s, p, -, -, -, hp, -, rfl⟩ := locateParent_eq_name.1 hx
    simp only at h
    split at h
    · cases h
    · rename_i hfree
      cases h
      exact ⟨p, s, hp, hfree, hplace.symm, rfl⟩

/-- A directory is created at a path whose steps begin a way. -/
def Makes (ss : List Segment) (t u : Tree) : Prop :=
  ∃ path, steps path <+: ss ∧ t.makeDir path = .ok u

theorem Makes.grown {ss : List Segment} (h : Makes ss t u) : t.Grown u := by
  obtain ⟨path, -, h⟩ := h
  obtain ⟨p, s, hp, hfree, -, rfl⟩ := makeDir_eq_ok h
  exact ⟨get?_put_empty_file hp hfree, fun q hq => (dirAt_put_empty hp hfree q).2 (.inl hq)⟩

theorem Makes.along {ss : List Segment} (h : Makes ss t u) : t.Along u ss := by
  obtain ⟨path, hpre, h⟩ := h
  obtain ⟨p, s, hp, hfree, hplace, rfl⟩ := makeDir_eq_ok h
  intro q
  by_cases hq : q = p ++ [s]
  · subst hq
    exact .inr ⟨entry_eq_nothing.2 hfree,
      entry_eq_directory.2 ((dirAt_put_empty hp hfree _).2 (.inr rfl)), steps path, hpre, hplace.symm⟩
  · refine .inl (entry_congr ?_ (get?_put_empty_file hp hfree q))
    rw [dirAt_put_empty hp hfree q, or_iff_left hq]

/-- One directory after another, every file and every directory is kept. -/
theorem grown_of_makes {ss : List Segment} (h : Relation.ReflTransGen (Makes ss) t u) :
    t.Grown u := by
  induction h with
  | refl => exact Grown.refl t
  | tail _ hlast ih => exact ih.trans hlast.grown

/-- One directory after another, only directories come. -/
theorem along_of_makes {ss : List Segment} (h : Relation.ReflTransGen (Makes ss) t u) :
    t.Along u ss := by
  induction h with
  | refl => exact Along.refl t ss
  | tail _ hlast ih => exact ih.trans hlast.along

/-- A clear way stays clear while only directories come. -/
theorem Clear.of_grown {ss : List Segment} (h : u.Clear [] ss) (hgrown : t.Grown u) :
    t.Clear [] ss :=
  ⟨h.names, fun rs hrs c hc => h.places rs hrs c ((hgrown.files _ c).2 hc)⟩

theorem Clear.grow {ss : List Segment} (h : t.Clear [] ss) (hgrown : t.Grown u) :
    u.Clear [] ss :=
  ⟨h.names, fun rs hrs c hc => h.places rs hrs c ((hgrown.files _ c).1 hc)⟩

theorem clear_of_makeDir (hpath : Tight path) (h : t.makeDir path = .ok u) :
    t.Clear [] (steps path) := by
  obtain ⟨hsound, hne⟩ := sound_of_makeDir h
  rcases List.eq_nil_or_concat (steps path) with hnil | ⟨qs, s, hsteps⟩
  · rw [hnil]
    refine ⟨by simp, fun rs hrs => ?_⟩
    rw [List.prefix_nil.1 hrs]
    obtain ⟨p, s, hp, -⟩ := makeDir_eq_ok h
    exact (hp.of_append (p := [])).get?_ne_file
  · rw [List.concat_eq_append] at hsteps
    have hidle := steps_not_idle path
    rw [makeDir_of_steps hsound hpath hsteps] at h
    rw [hsteps] at hidle ⊢
    have hqs : ∀ r ∈ qs, isIdle r = false := fun r hr => hidle r (by simp [hr])
    obtain ⟨p, hp, h⟩ := bind_eq_ok.1 h
    obtain ⟨rfl, -, -⟩ := dirAt_of_enter hqs hp
    split at h
    · cases h
    rename_i hdots
    split at h
    · cases h
    rename_i hlong
    split at h
    · cases h
    rename_i hfree
    refine clear_concat (clear_of_enter hqs hp) hlong fun c hc => ?_
    rw [onward, if_neg hdots, hfree] at hc
    cases hc

theorem clear_of_isDirPath (h : t.isDirPath path = true) : t.Clear [] (steps path) := by
  obtain ⟨-, -, p, hp⟩ := isDirPath_iff.1 h
  exact clear_of_enter (steps_not_idle path) hp

/-- A way along directories is opened by nothing. -/
theorem opened_of_dirs {ss : List Segment} (h : ∀ rs, rs <+: ss → t.DirAt (placeFrom [] rs)) :
    t.Opened t ss := by
  refine ⟨fun _ _ => Iff.rfl, fun q => ⟨.inl, ?_⟩⟩
  rintro (hq | ⟨rs, hrs, rfl⟩)
  · exact hq
  · exact h rs hrs

/-- A new directory opens the last step of a way. -/
theorem opened_put {qs : List Segment} {s : Segment} (hdots : s ≠ ['.', '.'])
    (hdirs : ∀ rs, rs <+: qs → t.DirAt (placeFrom [] rs))
    (hfree : t.get? (placeFrom [] qs ++ [s]) = none) :
    t.Opened (t.put (placeFrom [] qs ++ [s]) empty) (qs ++ [s]) := by
  have hplace : placeFrom [] (qs ++ [s]) = placeFrom [] qs ++ [s] := by
    rw [placeFrom_concat, onward, if_neg hdots]
  have hhere := hdirs qs List.prefix_rfl
  refine ⟨get?_put_empty_file hhere hfree, fun q => ?_⟩
  rw [dirAt_put_empty hhere hfree]
  constructor
  · rintro (hq | rfl)
    · exact .inl hq
    · exact .inr ⟨qs ++ [s], List.prefix_rfl, hplace.symm⟩
  · rintro (hq | ⟨rs, hrs, rfl⟩)
    · exact .inl hq
    · rcases List.prefix_concat_iff.1 hrs with rfl | hrs
      · exact .inr hplace
      · exact .inl (hdirs rs hrs)

/-- Where the way leads to its last step, a directory is there or comes there. -/
theorem makeDir_clear {qs : List Segment} {s : Segment} {p : Location} (hsound : Sound path)
    (hpath : Tight path) (hsteps : steps path = qs ++ [s]) (hclear : t.Clear [] (steps path))
    (hp : t.enter [] qs = .ok p) :
    (∃ u, t.makeDir path = .ok u ∧ t.Opened u (steps path)) ∨
      (t.makeDir path = .error .alreadyExists ∧ t.isDirPath path = true ∧
        t.Opened t (steps path)) := by
  have hne : path ≠ "" := by
    rintro rfl
    simp [steps, segments, isIdle] at hsteps
  have hidle := steps_not_idle path
  rw [isDirPath_iff, makeDir_of_steps hsound hpath hsteps, hp]
  rw [hsteps] at hidle hclear ⊢
  have hqs : ∀ r ∈ qs, isIdle r = false := fun r hr => hidle r (by simp [hr])
  obtain ⟨rfl, hnames, hdirs⟩ := dirAt_of_enter hqs hp
  have hlong := hclear.names s (by simp)
  have hplace := hclear.places (qs ++ [s]) List.prefix_rfl
  -- a directory at the last place opens the whole way
  have hopen : t.DirAt (onward (placeFrom [] qs) s) →
      (∃ q, t.enter [] (qs ++ [s]) = .ok q) ∧ t.Opened t (qs ++ [s]) := by
    intro hlast
    have hall := forall_place_concat.2 ⟨hdirs, hlast⟩
    exact ⟨⟨_, enter_of_dirs hidle hclear hall⟩, opened_of_dirs hall⟩
  rw [placeFrom_concat] at hplace
  simp only [Except.bind]
  by_cases hdots : s = ['.', '.']
  · rw [if_pos hdots]
    have hup : t.DirAt (onward (placeFrom [] qs) s) := by
      rw [onward, if_pos hdots]
      exact (hdirs qs List.prefix_rfl).above (List.dropLast_prefix _)
    obtain ⟨hway, hopened⟩ := hopen hup
    exact .inr ⟨rfl, ⟨hsound, hne, hway⟩, hopened⟩
  · rw [if_neg hdots, if_neg hlong]
    rw [onward, if_neg hdots] at hopen hplace
    cases hlast : t.get? (placeFrom [] qs ++ [s]) with
    | none => exact .inl ⟨_, rfl, opened_put hdots hdirs hlast⟩
    | some x =>
      cases x with
      | file c => exact absurd hlast (hplace c)
      | dir es =>
        obtain ⟨hway, hopened⟩ := hopen ⟨es, hlast⟩
        exact .inr ⟨rfl, ⟨hsound, hne, hway⟩, hopened⟩

end Tree

/-! ## One directory after another -/

namespace Follows

variable {σ : Type} [Disk (StateM σ)] {tree : σ → Tree} {Spared : String → Prop} {path : String}
  {ss : List Segment} (hdisk : Follows tree Spared)
include hdisk

theorem takes_makeDir (hpre : steps path <+: ss) :
    Takes tree (Tree.Makes ss) (Disk.makeDir path : ExceptT FileError (StateM σ) Unit) := by
  intro s
  rcases hdisk.makeDir (Prod.eta (runOn s (Disk.makeDir path))).symm with hsame | hmake
  · rw [hsame]
  · exact .single ⟨path, hpre, hmake⟩

/-- To ask for a directory changes nothing. -/
theorem takes_unlessDir {R : Tree → Tree → Prop} (path : String) (e : FileError) :
    Takes tree R ((do if ← (Disk.isDir path : StateM σ Bool) then pure () else throw e) :
      ExceptT FileError (StateM σ) Unit) := by
  refine Takes.after_question (fun s => hdisk.isDir s path) fun b => ?_
  cases b with
  | false => exact takes_throw e
  | true => exact takes_pure ()

theorem takes_ensureDir (hpre : steps path <+: ss) :
    Takes tree (Tree.Makes ss) (ensureDir path : ExceptT FileError (StateM σ) Unit) :=
  (hdisk.takes_makeDir hpre).tryCatch fun e => hdisk.takes_unlessDir path e

/-- Directories are created at paths whose steps begin the way, one after another. -/
theorem takes_makeDirsTo (depth : Nat) (hpre : steps path <+: ss) :
    Takes tree (Tree.Makes ss) (makeDirsTo depth path : ExceptT FileError (StateM σ) Unit) := by
  induction depth generalizing path with
  | zero => exact takes_pure ()
  | succ depth ih =>
    unfold makeDirsTo
    split
    · exact takes_pure ()
    refine (hdisk.takes_makeDir hpre).tryCatch fun e => ?_
    split
    · split
      · rename_i parent hparent
        have hparents : steps parent <+: ss := by
          rw [steps_parent hparent]
          exact (List.dropLast_prefix _).trans hpre
        exact (ih hparents).bind fun _ => hdisk.takes_ensureDir hpre
      · exact takes_throw e
    · exact hdisk.takes_unlessDir path e

/-- Creating directories brings directories on the way, even if it fails, and nothing else. -/
theorem along_of_makeDirs {s s' : σ} {r : Except FileError Unit}
    (h : runOn s (makeDirs path) = (r, s')) : (tree s).Along (tree s') (steps path) := by
  have hmakes := hdisk.takes_makeDirsTo (path.length + 1) (List.prefix_refl (steps path)) s
  unfold makeDirs at h
  rw [h] at hmakes
  exact Tree.along_of_makes hmakes

end Follows

/-! ## Directories with their parents -/

section

variable {t u : Tree} {path : String} {a : Unit}

theorem runOn_makeDir (t : Tree) (path : String) :
    runOn t (Disk.makeDir path) =
      match t.makeDir path with
      | .ok u => (.ok (), u)
      | .error e => (.error e, t) := rfl

/-- An error counts only if there is no directory. -/
theorem runOn_unlessDir (t : Tree) (path : String) (e : FileError) :
    runOn t ((do if ← (Disk.isDir path : StateM Tree Bool) then pure () else throw e) :
      ExceptT FileError (StateM Tree) Unit) =
      (if t.isDirPath path then .ok () else .error e, t) := by
  have hask : runOn t ((do if ← (Disk.isDir path : StateM Tree Bool) then pure () else throw e) :
      ExceptT FileError (StateM Tree) Unit) =
      runOn t (if t.isDirPath path then pure () else throw e) := rfl
  rw [hask]
  cases t.isDirPath path <;> rfl

theorem runOn_ensureDir (t : Tree) (path : String) :
    runOn t (ensureDir path) =
      match t.makeDir path with
      | .ok u => (.ok (), u)
      | .error e => (if t.isDirPath path then .ok () else .error e, t) := by
  unfold ensureDir
  rw [runOn_tryCatch, runOn_makeDir]
  cases t.makeDir path with
  | ok u => rfl
  | error e => exact runOn_unlessDir t path e

theorem runOn_makeDirsTo (t : Tree) (depth : Nat) {path : String} (h : path ≠ "") :
    runOn t (makeDirsTo (depth + 1) path) =
      match t.makeDir path with
      | .ok u => (.ok (), u)
      | .error e =>
        if e = .notFound then
          match parent? path with
          | some parent => runOn t (makeDirsTo depth parent >>= fun _ => ensureDir path)
          | none => (.error e, t)
        else (if t.isDirPath path then .ok () else .error e, t) := by
  rw [makeDirsTo, if_neg h, runOn_tryCatch, runOn_makeDir]
  cases t.makeDir path with
  | ok u => rfl
  | error e =>
    simp only
    by_cases he : e = .notFound
    · rw [if_pos he, if_pos he]
      cases parent? path <;> rfl
    · rw [if_neg he, if_neg he]
      exact runOn_unlessDir t path e

theorem grown_of_makeDirsTo {depth : Nat} {r : Except FileError Unit}
    (h : runOn t (makeDirsTo depth path) = (r, u)) : t.Grown u := by
  have hmakes := Tree.follows.takes_makeDirsTo depth (List.prefix_refl (steps path)) t
  rw [h] at hmakes
  exact Tree.grown_of_makes hmakes

/-- Creating directories keeps all files and all directories, even if it fails. -/
theorem grown_of_makeDirs {r : Except FileError Unit} (h : runOn t (makeDirs path) = (r, u)) :
    t.Grown u := grown_of_makeDirsTo h

/-! ## Clear ways -/

/-- The parent of a path with steps has all of them but the last one. -/
theorem parent_of_steps {qs : List Segment} {s : Segment} (hsteps : steps path = qs ++ [s]) :
    ∃ parent, parent? path = some parent ∧ steps parent = qs ∧ Tight parent ∧
      parent.toList <+: path.toList := by
  cases hparent : parent? path with
  | none => simp [steps_eq_nil_of_parent?_eq_none hparent] at hsteps
  | some parent =>
    obtain ⟨hpre, htight, ⟨hnil, -⟩ | ⟨s', hsteps'⟩⟩ := parent?_eq_some hparent
    · simp [hnil] at hsteps
    · obtain ⟨hqs, -⟩ := List.append_inj' (hsteps'.symm.trans hsteps) rfl
      exact ⟨parent, rfl, hqs, htight, hpre⟩

theorem Tree.Opened.trans {v : Tree} {qs : List Segment} {s : Segment} (h : t.Opened u qs)
    (h' : u.Opened v (qs ++ [s])) : t.Opened v (qs ++ [s]) := by
  refine ⟨fun p c => (h'.files p c).trans (h.files p c), fun p => ?_⟩
  rw [h'.dirs, h.dirs, or_assoc]
  refine or_congr_right ⟨?_, .inr⟩
  rintro (⟨rs, hrs, rfl⟩ | h)
  · exact ⟨rs, hrs.trans (List.prefix_append qs [s]), rfl⟩
  · exact h

theorem runOn_ensureDir_clear {qs : List Segment} {s : Segment} {p : Location}
    (hsound : Tree.Sound path) (hpath : Tight path) (hsteps : steps path = qs ++ [s])
    (hclear : t.Clear [] (steps path)) (hp : t.enter [] qs = .ok p) :
    ∃ u, runOn t (ensureDir path) = (.ok (), u) ∧ t.Opened u (steps path) := by
  rw [runOn_ensureDir]
  rcases Tree.makeDir_clear hsound hpath hsteps hclear hp with
    ⟨u, hmake, hopened⟩ | ⟨hmake, hdir, hopened⟩
  · exact ⟨u, by rw [hmake], hopened⟩
  · exact ⟨t, by rw [hmake]; simp only [hdir, ↓reduceIte], hopened⟩

theorem Tree.Opened.refl_of_no_steps (hroot : t.DirAt []) : t.Opened t [] := by
  refine Tree.opened_of_dirs fun rs hrs => ?_
  rw [List.prefix_nil.1 hrs]
  exact hroot

theorem runOn_makeDirsTo_clear {depth : Nat} (hsound : Tree.Sound path) (hpath : Tight path)
    (hroot : t.DirAt []) (hclear : t.Clear [] (steps path)) (hdepth : (steps path).length < depth) :
    ∃ u, runOn t (makeDirsTo depth path) = (.ok (), u) ∧ t.Opened u (steps path) := by
  induction depth generalizing path with
  | zero => exact absurd hdepth (Nat.not_lt_zero _)
  | succ depth ih =>
    by_cases hne : path = ""
    · subst hne
      exact ⟨t, rfl, Tree.Opened.refl_of_no_steps hroot⟩
    rw [runOn_makeDirsTo t depth hne]
    rcases List.eq_nil_or_concat (steps path) with hnil | ⟨qs, s, hsteps⟩
    · have hdir : t.isDirPath path = true := by
        rw [Tree.isDirPath_iff, hnil]
        exact ⟨hsound, hne, [], Tree.enter_eq_ok.2 ⟨rfl, hroot⟩⟩
      rw [Tree.makeDir_of_no_steps hsound hne hnil hroot, hdir, hnil]
      exact ⟨t, rfl, Tree.Opened.refl_of_no_steps hroot⟩
    rw [List.concat_eq_append] at hsteps
    have hqs : ∀ r ∈ qs, isIdle r = false :=
      fun r hr => Tree.steps_not_idle path r (by simp [hsteps, hr])
    have hclearqs : t.Clear [] qs := by
      rw [hsteps] at hclear
      exact hclear.of_concat
    cases hp : t.enter [] qs with
    | ok p =>
      rcases Tree.makeDir_clear hsound hpath hsteps hclear hp with
        ⟨u, hmake, hopened⟩ | ⟨hmake, hdir, hopened⟩
      · exact ⟨u, by rw [hmake], hopened⟩
      · refine ⟨t, ?_, hopened⟩
        rw [hmake]
        simp only [hdir, ↓reduceIte, reduceCtorEq]
    | error e =>
      obtain rfl := hclearqs.enter_error hqs hp
      obtain ⟨parent, hparent, rfl, htight, hpre⟩ := parent_of_steps hsteps
      have hdepth' : (steps parent).length < depth := by
        rw [hsteps, List.length_append] at hdepth
        simpa using hdepth
      obtain ⟨v, hv, hopened⟩ := ih (hsound.of_prefix hpre) htight hclearqs hdepth'
      have hway : v.enter [] (steps parent) = .ok (Tree.placeFrom [] (steps parent)) :=
        Tree.enter_of_dirs hqs (hclearqs.grow hopened.grown)
          fun rs hrs => (hopened.dirs _).2 (.inr ⟨rs, hrs, rfl⟩)
      obtain ⟨u, hu, hopened'⟩ :=
        runOn_ensureDir_clear hsound hpath hsteps (hclear.grow hopened.grown) hway
      refine ⟨u, ?_, ?_⟩
      · rw [Tree.makeDir_of_steps hsound hpath hsteps, hp]
        simp only [Except.bind, ↓reduceIte, hparent]
        rw [runOn_bind, hv]
        exact hu
      · rw [hsteps] at hopened' ⊢
        exact hopened.trans hopened'

theorem length_steps_le (path : String) : (steps path).length ≤ path.length := by
  unfold steps String.length
  induction path.toList with
  | nil => simp [segments, isIdle]
  | cons c r ih =>
    obtain ⟨s, ss, hs⟩ := List.exists_cons_of_ne_nil (segments_ne_nil r)
    have hfirst : ∀ x : Segment, ((x :: ss).filter fun s => !isIdle s).length ≤
        ((s :: ss).filter fun s => !isIdle s).length + 1 := by
      intro x
      simp only [List.filter_cons]
      split <;> split <;> simp
      omega
    rw [hs] at ih
    rw [segments, hs]
    split
    · have hnil : (([] :: s :: ss).filter fun s => !isIdle s) = (s :: ss).filter fun s => !isIdle s := by
        simp [List.filter_cons, isIdle]
      rw [hnil]
      simp only [List.length_cons]
      omega
    · have := hfirst (c :: s)
      simp only [List.length_cons] at this ⊢
      omega

/-- On a clear way all directories come. -/
theorem runOn_makeDirs_clear (hsound : Tree.Sound path) (hpath : Tight path) (hroot : t.DirAt [])
    (hclear : t.Clear [] (steps path)) :
    ∃ u, runOn t (makeDirs path) = (.ok (), u) ∧ t.Opened u (steps path) :=
  runOn_makeDirsTo_clear hsound hpath hroot hclear (Nat.lt_succ_of_le (length_steps_le path))

theorem clear_of_ensureDir (hpath : Tight path) (h : runOn t (ensureDir path) = (.ok a, u)) :
    t.Clear [] (steps path) := by
  rw [runOn_ensureDir] at h
  cases hmake : t.makeDir path with
  | ok v => exact Tree.clear_of_makeDir hpath hmake
  | error e =>
    rw [hmake] at h
    by_cases hdir : t.isDirPath path = true
    · exact Tree.clear_of_isDirPath hdir
    · simp only [hdir] at h
      cases h

theorem clear_of_makeDirsTo {depth : Nat} (hpath : Tight path) (hroot : t.DirAt [])
    (hdepth : (steps path).length < depth) (h : runOn t (makeDirsTo depth path) = (.ok a, u)) :
    t.Clear [] (steps path) := by
  cases depth with
  | zero => exact absurd hdepth (Nat.not_lt_zero _)
  | succ depth =>
    by_cases hne : path = ""
    · subst hne
      exact Tree.clear_of_enter (by decide) (Tree.enter_eq_ok.2 ⟨rfl, hroot⟩ :
        t.enter [] (steps "") = .ok [])
    rw [runOn_makeDirsTo t depth hne] at h
    cases hmake : t.makeDir path with
    | ok v => exact Tree.clear_of_makeDir hpath hmake
    | error e =>
      simp only [hmake] at h
      split at h
      · split at h
        · rename_i parent hparent
          obtain ⟨_, v, hdirs, hensure⟩ := runOn_bind_eq_ok.1 h
          exact (clear_of_ensureDir hpath hensure).of_grown (grown_of_makeDirsTo hdirs)
        · cases h
      · by_cases hdir : t.isDirPath path = true
        · exact Tree.clear_of_isDirPath hdir
        · simp only [hdir] at h
          cases h

/-- The way on which all directories came was clear. -/
theorem clear_of_makeDirs (hpath : Tight path) (hroot : t.DirAt [])
    (h : runOn t (makeDirs path) = (.ok a, u)) : t.Clear [] (steps path) :=
  clear_of_makeDirsTo hpath hroot (Nat.lt_succ_of_le (length_steps_le path)) h

end

end MarketingForm.Files
