import MarketingForm.Proofs.Files.Names
import MarketingForm.Proofs.Form.RoundTrip

/-!
# Form files

A form that has been saved is loaded again. A save that fails leaves the file at the place of the path as
it was (`kept_of_save`), and a save goes well where a name and a longer one beside it may be written
(`Savable.save`). If the path leads to the file at its place whenever there is one, it still does after
any save (`reached_of_save`).
-/

namespace MarketingForm

open Files

variable {t u : Tree} {path : String} {form : Form}

/-! ## Loading -/

/-- The form in a file. -/
def formIn (t : Tree) (path : String) : Except FormFileError Form :=
  if (t.locate path).isOk then
    match t.text path with
    | .ok text =>
      match Form.ofYaml text with
      | .ok form => .ok form
      | .error fault => .error (.parse path fault)
    | .error e => .error (.io e)
  else .error (.notFound path)

theorem runOn_load (t : Tree) (path : String) :
    runOn t (Form.load path) = (formIn t path, t) := by
  have hload : runOn t (Form.load path) = runOn t
      (if (t.locate path).isOk then do
        let text ← (readText path).adapt .io
        match Form.ofYaml text with
        | .ok form => pure form
        | .error fault => throw (.parse path fault)
      else throw (.notFound path) : ExceptT FormFileError (StateM Tree) Form) := rfl
  rw [hload, formIn]
  split
  · rw [runOn_bind, runOn_adapt, runOn_readText]
    cases t.text path with
    | error e => rfl
    | ok text =>
      show runOn t _ = _
      simp only
      cases Form.ofYaml text <;> rfl
  · rfl

theorem locate_of_text {s : String} (h : t.text path = .ok s) : (t.locate path).isOk = true := by
  obtain ⟨c, hread⟩ := read_of_text h
  obtain ⟨p, hlocate, -⟩ := Tree.read_eq_ok.1 hread
  rw [hlocate]
  rfl

theorem formIn_of_text (h : t.text path = .ok form.toYaml) : formIn t path = .ok form := by
  rw [formIn, if_pos (locate_of_text h), h]
  simp only [Form.ofYaml_toYaml]

/-! ## Saving -/

/-- Creates the directories around a form file. -/
def makeFormDirs {m : Type → Type} [Monad m] [Disk m] (path : String) :
    ExceptT FormFileError m Unit :=
  match (parent? path).filter (· != "") with
  | some parent => (makeDirs parent).adapt .io
  | none => pure ()

theorem runOn_save {σ : Type} [Disk (StateM σ)] (s : σ) (path : String) (form : Form) :
    runOn s (Form.save path form) = runOn s (makeFormDirs path >>= fun _ =>
      replaceText (Form.besidePath path) path form.toYaml .io .io) := by
  unfold Form.save makeFormDirs
  generalize (replaceText (Form.besidePath path) path form.toYaml .io .io :
    ExceptT FormFileError (StateM σ) Unit) = x
  cases (parent? path).filter (· != "") <;> rfl

theorem runOn_save_eq_ok {a : Unit} :
    runOn t (Form.save path form) = (.ok a, u) ↔
      ∃ v, runOn t (makeFormDirs path) = (.ok (), v) ∧
        runOn v (replaceText (Form.besidePath path) path form.toYaml .io .io :
          ExceptT FormFileError (StateM Tree) Unit) = (.ok a, u) := by
  rw [runOn_save, runOn_bind_eq_ok]
  exact ⟨fun ⟨_, v, h⟩ => ⟨v, h⟩, fun ⟨v, h⟩ => ⟨(), v, h⟩⟩

theorem text_of_save {a : Unit} (h : runOn t (Form.save path form) = (.ok a, u)) :
    u.text path = .ok form.toYaml := by
  obtain ⟨v, -, hreplace⟩ := runOn_save_eq_ok.1 h
  exact text_of_replaceText hreplace

/-! ## The file beside a form file -/

theorem isFileName_beside {name : String} (h : '/' ∉ name.toList) : IsFileName (name ++ ".tmp") where
  slash := by
    rw [String.toList_append, List.mem_append, not_or]
    exact ⟨h, by decide⟩
  length := by simp

theorem slash_not_mem_of_mem_steps {s : Segment} (h : s ∈ steps path) : '/' ∉ s :=
  slash_not_mem_of_mem_segments (List.mem_filter.1 h).1

/-- Where the name at the end of a path and the name beside it lie. -/
theorem besidePath_of_fileName {name : String} (h : fileName? path = some name) :
    ∃ parent, parent? path = some parent ∧ steps path = steps parent ++ [name.toList] ∧
      name.toList ≠ ['.', '.'] ∧ IsFileName (name ++ ".tmp") ∧
        Form.besidePath path = join parent (name ++ ".tmp") := by
  obtain ⟨parent, hparent, hsteps, hdots⟩ := fileName?_eq_some h
  have hmem : name.toList ∈ steps path := by simp [hsteps]
  have hslash : '/' ∉ name.toList := slash_not_mem_of_mem_steps hmem
  refine ⟨parent, hparent, hsteps, hdots, isFileName_beside hslash, ?_⟩
  rw [Form.besidePath, withFileName, h, hparent]
  rfl

theorem place_of_fileName {name parent : String} (hsteps : steps path = steps parent ++ [name.toList])
    (hdots : name.toList ≠ ['.', '.']) : place path = place parent ++ [name.toList] := by
  rw [place, hsteps, Tree.placeFrom_concat, Tree.onward, if_neg hdots]
  rfl

/-- The file beside a form file is another one. -/
theorem place_ne_beside (path : String) : ¬ place (Form.besidePath path) <+: place path := by
  have hlength : ∀ {p q : Location}, q.length < p.length → ¬ p <+: q := fun h hpre =>
    Nat.not_lt.2 hpre.length_le h
  cases hname : fileName? path with
  | some name =>
    obtain ⟨parent, -, hsteps, hdots, hbeside, hpath⟩ := besidePath_of_fileName hname
    rw [hpath, hbeside.entry.place_join, place_of_fileName hsteps hdots, List.prefix_append_right_inj,
      List.cons_prefix_cons]
    simp
  | none =>
    have hbeside : IsFileName ("" ++ ".tmp") := isFileName_beside (by simp)
    have hpath : Form.besidePath path = join path ("" ++ ".tmp") := by
      rw [Form.besidePath, withFileName, hname]
      rfl
    rw [hpath, hbeside.entry.place_join]
    exact hlength (by simp)

/-! ## Saves that fail -/

theorem fileAt_congr {p : Location}
    (h : ∀ c, u.get? p = some (.file c) ↔ t.get? p = some (.file c)) : u.fileAt p = t.fileAt p := by
  refine Option.ext fun c => ?_
  rw [Tree.fileAt_eq_some, Tree.fileAt_eq_some, h]

theorem grown_of_makeFormDirs {r : Except FormFileError Unit}
    (h : runOn t (makeFormDirs path) = (r, u)) : t.Grown u := by
  unfold makeFormDirs at h
  split at h
  · rw [runOn_adapt] at h
    obtain ⟨-, rfl⟩ := Prod.mk.inj h
    exact grown_of_makeDirs rfl
  · cases h
    exact Tree.Grown.refl t

/-- A save that fails keeps the directories and the file at the place of the path. -/
theorem kept_of_save {e : FormFileError} (h : runOn t (Form.save path form) = (.error e, u)) :
    t.KeepsDirs u ∧ u.fileAt (place path) = t.fileAt (place path) := by
  rw [runOn_save, runOn_bind] at h
  cases hdirs : runOn t (makeFormDirs path) with
  | mk r v =>
    have hgrown := grown_of_makeFormDirs hdirs
    have hfile : v.fileAt (place path) = t.fileAt (place path) :=
      fileAt_congr (hgrown.files (place path))
    rw [hdirs] at h
    cases r with
    | error e' =>
      cases h
      exact ⟨hgrown.dirs, hfile⟩
    | ok a =>
      rcases aside_of_replaceText h with rfl | ⟨x, hx, haside⟩
      · exact ⟨hgrown.dirs, hfile⟩
      · have hplace : place path ≠ x.location := by
          rw [location_of_target hx]
          intro heq
          exact place_ne_beside path ⟨[], by rw [List.append_nil, heq]⟩
        exact ⟨fun p hp => haside.dirs p (hgrown.dirs p hp),
          (fileAt_congr (haside.files _ hplace)).trans hfile⟩

theorem keepsDirs_of_save {r : Except FormFileError Unit}
    (h : runOn t (Form.save path form) = (r, u)) : t.KeepsDirs u := by
  cases r with
  | error e => exact (kept_of_save h).1
  | ok a =>
    obtain ⟨v, hdirs, hreplace⟩ := runOn_save_eq_ok.1 h
    exact fun p hp => keepsDirs_of_replaceText hreplace p ((grown_of_makeFormDirs hdirs).dirs p hp)

/-- A file at the place of a path is the one that is read at the path. -/
def Reached (t : Tree) (path : String) : Prop :=
  ∀ c, t.fileAt (place path) = some c → t.read path = .ok c

theorem fileAt_of_read {c : ByteArray} (hroot : t.DirAt []) (h : t.read path = .ok c) :
    t.fileAt (place path) = some c := by
  obtain ⟨x, hx, -, hfile⟩ := Tree.target_of_read hroot h
  rwa [← location_of_target hx, Tree.fileAt_eq_some]

theorem Reached.read_eq (h : Reached t path) (hroot : t.DirAt []) :
    (t.read path).toOption = t.fileAt (place path) := by
  refine Option.ext fun c => ?_
  rw [toOption_eq_some]
  exact ⟨fileAt_of_read hroot, h c⟩

theorem reached_of_save {r : Except FormFileError Unit} (hroot : t.DirAt []) (hreached : Reached t path)
    (h : runOn t (Form.save path form) = (r, u)) : Reached u path := by
  intro c hc
  cases r with
  | error e =>
    obtain ⟨hkeeps, hfile⟩ := kept_of_save h
    rw [hfile] at hc
    obtain ⟨x, hx, hslash, -⟩ := Tree.target_of_read hroot (hreached c hc)
    rw [← hfile, Tree.fileAt_eq_some] at hc
    exact Tree.read_of_target (hkeeps.locateParent hx) hslash (by rwa [location_of_target hx])
  | ok a =>
    obtain ⟨v, hdirs, hreplace⟩ := runOn_save_eq_ok.1 h
    obtain ⟨w, hwrite, hmove⟩ := runOn_replaceText_eq_ok.1 hreplace
    have hread := Tree.read_of_move hmove (Tree.read_of_write hwrite)
    rw [fileAt_of_read (keepsDirs_of_save h [] hroot) hread] at hc
    cases hc
    exact hread

/-! ## Saves that go well -/

/-- A form can be saved at a path that ends in a name: the path and the name have room for the longer
name beside it, no file lies on the way to the directory, and neither at the place of the path nor
beside it a directory lies or comes on that way. -/
structure Savable (t : Tree) (path name : String) : Prop where
  named : fileName? path = some name
  ending : ∃ ss, Files.segments path.toList = ss ++ [name.toList]
  sound : Tree.Sound path
  soundBeside : Tree.Sound (Form.besidePath path)
  length : ¬ nameLimit < Text.utf8Length (name ++ ".tmp").toList
  root : t.DirAt []
  clear : t.Clear [] (steps path).dropLast
  free : ∀ p ∈ [place path, place (Form.besidePath path)],
    ¬ t.DirAt p ∧ ∀ rs, rs <+: (steps path).dropLast → Tree.placeFrom [] rs ≠ p

theorem runOn_makeFormDirs_clear {parent : String} (hsound : Tree.Sound path)
    (hparent : parent? path = some parent) (hroot : t.DirAt []) (hclear : t.Clear [] (steps parent)) :
    ∃ u, runOn t (makeFormDirs path) = (.ok (), u) ∧ t.Opened u (steps parent) := by
  obtain ⟨hpre, htight, -⟩ := parent?_eq_some hparent
  unfold makeFormDirs
  rw [hparent]
  by_cases hempty : parent = ""
  · subst hempty
    exact ⟨t, rfl, Tree.Opened.refl_of_no_steps hroot⟩
  · have hkept : (some parent).filter (· != "") = some parent := by simp [hempty]
    obtain ⟨u, hu, hopened⟩ :=
      runOn_makeDirs_clear (hsound.of_prefix hpre) htight hroot hclear
    rw [hkept]
    exact ⟨u, runOn_adapt_eq_ok.2 hu, hopened⟩

/-- The path leads to its place once the directory of its parent is there. -/
theorem Savable.locateParent {name parent : String} (h : Savable t path name) {u : Tree}
    (hsteps : steps path = steps parent ++ [name.toList]) (hdots : name.toList ≠ ['.', '.'])
    (hway : u.enter [] (steps parent) = .ok (place parent)) :
    u.locateParent path = .ok (.name ⟨place path, false⟩) := by
  obtain ⟨ss, hending⟩ := h.ending
  have hidle : isIdle name.toList = false := Tree.steps_not_idle path _ (by simp [hsteps])
  have hshort : ¬ nameLimit < Text.utf8Length name.toList := by
    have hlength := h.length
    rw [String.toList_append, Tree.utf8Length_append] at hlength
    omega
  have hss : (ss.filter fun s => !isIdle s) = steps parent := by
    have hboth : steps path = (ss.filter fun s => !isIdle s) ++ [name.toList] := by
      rw [steps, hending, List.filter_append]
      simp [hidle]
    exact List.append_cancel_right (hboth.symm.trans hsteps)
  rw [Tree.locateParent_of_steps u h.sound hending hidle, hss, hway, place_of_fileName hsteps hdots]
  simp only [Except.bind, hdots, hshort, ↓reduceIte]

/-- The directories come, and then the form can be written beside its place and moved there. -/
theorem Savable.dirs {name : String} (h : Savable t path name) :
    ∃ u, runOn t (makeFormDirs path) = (.ok (), u) ∧
      u.locateParent path = .ok (.name ⟨place path, false⟩) ∧
      u.locateParent (Form.besidePath path) =
        .ok (.name ⟨place (Form.besidePath path), false⟩) ∧
      (∀ p ∈ [place path, place (Form.besidePath path)], ¬ u.DirAt p) ∧
      ∀ rs, rs <+: (steps path).dropLast → u.DirAt (Tree.placeFrom [] rs) := by
  obtain ⟨parent, hparent, hsteps, hdots, hbeside, hpath⟩ := besidePath_of_fileName h.named
  have hclear := h.clear
  have hfree := h.free
  rw [hsteps, List.dropLast_concat] at hclear hfree ⊢
  obtain ⟨u, hdirs, hopened⟩ := runOn_makeFormDirs_clear h.sound hparent h.root hclear
  have hway := enter_of_opened hopened hclear (Tree.steps_not_idle parent)
  refine ⟨u, hdirs, h.locateParent hsteps hdots hway, ?_, fun p hp => ?_, fun rs hrs => ?_⟩
  · have hsound := h.soundBeside
    rw [hpath] at hsound ⊢
    rw [hbeside.locateParent_join hsound hway, if_neg h.length, hbeside.entry.place_join]
    rfl
  · obtain ⟨hdir, hcomes⟩ := hfree p hp
    rw [hopened.dirs]
    rintro (hdir' | ⟨rs, hrs, rfl⟩)
    · exact hdir hdir'
    · exact hcomes rs hrs rfl
  · exact (hopened.dirs _).2 (.inr ⟨rs, hrs, rfl⟩)

/-- Then it is saved, and can be saved again. -/
theorem Savable.save {name : String} (h : Savable t path name) (form : Form) :
    ∃ u, runOn t (Form.save path form) = (.ok (), u) ∧ Savable u path name := by
  obtain ⟨v, hdirs, htarget, hnext, hnot, hway⟩ := h.dirs
  obtain ⟨u, hreplace⟩ := runOn_replaceText_of_targets hnext htarget (hnot _ (by simp))
    (hnot _ (by simp)) (place_ne_beside path) form.toYaml FormFileError.io FormFileError.io
  have hsave : runOn t (Form.save path form) = (.ok (), u) :=
    runOn_save_eq_ok.2 ⟨v, hdirs, hreplace⟩
  have hkeeps := keepsDirs_of_replaceText hreplace
  have hroot := keepsDirs_of_save hsave [] h.root
  have hfile : ¬ u.DirAt (place path) := by
    obtain ⟨c, hread⟩ := read_of_text (text_of_save hsave)
    exact Tree.not_dirAt_of_file (Tree.fileAt_eq_some.1 (fileAt_of_read hroot hread))
  have hbeside := not_dirAt_of_replaceText hreplace hnext
  have hdirAt : ∀ p ∈ [place path, place (Form.besidePath path)], ¬ u.DirAt p := by
    simp only [List.forall_mem_cons]
    exact ⟨hfile, hbeside, nofun⟩
  exact ⟨u, hsave, h.named, h.ending, h.sound, h.soundBeside, h.length, hroot,
    ⟨h.clear.names, fun rs hrs => (hkeeps _ (hway rs hrs)).get?_ne_file⟩,
    fun p hp => ⟨hdirAt p hp, (h.free p hp).2⟩⟩

/-- A form can be saved in an empty directory. -/
theorem savable_empty : Savable Tree.empty "form.yaml" "form.yaml" where
  named := by decide
  ending := ⟨[], by decide⟩
  sound := ⟨by decide, by decide⟩
  soundBeside := ⟨by decide, by decide⟩
  length := by decide
  root := ⟨[], rfl⟩
  clear := by
    have hsteps : (steps "form.yaml").dropLast = [] := by decide
    have hroot : Tree.empty.DirAt [] := ⟨[], rfl⟩
    rw [hsteps]
    refine ⟨by simp, fun rs hrs => ?_⟩
    rw [List.prefix_nil.1 hrs]
    exact hroot.get?_ne_file
  free := by
    have hsteps : (steps "form.yaml").dropLast = [] := by decide
    have hplaces : ∀ p ∈ [place "form.yaml", place (Form.besidePath "form.yaml")],
        p ≠ [] ∧ Tree.empty.get? p = none := by decide
    intro p hp
    obtain ⟨hne, hnone⟩ := hplaces p hp
    refine ⟨Tree.not_dirAt_of_none hnone, fun rs hrs => ?_⟩
    rw [hsteps] at hrs
    rw [List.prefix_nil.1 hrs]
    exact Ne.symm hne

/-! ## The round trip -/

/-- A form that has been saved is loaded again. -/
theorem load_save {a : Unit} (h : runOn t (Form.save path form) = (.ok a, u)) :
    u.text path = .ok form.toYaml ∧ runOn u (Form.load path) = (.ok form, u) := by
  have htext := text_of_save h
  exact ⟨htext, by rw [runOn_load, formIn_of_text htext]⟩

/-- A form with texts that look like something else. -/
def lookalikes : Form := ⟨"~", .lead, [⟨⟨"007"⟩, "---", .ofList [
  ("no", .text "true"),
  ("", .flag true),
  ("1e3", .integer (-1)),
  ("options", .choices []),
  ("[]", .text "[]"),
  (" a: b\n", .choices [⟨"0x1", " yes "⟩])]⟩]⟩

theorem load_save_lookalikes : ∃ u,
    runOn Tree.empty (Form.save "form.yaml" lookalikes) = (.ok (), u) ∧
      runOn u (Form.load "form.yaml") = (.ok lookalikes, u) := by
  obtain ⟨u, hsave, -⟩ := savable_empty.save lookalikes
  exact ⟨u, hsave, (load_save hsave).2⟩

end MarketingForm
