import MarketingForm.Proofs.Export.Delivery
import MarketingForm.Proofs.Export.Filename

/-!
# What a dry run tells

A dry run reads the artifact and stops. If it ends with an error or finds the artifact unchanged, the
real run ends the same way. If it would write the artifact, the real run writes it exactly when a
file can be written beside the artifact and take its place (`Writable`). That takes a directory
around the artifact, and a name and a path that leave room for the longer name.
-/

namespace MarketingForm

open Files

/-! ## Names beside artifacts -/

theorem isFileName_besideArtifact {name : String} (h : '/' ∉ name.toList) :
    IsFileName (besideArtifact name) := by
  constructor
  · simp [besideArtifact, h]
  · simp [besideArtifact]

theorem Files.IsFileName.beside {name : String} (h : IsFileName name) :
    IsFileName (besideArtifact name) := isFileName_besideArtifact h.slash

/-! ## Files in a directory -/

section

variable {t u : Tree} {dir name : String}

/-- The name beside an artifact lies in the same directory. -/
theorem besideArtifact_join (h : IsEntryName name) :
    besideArtifact (join dir name) = join dir (besideArtifact name) := by
  have hhead : (besideArtifact name).toList.head? = name.toList.head? := by
    have hne : name.toList ≠ [] := fun hnil => h.notEmpty (String.toList_eq_nil_iff.1 hnil)
    obtain ⟨c, r, hcons⟩ := List.exists_cons_of_ne_nil hne
    simp [besideArtifact, hcons]
  unfold join
  rw [hhead]
  split
  · rfl
  split <;> simp [besideArtifact, String.append_assoc]

theorem runOn_makeParent_clear (h : IsFileName name) (hsound : Tree.Sound (join dir name))
    (hroot : t.DirAt []) (hclear : t.Clear [] (steps dir)) :
    ∃ u, runOn t (makeParent (join dir name)) = (.ok (), u) ∧ t.Opened u (steps dir) := by
  obtain ⟨parent, hparent, hsteps, htight, hpre⟩ := h.entry.parent_join dir
  rw [← hsteps] at hclear ⊢
  obtain ⟨u, hu, hopened⟩ := runOn_makeDirs_clear (hsound.of_prefix hpre) htight hroot hclear
  refine ⟨u, ?_, hopened⟩
  unfold makeParent
  rw [hparent]
  exact runOn_adapt_eq_ok.2 hu

theorem clear_of_makeParent (h : IsFileName name) (hroot : t.DirAt []) {a : Unit}
    (hrun : runOn t (makeParent (join dir name)) = (.ok a, u)) : t.Clear [] (steps dir) := by
  obtain ⟨parent, hparent, hsteps, htight, -⟩ := h.entry.parent_join dir
  unfold makeParent at hrun
  rw [hparent] at hrun
  rw [← hsteps]
  exact clear_of_makeDirs htight hroot (runOn_adapt_eq_ok.1 hrun)

end

/-! ## Writing an artifact -/

section

variable {t u : Tree} {dir name : String}

/-- A file can be written beside the artifact in a directory and take its place: its name and its
path are short enough, no file lies on the way to the directory, and neither at the artifact's place
nor beside it a directory lies or comes on that way. -/
structure Writable (t : Tree) (dir name : String) : Prop where
  path : Text.utf8Length (join dir (besideArtifact name)).toList < pathLimit
  length : ¬ nameLimit < Text.utf8Length (besideArtifact name).toList
  clear : t.Clear [] (steps dir)
  free : ∀ n ∈ [name, besideArtifact name], ∀ p, p = Tree.placeFrom [] (steps dir) ++ [n.toList] →
    ¬ t.DirAt p ∧ ∀ rs, rs <+: steps dir → Tree.placeFrom [] rs ≠ p

theorem runOn_writeArtifact_eq_ok {path text : String} {d : Delivery} :
    runOn t (writeArtifact path text) = (.ok d, u) ↔ d = ⟨path, .written⟩ ∧
      ∃ t₁ t₂ v, runOn t (makeParent path) = (.ok (), t₁) ∧
        runOn t₁ (makeParent (besideArtifact path)) = (.ok (), t₂) ∧
        t₂.write (besideArtifact path) text.toUTF8 = .ok v ∧
        v.move (besideArtifact path) path = .ok u := by
  unfold writeArtifact
  constructor
  · intro h
    obtain ⟨_, t₁, h₁, h⟩ := runOn_bind_eq_ok.1 h
    obtain ⟨_, t₂, h₂, h⟩ := runOn_bind_eq_ok.1 h
    obtain ⟨_, t₃, hreplace, h⟩ := runOn_bind_eq_ok.1 h
    cases h
    obtain ⟨v, hwrite, hmove⟩ := runOn_replaceText_eq_ok.1 hreplace
    exact ⟨rfl, t₁, t₂, v, h₁, h₂, hwrite, hmove⟩
  · rintro ⟨rfl, t₁, t₂, v, h₁, h₂, hwrite, hmove⟩
    exact runOn_bind_eq_ok.2 ⟨(), t₁, h₁, runOn_bind_eq_ok.2 ⟨(), t₂, h₂,
      runOn_bind_eq_ok.2 ⟨(), u, runOn_replaceText_eq_ok.2 ⟨v, hwrite, hmove⟩, rfl⟩⟩⟩

theorem read_of_artifact {path : String} {a : Option String} (h : artifact t path = .ok a) :
    (∃ c, t.read path = .ok c) ∨ t.read path = .error .notFound := by
  unfold artifact Tree.text at h
  cases hread : t.read path with
  | ok c => exact .inl ⟨c, rfl⟩
  | error e =>
    simp only [hread] at h
    split at h
    · rename_i he
      exact .inr (by rw [he])
    · cases h

/-- An artifact that can be looked for has a path that the system takes. -/
theorem sound_of_artifact (h : IsFileName name) {a : Option String}
    (ha : artifact t (join dir name) = .ok a) : Tree.Sound (join dir name) ∧ t.DirAt [] := by
  cases hroute : route (join dir name) with
  | error e =>
    have hfail := read_of_route_error t hroute
    rcases read_of_artifact ha with ⟨c, hread⟩ | hread
    · rw [hfail] at hread
      cases hread
    · rw [hfail] at hread
      cases hread
      exact absurd (eq_empty_of_route hroute) h.entry.join_ne
  | ok r =>
    refine ⟨(Tree.sound_of_route hroute).1, ?_⟩
    cases t with
    | dir es => exact ⟨es, Tree.get?_nil _⟩
    | file c =>
      rcases read_of_artifact ha with ⟨d, hread⟩ | hread
      · exact dirAt_of_read hread
      · rw [read_file hroute] at hread
        cases hread

/-- The directories around the artifact and around the file beside it come together. -/
theorem runOn_makeParents_clear (h : IsFileName name) (hsound : Tree.Sound (join dir name))
    (hsound' : Tree.Sound (join dir (besideArtifact name))) (hroot : t.DirAt [])
    (hclear : t.Clear [] (steps dir)) :
    ∃ t₁ t₂, runOn t (makeParent (join dir name)) = (.ok (), t₁) ∧
      runOn t₁ (makeParent (join dir (besideArtifact name))) = (.ok (), t₂) ∧
      t.Opened t₂ (steps dir) := by
  obtain ⟨t₁, h₁, ho₁⟩ := runOn_makeParent_clear h hsound hroot hclear
  obtain ⟨t₂, h₂, ho₂⟩ := runOn_makeParent_clear h.beside hsound' (ho₁.grown.dirs [] hroot)
    (hclear.grow ho₁.grown)
  refine ⟨t₁, t₂, h₁, h₂, fun p c => (ho₂.files p c).trans (ho₁.files p c), fun p => ?_⟩
  rw [ho₂.dirs, ho₁.dirs, or_assoc, or_self]

/-- A name beside another one lies at a place of its own. -/
theorem not_prefix_beside (p : Location) (name : String) :
    ¬ p ++ [(besideArtifact name).toList] <+: p ++ [name.toList] := by
  rw [List.prefix_append_right_inj, List.cons_prefix_cons]
  simp [besideArtifact]

theorem written_of_writable (h : IsFileName name) (hsound : Tree.Sound (join dir name))
    (hroot : t.DirAt []) (hw : Writable t dir name) (text : String) :
    ∃ u, runOn t (writeArtifact (join dir name) text) = (.ok ⟨join dir name, .written⟩, u) := by
  have hsound' : Tree.Sound (join dir (besideArtifact name)) := by
    refine ⟨?_, hw.path⟩
    rw [← besideArtifact_join h.entry]
    simpa [besideArtifact] using hsound.nul
  have hshort : ¬ nameLimit < Text.utf8Length name.toList := by
    have hlength := hw.length
    rw [besideArtifact, String.toList_append, Tree.utf8Length_append] at hlength
    omega
  obtain ⟨t₁, t₂, h₁, h₂, hopened⟩ := runOn_makeParents_clear h hsound hsound' hroot hw.clear
  have hway := enter_of_opened hopened hw.clear (Tree.steps_not_idle dir)
  have hfree : ∀ n ∈ [name, besideArtifact name],
      ¬ t₂.DirAt (Tree.placeFrom [] (steps dir) ++ [n.toList]) := by
    intro n hn
    obtain ⟨hdir, hcomes⟩ := hw.free n hn _ rfl
    rw [hopened.dirs]
    rintro (h | ⟨rs, hrs, h⟩)
    · exact hdir h
    · exact hcomes rs hrs h.symm
  have hbeside := h.beside.locateParent_join hsound' hway
  have htarget := h.locateParent_join hsound hway
  rw [if_neg hw.length] at hbeside
  rw [if_neg hshort] at htarget
  obtain ⟨u, hreplace⟩ := runOn_replaceText_of_targets hbeside htarget (hfree _ (by simp))
    (hfree _ (by simp)) (not_prefix_beside _ name) text (ExportError.io (join dir (besideArtifact name)))
    (ExportError.io (join dir name))
  obtain ⟨v, hwrite, hmove⟩ := runOn_replaceText_eq_ok.1 hreplace
  rw [← besideArtifact_join h.entry] at h₂ hwrite hmove
  exact ⟨u, runOn_writeArtifact_eq_ok.2 ⟨rfl, t₁, t₂, v, h₁, h₂, hwrite, hmove⟩⟩

theorem writable_of_written (h : IsFileName name) (hsound : Tree.Sound (join dir name))
    (hroot : t.DirAt []) {text : String} {d : Delivery}
    (hrun : runOn t (writeArtifact (join dir name) text) = (.ok d, u)) : Writable t dir name := by
  obtain ⟨-, t₁', t₂', v, h₁', h₂', hwrite, hmove⟩ := runOn_writeArtifact_eq_ok.1 hrun
  rw [besideArtifact_join h.entry] at h₂' hwrite hmove
  have hclear := clear_of_makeParent h hroot h₁'
  obtain ⟨x, hx, -, hfree, rfl⟩ := Tree.write_eq_ok hwrite
  obtain ⟨_, y, _, -, hy, -, -, -, hfree', -⟩ := Tree.move_eq_ok hmove
  have hsound' : Tree.Sound (join dir (besideArtifact name)) := by
    obtain ⟨_, _, _, _, hroute, -⟩ := Tree.locateParent_eq_name.1 hx
    exact (Tree.sound_of_route hroute).1
  obtain ⟨t₁, t₂, h₁, h₂, hopened⟩ := runOn_makeParents_clear h hsound hsound' hroot hclear
  obtain rfl : t₁ = t₁' := congrArg Prod.snd (h₁.symm.trans h₁')
  obtain rfl : t₂ = t₂' := congrArg Prod.snd (h₂.symm.trans h₂')
  have hway := enter_of_opened hopened hclear (Tree.steps_not_idle dir)
  have hkeeps := Tree.keepsDirs_of_write hwrite
  have hlength : ¬ nameLimit < Text.utf8Length (besideArtifact name).toList := by
    intro hlong
    rw [h.beside.locateParent_join hsound' hway, if_pos hlong] at hx
    cases hx
  have hshort : ¬ nameLimit < Text.utf8Length name.toList := by
    rw [besideArtifact, String.toList_append, Tree.utf8Length_append] at hlength
    omega
  have htarget := h.locateParent_join hsound hway
  rw [if_neg hshort] at htarget
  rw [h.beside.locateParent_join hsound' hway, if_neg hlength] at hx
  rw [hkeeps.locateParent htarget] at hy
  cases hx
  cases hy
  refine ⟨hsound'.short, hlength, hclear, fun n hn p hp => ?_⟩
  have hdir : ¬ t₂.DirAt p := by
    subst hp
    simp only [List.mem_cons, List.not_mem_nil, or_false] at hn
    rcases hn with rfl | rfl
    · exact fun hdir => hfree' (hkeeps _ hdir)
    · exact hfree
  rw [hopened.dirs, not_or] at hdir
  exact ⟨hdir.1, fun rs hrs hplace => hdir.2 ⟨rs, hrs, hplace.symm⟩⟩

/-- An artifact is written exactly if it can be. -/
theorem written_iff_writable (h : IsFileName name) {a : Option String}
    (ha : artifact t (join dir name) = .ok a) (text : String) :
    (∃ u, runOn t (writeArtifact (join dir name) text) = (.ok ⟨join dir name, .written⟩, u)) ↔
      Writable t dir name := by
  obtain ⟨hsound, hroot⟩ := sound_of_artifact h ha
  constructor
  · rintro ⟨u, hrun⟩
    exact writable_of_written h hsound hroot hrun
  · intro hw
    exact written_of_writable h hsound hroot hw text

end

/-! ## The prediction -/

/-- What the real run comes to if a dry run has told the truth. -/
def Delivery.done (d : Delivery) : Delivery :=
  { d with outcome := if d.outcome = .wouldWrite then .written else d.outcome }

/-- A dry run leaves the disk as it is and tells what the real run comes to, if it does not speak of
writing. If it does, it tells the truth exactly if the artifact can be written. -/
theorem deliver_dryRun (t : Tree) (document title dir : String) :
    (runOn t (deliver document (artifactName title) dir true)).2 = t ∧
      (∀ d, (runOn t (deliver document (artifactName title) dir true)).1 = .ok d →
        d = ⟨join dir (artifactName title), .unchanged⟩ ∨
          d = ⟨join dir (artifactName title), .wouldWrite⟩) ∧
      ((runOn t (deliver document (artifactName title) dir false)).1 =
          (runOn t (deliver document (artifactName title) dir true)).1.map Delivery.done ↔
        ((runOn t (deliver document (artifactName title) dir true)).1 =
            .ok ⟨join dir (artifactName title), .wouldWrite⟩ →
          Writable t dir (artifactName title))) := by
  have hname := isFileName_artifactName title
  generalize artifactName title = name at hname ⊢
  rw [runOn_deliver, runOn_deliver]
  cases ha : artifact t (join dir name) with
  | error e =>
    refine ⟨rfl, ?_, iff_of_true rfl ?_⟩
    · intro d hd
      cases hd
    · intro h
      cases h
  | ok a =>
    simp only
    by_cases hsame : a = some (withUnixLines document)
    · simp only [if_pos hsame]
      refine ⟨trivial, ?_, iff_of_true rfl ?_⟩
      · intro d hd
        cases hd
        exact .inl rfl
      · intro h
        cases h
    · simp only [if_neg hsame, Bool.false_eq_true, ↓reduceIte]
      refine ⟨trivial, fun d hd => ?_, ?_⟩
      · cases hd
        exact .inr rfl
      · rw [← written_iff_writable hname ha (withUnixLines document)]
        have hdone : Except.map Delivery.done
            (.ok ⟨join dir name, .wouldWrite⟩ : Except ExportError Delivery) =
              .ok ⟨join dir name, .written⟩ := rfl
        rw [hdone]
        constructor
        · intro h _
          exact ⟨_, Prod.ext h rfl⟩
        · intro h
          obtain ⟨u, hu⟩ := h trivial
          rw [hu]

/-! ## A name without room beside it -/

section

variable {t : Tree} {dir name : String}

theorem artifact_of_missing {path : String} (h : t.read path = .error .notFound) :
    artifact t path = .ok none := by
  simp only [artifact, Tree.text, h, ↓reduceIte]

theorem toList_join_dot (h : IsFileName name) : (join "." name).toList = '.' :: '/' :: name.toList := by
  have hhead : ¬ name.toList.head? = some '/' := fun hhead => h.slash (List.mem_of_mem_head? hhead)
  unfold join
  rw [if_neg (by simp [hhead]), if_neg (by decide)]
  simp

/-- If the name beside an artifact is too long, the directories come but the file does not. -/
theorem writeArtifact_tooLong (h : IsFileName name) (hsound : Tree.Sound (join dir name))
    (hsound' : Tree.Sound (join dir (besideArtifact name))) (hroot : t.DirAt [])
    (hclear : t.Clear [] (steps dir))
    (hlong : nameLimit < Text.utf8Length (besideArtifact name).toList) (text : String) :
    (runOn t (writeArtifact (join dir name) text)).1 =
      .error (.io (besideArtifact (join dir name)) .nameTooLong) := by
  obtain ⟨t₁, t₂, h₁, h₂, hopened⟩ := runOn_makeParents_clear h hsound hsound' hroot hclear
  have hlocate := h.beside.locateParent_join hsound'
    (enter_of_opened hopened hclear (Tree.steps_not_idle dir))
  rw [if_pos hlong] at hlocate
  have hwrite : runOn t₂ (writeText (join dir (besideArtifact name)) text) =
      (.error .nameTooLong, t₂) := by
    refine (change_eq_error (f := fun t => t.write _ text.toUTF8)).2 ⟨?_, rfl⟩
    unfold Tree.write
    rw [hlocate]
    rfl
  unfold writeArtifact replaceText
  simp only [besideArtifact_join h.entry, runOn_bind, h₁, h₂, runOn_adapt, hwrite]
  rfl

end

/-- A title of which the file name fits but no name beside it. -/
def longTitle : String := String.ofList (List.replicate 240 'a')

theorem toList_artifactName_longTitle :
    (artifactName longTitle).toList = List.replicate 240 'a' ++ ".html".toList := by
  unfold artifactName longTitle
  rw [String.toList_ofList, String.toList_ofList]
  decide +kernel

/-- A dry run would write an artifact that the real run cannot write: the name beside it is too
long. -/
theorem deliver_dryRun_differs :
    (runOn Tree.empty (deliver "x" (artifactName longTitle) "." true)).1 =
        .ok ⟨join "." (artifactName longTitle), .wouldWrite⟩ ∧
      (runOn Tree.empty (deliver "x" (artifactName longTitle) "." false)).1 =
        .error (.io (besideArtifact (join "." (artifactName longTitle))) .nameTooLong) := by
  have hname := isFileName_artifactName longTitle
  have hlist := toList_artifactName_longTitle
  generalize artifactName longTitle = name at hname hlist ⊢
  have hbeside : (besideArtifact name).toList =
      List.replicate 240 'a' ++ (".html".toList ++ ".formforge.tmp".toList) := by
    rw [besideArtifact, String.toList_append, hlist, List.append_assoc]
  have hsound : Tree.Sound (join "." name) := by
    constructor
    · rw [toList_join_dot hname, hlist]
      decide +kernel
    · rw [toList_join_dot hname, hlist]
      decide +kernel
  have hsound' : Tree.Sound (join "." (besideArtifact name)) := by
    constructor
    · rw [toList_join_dot hname.beside, hbeside]
      decide +kernel
    · rw [toList_join_dot hname.beside, hbeside]
      decide +kernel
  have hshort : ¬ nameLimit < Text.utf8Length name.toList := by
    rw [hlist]
    decide +kernel
  have hlong : nameLimit < Text.utf8Length (besideArtifact name).toList := by
    rw [hbeside]
    decide +kernel
  have hroot : Tree.empty.DirAt [] := ⟨[], rfl⟩
  have hway : Tree.empty.enter [] (steps ".") = .ok [] := Tree.enter_eq_ok.2 ⟨rfl, hroot⟩
  have hread := hname.read_free hsound hshort hway rfl
  have hartifact := artifact_of_missing hread
  have hclear := Tree.clear_of_enter (Tree.steps_not_idle ".") hway
  have hdocument : ¬ (none : Option String) = some (withUnixLines "x") := nofun
  rw [runOn_deliver, runOn_deliver, hartifact]
  simp only [if_neg hdocument, Bool.false_eq_true, ↓reduceIte, true_and]
  exact writeArtifact_tooLong hname hsound hsound' hroot hclear hlong _

end MarketingForm
