import Mathlib.Logic.Relation
import MarketingForm.Files.Device
import MarketingForm.Proofs.Files.Run

/-!
# Disks that follow a tree

A disk follows a tree if each of its operations changes the tree as the operation of a tree would, or
not at all (`Follows`). The one thing that can go wrong in between is a write at a path that is not
spared: it may leave its file with another content, and the file may then stay. A tree follows
itself, and so does a device its own tree, whatever goes wrong with it (`Device.follows`). What a program
does is proved for all these disks at once.
-/

namespace MarketingForm.Files

variable {σ ε δ α β : Type} {tree : σ → Tree} {R : Tree → Tree → Prop}

/-! ## Runs step by step -/

/-- Every run takes the tree along a relation, step by step. -/
def Takes (tree : σ → Tree) (R : Tree → Tree → Prop) (x : ExceptT ε (StateM σ) α) : Prop :=
  ∀ s, Relation.ReflTransGen R (tree s) (tree (runOn s x).2)

theorem takes_pure (a : α) : Takes tree R (pure a : ExceptT ε (StateM σ) α) := fun _ => .refl

theorem takes_throw (e : ε) : Takes tree R (throw e : ExceptT ε (StateM σ) α) := fun _ => .refl

theorem Takes.bind {x : ExceptT ε (StateM σ) α} {f : α → ExceptT ε (StateM σ) β}
    (hx : Takes tree R x) (hf : ∀ a, Takes tree R (f a)) : Takes tree R (x >>= f) := by
  intro s
  have hfirst := hx s
  rw [runOn_bind]
  generalize runOn s x = p at hfirst ⊢
  obtain ⟨r, s'⟩ := p
  cases r with
  | error e => exact hfirst
  | ok a => exact hfirst.trans (hf a s')

theorem Takes.tryCatch {x : ExceptT ε (StateM σ) α} {f : ε → ExceptT ε (StateM σ) α}
    (hx : Takes tree R x) (hf : ∀ e, Takes tree R (f e)) : Takes tree R (tryCatch x f) := by
  intro s
  have hfirst := hx s
  rw [runOn_tryCatch]
  generalize runOn s x = p at hfirst ⊢
  obtain ⟨r, s'⟩ := p
  cases r with
  | ok a => exact hfirst
  | error e => exact hfirst.trans (hf e s')

theorem Takes.adapt {x : ExceptT ε (StateM σ) α} (hx : Takes tree R x) (f : ε → δ) :
    Takes tree R (x.adapt f) := by
  intro s
  rw [runOn_adapt]
  exact hx s

/-- A question that leaves the tree as it is comes before a run. -/
theorem Takes.after_question {x : StateM σ α} {f : α → ExceptT ε (StateM σ) β}
    (hx : ∀ s, tree (x s).2 = tree s) (hf : ∀ a, Takes tree R (f a)) :
    Takes tree R ((liftM x : ExceptT ε (StateM σ) α) >>= f) := by
  have hquestion : Takes tree R (liftM x : ExceptT ε (StateM σ) α) := by
    intro s
    show Relation.ReflTransGen R (tree s) (tree (x s).2)
    rw [hx s]
  exact hquestion.bind hf

/-- A run that takes no step leaves the tree as it is. -/
theorem Takes.still {x : ExceptT ε (StateM σ) α} (h : Takes tree (fun _ _ => False) x) {s s' : σ}
    {r : Except ε α} (hrun : runOn s x = (r, s')) : tree s' = tree s := by
  have hsteps := h s
  rw [hrun] at hsteps
  exact (Relation.reflTransGen_iff_eq fun _ => id).1 hsteps

/-! ## Disks -/

/-- The operations of a disk are those of the tree that it holds, as far as they are carried out. -/
structure Follows [Disk (StateM σ)] (tree : σ → Tree) (Spared : String → Prop) : Prop where
  isDir : ∀ (s : σ) (path : String), tree ((Disk.isDir path : StateM σ Bool) s).2 = tree s
  read : ∀ (s : σ) (path : String), tree (runOn s (Disk.readBytes path)).2 = tree s
  makeDir : ∀ {s s' : σ} {path : String} {r : Except FileError Unit},
    runOn s (Disk.makeDir path) = (r, s') →
      tree s' = tree s ∨ (tree s).makeDir path = .ok (tree s')
  write_ok : ∀ {s s' : σ} {path : String} {c : ByteArray} {a : Unit},
    runOn s (Disk.writeBytes path c) = (.ok a, s') → (tree s).write path c = .ok (tree s')
  write_error : ∀ {s s' : σ} {path : String} {c : ByteArray} {e : FileError},
    runOn s (Disk.writeBytes path c) = (.error e, s') →
      tree s' = tree s ∨ ¬ Spared path ∧ ∃ c', (tree s).write path c' = .ok (tree s')
  move_ok : ∀ {s s' : σ} {source target : String} {a : Unit},
    runOn s (Disk.move source target) = (.ok a, s') → (tree s).move source target = .ok (tree s')
  move_error : ∀ {s s' : σ} {source target : String} {e : FileError},
    runOn s (Disk.move source target) = (.error e, s') → tree s' = tree s
  remove : ∀ {s s' : σ} {path : String} {r : Except FileError Unit},
    runOn s (Disk.remove path) = (r, s') → (tree s).remove path = .ok (tree s') ∨
      tree s' = tree s ∧ (Spared path → ∀ u, (tree s).remove path ≠ .ok u)

/-- A change of a tree that goes well or fails. -/
theorem change_cases {f : Tree → Except FileError Tree} {t u : Tree} {r : Except FileError Unit}
    (h : change f t = (r, u)) : f t = .ok u ∨ u = t ∧ ∀ v, f t ≠ .ok v := by
  cases r with
  | ok a => exact .inl (change_eq_ok.1 h)
  | error e =>
    obtain ⟨hf, rfl⟩ := change_eq_error.1 h
    exact .inr ⟨rfl, fun v hv => nomatch hf.symm.trans hv⟩

theorem Tree.follows : Follows (fun t : Tree => t) fun _ => True where
  isDir _ _ := rfl
  read _ _ := rfl
  makeDir {_ _ path _} h := (change_cases (f := fun t => t.makeDir path) h).symm.imp_left And.left
  write_ok h := runOn_writeBytes.1 h
  write_error {_ _ path c _} h :=
    .inl ((change_eq_error (f := fun t => t.write path c)).1 h).2
  move_ok h := runOn_move.1 h
  move_error {_ _ source target _} h :=
    ((change_eq_error (f := fun t => t.move source target)).1 h).2
  remove {_ _ path _} h :=
    (change_cases (f := fun t => t.remove path) h).imp_right fun h => ⟨h.1, fun _ => h.2⟩

/-! ## Devices -/

/-- No write at a path stops, and it is never refused to remove what lies there. -/
def Spares (troubles : Troubles) (path : String) : Prop :=
  ∀ n, (∀ bytes cause, troubles n (.write path) ≠ some (.stopped bytes cause)) ∧
    troubles n (.remove path) = none

namespace Device

variable {troubles : Troubles} {d d' : Device troubles} {op : Operation}

theorem runOn_readBytes (d : Device troubles) (path : String) :
    runOn d (Disk.readBytes path) =
      attempt (.read path) (Disk.readBytes (m := StateM Tree) path) .error d := rfl

theorem runOn_writeBytes (d : Device troubles) (path : String) (c : ByteArray) :
    runOn d (Disk.writeBytes path c) = write path c d := rfl

theorem runOn_makeDir (d : Device troubles) (path : String) :
    runOn d (Disk.makeDir path) =
      attempt (.makeDir path) (Disk.makeDir (m := StateM Tree) path) .error d := rfl

theorem runOn_move (d : Device troubles) (source target : String) :
    runOn d (Disk.move source target) =
      attempt (.move source target) (Disk.move (m := StateM Tree) source target) .error d := rfl

theorem runOn_remove (d : Device troubles) (path : String) :
    runOn d (Disk.remove path) =
      attempt (.remove path) (Disk.remove (m := StateM Tree) path) .error d := rfl

/-- An operation is carried out on the tree, or something goes wrong with it. -/
theorem attempt_cases {x : StateM Tree α} {refused : FileError → α} {a : α}
    (h : attempt op x refused d = (a, d')) :
    x d.tree = (a, d'.tree) ∨
      d'.tree = d.tree ∧ troubles d.tried op ≠ none ∧ ∃ cause, a = refused cause := by
  unfold attempt at h
  cases htrouble : troubles d.tried op with
  | none =>
    rw [htrouble] at h
    cases h
    exact .inl rfl
  | some trouble =>
    rw [htrouble] at h
    cases h
    exact .inr ⟨rfl, nofun, _, rfl⟩

theorem tree_attempt {x : StateM Tree α} {refused : FileError → α} (h : (x d.tree).2 = d.tree) :
    (attempt op x refused d).2.tree = d.tree := by
  rcases attempt_cases (Prod.eta (attempt op x refused d)).symm with hx | ⟨hsame, -⟩
  · rw [hx] at h
    exact h
  · exact hsame

theorem write_cases {path : String} {c : ByteArray} {r : Except FileError Unit}
    (h : write path c d = (r, d')) :
    r = .ok () ∧ d.tree.write path c = .ok d'.tree ∨
      ∃ e, r = .error e ∧ (d'.tree = d.tree ∨ ¬ Spares troubles path ∧
        ∃ c', d.tree.write path c' = .ok d'.tree) := by
  unfold write at h
  split at h
  · rename_i bytes cause htrouble
    split at h
    · rename_i t hwrite
      cases h
      exact .inr ⟨cause, rfl, .inr ⟨fun hspares => (hspares _).1 _ _ htrouble, _, hwrite⟩⟩
    · cases h
      exact .inr ⟨_, rfl, .inl rfl⟩
  · rcases attempt_cases h with h | ⟨hsame, -, cause, rfl⟩
    · cases r with
      | ok a => exact .inl ⟨rfl, Tree.follows.write_ok h⟩
      | error e =>
        exact .inr ⟨e, rfl, (Tree.follows.write_error h).imp_right fun h => absurd trivial h.1⟩
    · exact .inr ⟨cause, rfl, .inl hsame⟩

/-- A device follows its tree, whatever goes wrong with it. -/
theorem follows (troubles : Troubles) : Follows (@Device.tree troubles) (Spares troubles) where
  isDir _ _ := tree_attempt rfl
  read d path := by
    rw [runOn_readBytes]
    exact tree_attempt rfl
  makeDir h := by
    rw [runOn_makeDir] at h
    rcases attempt_cases h with h | ⟨hsame, -⟩
    · exact Tree.follows.makeDir h
    · exact .inl hsame
  write_ok h := by
    rw [runOn_writeBytes] at h
    rcases write_cases h with ⟨-, hwrite⟩ | ⟨e, he, -⟩
    · exact hwrite
    · cases he
  write_error h := by
    rw [runOn_writeBytes] at h
    rcases write_cases h with ⟨he, -⟩ | ⟨e, -, hcases⟩
    · cases he
    · exact hcases
  move_ok h := by
    rw [runOn_move] at h
    rcases attempt_cases h with h | ⟨-, -, cause, he⟩
    · exact Tree.follows.move_ok h
    · cases he
  move_error h := by
    rw [runOn_move] at h
    rcases attempt_cases h with h | ⟨hsame, -⟩
    · exact Tree.follows.move_error h
    · exact hsame
  remove h := by
    rw [runOn_remove] at h
    rcases attempt_cases h with h | ⟨hsame, htrouble, -⟩
    · exact (Tree.follows.remove h).imp_right fun h => ⟨h.1, fun _ => h.2 trivial⟩
    · exact .inr ⟨hsame, fun hspares => absurd (hspares _).2 htrouble⟩

end Device

/-! ## Programs -/

/-- The result of a run is disregarded for an error. -/
theorem runOn_disregard (s : σ) (x : ExceptT δ (StateM σ) α) (e : ε) :
    runOn s (do let _ ← x.run; throw e : ExceptT ε (StateM σ) β) = (.error e, (runOn s x).2) := rfl

namespace Follows

variable [Disk (StateM σ)] {Spared : String → Prop} {s s' : σ} {path beside text : String}
  {written moved : FileError → ε} (hdisk : Follows tree Spared)
include hdisk

theorem takes_readText (path : String) :
    Takes tree R (readText path : ExceptT FileError (StateM σ) String) := by
  have hread : Takes tree R (Disk.readBytes path : ExceptT FileError (StateM σ) ByteArray) := by
    intro s
    rw [hdisk.read]
  refine hread.bind fun bytes => ?_
  split
  · exact takes_pure _
  · exact takes_throw _

/-- Reading leaves the tree as it is. -/
theorem takes_readText? (path : String) :
    Takes tree R (readText? path : ExceptT FileError (StateM σ) (Option String)) := by
  unfold readText?
  rw [← bind_pure_comp]
  refine ((hdisk.takes_readText path).bind fun _ => takes_pure _).tryCatch fun e => ?_
  split
  · exact takes_pure _
  · exact takes_throw _

/-- A text that comes to its path is written beside it, then moved. -/
theorem replaceText_ok {a : Unit}
    (h : runOn s (replaceText beside path text written moved) = (.ok a, s')) :
    ∃ v, (tree s).write beside text.toUTF8 = .ok v ∧ v.move beside path = .ok (tree s') := by
  unfold replaceText writeText at h
  obtain ⟨_, s₁, hwrite, hmove⟩ := runOn_bind_eq_ok.1 h
  rw [runOn_tryCatch] at hmove
  split at hmove
  · rename_i s₂ hmoved
    cases hmove
    exact ⟨tree s₁, hdisk.write_ok (runOn_adapt_eq_ok.1 hwrite),
      hdisk.move_ok (runOn_adapt_eq_ok.1 hmoved)⟩
  · -- a failed move is never mended
    rw [runOn_disregard] at hmove
    cases hmove

/-- A text that does not come to its path leaves the tree as it was, or a file beside the path that is
removed again; only beside a path that is not spared it may stay. -/
theorem replaceText_error {e : ε}
    (h : runOn s (replaceText beside path text written moved) = (.error e, s')) :
    tree s' = tree s ∨ ∃ c v, (tree s).write beside c = .ok v ∧
      (v.remove beside = .ok (tree s') ∨ tree s' = v ∧ ¬ Spared beside) := by
  unfold replaceText writeText at h
  rcases runOn_bind_eq_error.1 h with h | ⟨_, s₁, hwrite, h⟩
  · obtain ⟨_, h, -⟩ := runOn_adapt_eq_error.1 h
    rcases hdisk.write_error h with hsame | ⟨hspared, c, hwrite⟩
    · exact .inl hsame
    · exact .inr ⟨c, _, hwrite, .inr ⟨rfl, hspared⟩⟩
  · have hwrite := hdisk.write_ok (runOn_adapt_eq_ok.1 hwrite)
    obtain ⟨_, s₂, hmove, hclean⟩ := runOn_tryCatch_eq_error.1 h
    obtain ⟨_, hmove, -⟩ := runOn_adapt_eq_error.1 hmove
    have hsame := hdisk.move_error hmove
    rw [runOn_disregard] at hclean
    obtain rfl := (Prod.mk.inj hclean).2
    refine .inr ⟨_, _, hwrite, ?_⟩
    rw [← hsame] at hwrite ⊢
    rcases hdisk.remove (Prod.eta (runOn s₂ (Disk.remove beside))).symm with hremove | ⟨hstay, hrefused⟩
    · exact .inl hremove
    · obtain ⟨_, w, -, hremove, -⟩ := Tree.remove_written hwrite
      exact .inr ⟨hstay, fun hspared => hrefused hspared w hremove⟩

/-- A text that does not come to its path changes nothing but what lies beside the path, where nothing
is left if the path there is spared. -/
theorem entry_of_replaceText_error {e : ε}
    (h : runOn s (replaceText beside path text written moved) = (.error e, s')) :
    tree s' = tree s ∨ ∃ x, (tree s).locateParent beside = .ok (.name x) ∧
      ¬ (tree s).DirAt x.location ∧ (Spared beside → (tree s').entry x.location = .nothing) ∧
      ∀ q, q ≠ x.location → (tree s').entry q = (tree s).entry q := by
  rcases hdisk.replaceText_error h with hsame | ⟨c, v, hwrite, hremove | ⟨rfl, hspared⟩⟩
  · exact .inl hsame
  · obtain ⟨x, w, hx, hremove', hdir, hnothing, hothers⟩ := Tree.remove_written hwrite
    obtain rfl : w = tree s' := Except.ok.inj (hremove'.symm.trans hremove)
    exact .inr ⟨x, hx, hdir, fun _ => hnothing, hothers⟩
  · obtain ⟨x, hx, -, hdir, -⟩ := Tree.write_eq_ok hwrite
    exact .inr ⟨x, hx, hdir, fun h => absurd h hspared, (Tree.entry_of_write hwrite hx).2⟩

end Follows

/-! ## Texts on a tree -/

/-- A text is written by way of a file beside its path: the file is written, then moved. -/
theorem runOn_replaceText_eq_ok {t u : Tree} {beside path s : String} {written moved : FileError → ε}
    {a : Unit} :
    runOn t (replaceText beside path s written moved : ExceptT ε (StateM Tree) Unit) = (.ok a, u) ↔
      ∃ v, t.write beside s.toUTF8 = .ok v ∧ v.move beside path = .ok u := by
  constructor
  · exact Tree.follows.replaceText_ok
  · rintro ⟨v, hwrite, hmoved⟩
    unfold replaceText writeText
    refine runOn_bind_eq_ok.2 ⟨(), v, runOn_adapt_eq_ok.2 (runOn_writeBytes.2 hwrite), ?_⟩
    rw [runOn_tryCatch, runOn_adapt_eq_ok.2 (runOn_move.2 hmoved)]

/-- A text comes to its path if neither there nor beside it a directory lies. -/
theorem runOn_replaceText_of_targets {t : Tree} {beside path : String} {p q : Location}
    (hp : t.locateParent beside = .ok (.name ⟨p, false⟩))
    (hq : t.locateParent path = .ok (.name ⟨q, false⟩)) (hpfree : ¬ t.DirAt p) (hqfree : ¬ t.DirAt q)
    (hpq : ¬ p <+: q) (s : String) (written moved : FileError → ε) :
    ∃ u, runOn t (replaceText beside path s written moved : ExceptT ε (StateM Tree) Unit) =
      (.ok (), u) := by
  have hwrite := Tree.write_of_target hp hpfree s.toUTF8
  have hkeeps := Tree.keepsDirs_of_write hwrite
  obtain ⟨u, hmove⟩ := Tree.move_of_targets (hkeeps.locateParent hp) (hkeeps.locateParent hq)
    (Tree.get?_put_target hp _) fun hdir => hqfree ((Tree.local_put _).dirAt_of_op hpq hdir)
  exact ⟨u, runOn_replaceText_eq_ok.2 ⟨_, hwrite, hmove⟩⟩

theorem keepsDirs_of_replaceText {t u : Tree} {beside path s : String}
    {written moved : FileError → ε} {a : Unit}
    (h : runOn t (replaceText beside path s written moved : ExceptT ε (StateM Tree) Unit) =
      (.ok a, u)) : t.KeepsDirs u := by
  obtain ⟨v, hwrite, hmove⟩ := runOn_replaceText_eq_ok.1 h
  exact fun p hp => Tree.keepsDirs_of_move hmove p (Tree.keepsDirs_of_write hwrite p hp)

/-- The file beside the path is gone. -/
theorem not_dirAt_of_replaceText {t u : Tree} {beside path s : String} {x : Tree.Target}
    {written moved : FileError → ε} {a : Unit}
    (h : runOn t (replaceText beside path s written moved : ExceptT ε (StateM Tree) Unit) =
      (.ok a, u)) (hx : t.locateParent beside = .ok (.name x)) : ¬ u.DirAt x.location := by
  obtain ⟨v, hwrite, hmove⟩ := runOn_replaceText_eq_ok.1 h
  exact Tree.not_dirAt_of_move hmove ((Tree.keepsDirs_of_write hwrite).locateParent hx)

theorem text_of_replaceText {t u : Tree} {beside path s : String} {written moved : FileError → ε}
    {a : Unit}
    (h : runOn t (replaceText beside path s written moved : ExceptT ε (StateM Tree) Unit) =
      (.ok a, u)) : u.text path = .ok s := by
  obtain ⟨v, hwrite, hmove⟩ := runOn_replaceText_eq_ok.1 h
  exact text_of_read (Tree.read_of_move hmove (Tree.read_of_write hwrite))

/-- What two trees have in common if only the file at one place was worked on. -/
structure Tree.Aside (t u : Tree) (p : Location) : Prop where
  dirs : t.KeepsDirs u
  files : ∀ q, q ≠ p → ∀ c, u.get? q = some (.file c) ↔ t.get? q = some (.file c)

/-- A text that does not come to its path leaves everything but the file beside it as it was. -/
theorem aside_of_replaceText {t u : Tree} {beside path text : String} {written moved : FileError → ε}
    {e : ε}
    (h : runOn t (replaceText beside path text written moved : ExceptT ε (StateM Tree) Unit) =
      (.error e, u)) :
    u = t ∨ ∃ x, t.locateParent beside = .ok (.name x) ∧ t.Aside u x.location := by
  rcases Tree.follows.entry_of_replaceText_error h with rfl | ⟨x, hx, hdir, -, hothers⟩
  · exact .inl rfl
  refine .inr ⟨x, hx, fun q hq => ?_, fun q hq c => ?_⟩
  · have hne : q ≠ x.location := by
      rintro rfl
      exact hdir hq
    rwa [← Tree.entry_eq_directory, hothers q hne, Tree.entry_eq_directory]
  · rw [← Tree.entry_eq_file, hothers q hq, Tree.entry_eq_file]

end MarketingForm.Files
