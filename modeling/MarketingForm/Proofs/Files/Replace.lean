import MarketingForm.Proofs.Files.Names

/-!
# Texts that take a place

A text that is written by way of a file beside its path comes there as a whole (`Replaced`) or not at
all (`Withheld`). Whatever else has changed is a directory that was missing on the way to the path
(`Tree.Along`). The file beside the path is gone when the text has come; otherwise nothing new is left
there (`Cleared`) if the disk spares that path.
-/

namespace MarketingForm.Files

variable {σ ε : Type} [Disk (StateM σ)] {tree : σ → Tree} {Spared : String → Prop} {s s' : σ}
  {t u : Tree} {path beside text : String} {written moved : FileError → ε}

/-- A text has come to a path by way of a file beside it. -/
structure Replaced (t u : Tree) (path beside text : String) : Prop where
  read : u.read path = .ok text.toUTF8
  target : u.entry (place path) = .file text.toUTF8
  gone : u.entry (place beside) = .nothing
  others : ∀ p, p ≠ place path → p ≠ place beside →
    u.entry p = t.entry p ∨ t.Came u (steps path).dropLast p

/-- A text has not come to a path. -/
structure Withheld (t u : Tree) (path beside : String) : Prop where
  target : u.entry (place path) = t.entry (place path) ∨
    t.Came u (steps path).dropLast (place path)
  others : ∀ p, p ≠ place path → p ≠ place beside →
    u.entry p = t.entry p ∨ t.Came u (steps path).dropLast p

/-- No new file is left beside a path. -/
def Cleared (t u : Tree) (path beside : String) : Prop :=
  u.entry (place beside) = .nothing ∨ u.entry (place beside) = t.entry (place beside) ∨
    t.Came u (steps path).dropLast (place beside)

/-- Where only directories have come on the way, a text is withheld and nothing is left. -/
theorem withheld_of_along {P : Prop} (h : t.Along u (steps path).dropLast) :
    Withheld t u path beside ∧ (P → Cleared t u path beside) :=
  ⟨⟨h (place path), fun p _ _ => h p⟩, fun _ => .inr (h (place beside))⟩

namespace Follows

variable (hdisk : Follows tree Spared) (hne : place path ≠ place beside)
  (hway : t.Along (tree s) (steps path).dropLast)
include hdisk hne hway

/-- A text that does not come to its path is withheld. -/
theorem withheld_of_replaceText {e : ε}
    (h : runOn s (replaceText beside path text written moved) = (.error e, s')) :
    Withheld t (tree s') path beside ∧ (Spared beside → Cleared t (tree s') path beside) := by
  rcases hdisk.entry_of_replaceText_error h with hsame | ⟨x, hx, -, hnothing, hothers⟩
  · rw [hsame]
    exact withheld_of_along hway
  · rw [location_of_target hx] at hnothing hothers
    exact ⟨⟨hway.congr (hothers _ hne), fun p _ hp => hway.congr (hothers p hp)⟩,
      fun hspared => .inl (hnothing hspared)⟩

/-- A text that comes to its path replaces what was there. -/
theorem replaced_of_replaceText {a : Unit}
    (h : runOn s (replaceText beside path text written moved) = (.ok a, s')) :
    Replaced t (tree s') path beside text := by
  obtain ⟨v, hwrite, hmove⟩ := hdisk.replaceText_ok h
  obtain ⟨x, hx, -⟩ := Tree.write_eq_ok hwrite
  obtain ⟨x', y, _, hx', hy, -⟩ := Tree.move_eq_ok hmove
  have hplace := location_of_target hx'
  have hplace' := location_of_target hy
  -- the file beside the path has come to the path, and nothing else has changed
  obtain ⟨hfile, hothers⟩ := Tree.entry_of_write hwrite hx
  obtain ⟨hthere, hgone, hothers'⟩ :=
    Tree.entry_of_move hmove hx' hy (by rw [hplace, hplace']; exact hne.symm)
  rw [location_of_target hx] at hfile hothers
  rw [hplace] at hthere hgone hothers'
  rw [hplace'] at hthere hothers'
  exact ⟨Tree.read_of_move hmove (Tree.read_of_write hwrite), hthere.trans hfile, hgone,
    fun p hp hp' => hway.congr ((hothers' p hp' hp).trans (hothers p hp'))⟩

end Follows

end MarketingForm.Files
