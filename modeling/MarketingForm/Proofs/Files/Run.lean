import MarketingForm.Proofs.Files.Disk

/-!
# Computations on a disk

`runOn s x` is the result of a computation on the disk `s` and the disk that it leaves. The derived
operations of a tree are run here once, so that programs above them are run through these lemmas.
-/

namespace MarketingForm.Files

variable {σ ε δ α β : Type}

/-- Runs a computation on a disk. -/
def runOn (s : σ) (x : ExceptT ε (StateM σ) α) : Except ε α × σ := (ExceptT.run x).run s

theorem runOn_bind (s : σ) (x : ExceptT ε (StateM σ) α)
    (f : α → ExceptT ε (StateM σ) β) :
    runOn s (x >>= f) =
      match runOn s x with
      | (.ok a, u) => runOn u (f a)
      | (.error e, u) => (.error e, u) := by
  unfold runOn
  rw [ExceptT.run_bind, StateT.run_bind]
  generalize (ExceptT.run x).run s = r
  obtain ⟨r, u⟩ := r
  cases r <;> rfl

theorem runOn_adapt (s : σ) (f : ε → δ) (x : ExceptT ε (StateM σ) α) :
    runOn s (x.adapt f) = ((runOn s x).1.mapError f, (runOn s x).2) := rfl

theorem runOn_tryCatch (s : σ) (x : ExceptT ε (StateM σ) α)
    (f : ε → ExceptT ε (StateM σ) α) :
    runOn s (tryCatch x f) =
      match runOn s x with
      | (.ok a, u) => (.ok a, u)
      | (.error e, u) => runOn u (f e) := by
  unfold runOn
  rw [ExceptT.run_tryCatch, StateT.run_bind]
  generalize (ExceptT.run x).run s = r
  obtain ⟨r, u⟩ := r
  cases r <;> rfl

/-- A sequence that ends well went well in both parts. -/
theorem runOn_bind_eq_ok {s v : σ} {x : ExceptT ε (StateM σ) α}
    {f : α → ExceptT ε (StateM σ) β} {b : β} :
    runOn s (x >>= f) = (.ok b, v) ↔
      ∃ a u, runOn s x = (.ok a, u) ∧ runOn u (f a) = (.ok b, v) := by
  rw [runOn_bind]
  obtain ⟨r, u⟩ := runOn s x
  cases r with
  | error e =>
    constructor
    · intro h
      cases h
    · rintro ⟨a, u', h, -⟩
      cases h
  | ok a =>
    constructor
    · intro h
      exact ⟨a, u, rfl, h⟩
    · rintro ⟨a', u', h, h'⟩
      cases h
      exact h'

/-- A sequence fails in its first part or in its second one. -/
theorem runOn_bind_eq_error {s v : σ} {x : ExceptT ε (StateM σ) α}
    {f : α → ExceptT ε (StateM σ) β} {e : ε} :
    runOn s (x >>= f) = (.error e, v) ↔
      runOn s x = (.error e, v) ∨ ∃ a u, runOn s x = (.ok a, u) ∧ runOn u (f a) = (.error e, v) := by
  rw [runOn_bind]
  obtain ⟨r, u⟩ := runOn s x
  cases r with
  | error e' =>
    constructor
    · intro h
      cases h
      exact .inl rfl
    · rintro (h | ⟨a, u', h, -⟩)
      · cases h
        rfl
      · cases h
  | ok a =>
    constructor
    · intro h
      exact .inr ⟨a, u, rfl, h⟩
    · rintro (h | ⟨a', u', h, h'⟩)
      · cases h
      · cases h
        exact h'

theorem runOn_adapt_eq_ok {s u : σ} {f : ε → δ} {x : ExceptT ε (StateM σ) α} {a : α} :
    runOn s (x.adapt f) = (.ok a, u) ↔ runOn s x = (.ok a, u) := by
  rw [runOn_adapt]
  obtain ⟨r, v⟩ := runOn s x
  cases r with
  | error e =>
    constructor <;> intro h <;> cases h
  | ok b =>
    constructor <;> intro h <;> cases h <;> rfl

theorem runOn_adapt_eq_error {s u : σ} {f : ε → δ} {x : ExceptT ε (StateM σ) α} {d : δ} :
    runOn s (x.adapt f) = (.error d, u) ↔ ∃ e, runOn s x = (.error e, u) ∧ f e = d := by
  rw [runOn_adapt]
  obtain ⟨r, v⟩ := runOn s x
  cases r with
  | error e =>
    constructor
    · intro h
      cases h
      exact ⟨e, rfl, rfl⟩
    · rintro ⟨e', h, rfl⟩
      cases h
      rfl
  | ok b =>
    constructor
    · intro h
      cases h
    · rintro ⟨e, h, -⟩
      cases h

/-- What is to make up for an error can fail itself. -/
theorem runOn_tryCatch_eq_error {s v : σ} {x : ExceptT ε (StateM σ) α}
    {f : ε → ExceptT ε (StateM σ) α} {e : ε} :
    runOn s (tryCatch x f) = (.error e, v) ↔
      ∃ e' u, runOn s x = (.error e', u) ∧ runOn u (f e') = (.error e, v) := by
  rw [runOn_tryCatch]
  obtain ⟨r, u⟩ := runOn s x
  cases r with
  | error e' =>
    constructor
    · intro h
      exact ⟨e', u, rfl, h⟩
    · rintro ⟨e'', u', h, h'⟩
      cases h
      exact h'
  | ok a =>
    constructor
    · intro h
      cases h
    · rintro ⟨e', u', h, -⟩
      cases h

/-! ## Operations of a tree -/

theorem runOn_readBytes (t : Tree) (path : String) :
    runOn t (Disk.readBytes path) = (t.read path, t) := rfl

/-- A change that goes well. -/
theorem change_eq_ok {f : Tree → Except FileError Tree} {t u : Tree} {a : Unit} :
    change f t = (.ok a, u) ↔ f t = .ok u := by
  unfold change
  cases h : f t with
  | error e =>
    constructor <;> intro h' <;> cases h'
  | ok v =>
    constructor <;> intro h' <;> cases h' <;> rfl

/-- A change that fails leaves the tree as it was. -/
theorem change_eq_error {f : Tree → Except FileError Tree} {t u : Tree} {e : FileError} :
    change f t = (.error e, u) ↔ f t = .error e ∧ u = t := by
  unfold change
  cases h : f t with
  | error e' =>
    constructor
    · intro h'
      cases h'
      exact ⟨rfl, rfl⟩
    · rintro ⟨h', rfl⟩
      cases h'
      rfl
  | ok v =>
    constructor
    · intro h'
      cases h'
    · rintro ⟨h', -⟩
      cases h'

theorem runOn_writeBytes {t u : Tree} {path : String} {c : ByteArray} {a : Unit} :
    runOn t (Disk.writeBytes path c) = (.ok a, u) ↔
      t.write path c = .ok u := change_eq_ok (f := fun t => t.write path c)

theorem runOn_move {t u : Tree} {source target : String} {a : Unit} :
    runOn t (Disk.move source target) = (.ok a, u) ↔
      t.move source target = .ok u := change_eq_ok (f := fun t => t.move source target)

/-! ## Texts -/

theorem fromUTF8?_toUTF8 (s : String) : String.fromUTF8? s.toUTF8 = some s := by
  unfold String.fromUTF8?
  rw [dif_pos (show s.toUTF8.IsValidUTF8 from s.isValidUTF8)]
  rfl

/-- The text of a file. -/
def Tree.text (t : Tree) (path : String) : Except FileError String :=
  match t.read path with
  | .ok bytes =>
    match String.fromUTF8? bytes with
    | some s => .ok s
    | none => .error .notText
  | .error e => .error e

theorem read_of_text {t : Tree} {path s : String} (h : t.text path = .ok s) :
    ∃ c, t.read path = .ok c := by
  unfold Tree.text at h
  split at h
  · rename_i c hread
    exact ⟨c, hread⟩
  · cases h

theorem runOn_readText (t : Tree) (path : String) :
    runOn t (readText path) = (t.text path, t) := by
  unfold readText Tree.text
  rw [runOn_bind, runOn_readBytes]
  cases t.read path with
  | error e => rfl
  | ok bytes =>
    cases h : String.fromUTF8? bytes <;> simp only [h] <;> rfl

theorem runOn_readText? (t : Tree) (path : String) :
    runOn t (readText? path) =
      (match t.text path with
        | .ok s => .ok (some s)
        | .error e => if e = .notFound then .ok none else .error e, t) := by
  unfold readText?
  rw [runOn_tryCatch, ← bind_pure_comp, runOn_bind, runOn_readText]
  cases t.text path with
  | ok s => rfl
  | error e =>
    by_cases he : e = .notFound <;> simp only [he, if_true, if_false] <;> rfl

theorem text_of_read {t : Tree} {path s : String} (h : t.read path = .ok s.toUTF8) :
    t.text path = .ok s := by
  unfold Tree.text
  rw [h]
  simp only [fromUTF8?_toUTF8]

end MarketingForm.Files
