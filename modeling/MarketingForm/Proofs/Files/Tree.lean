import MarketingForm.Files.Tree

/-!
# Changes at one place of a tree

`put` and `erase` descend to a place and change the entries of the directory around it. Both are
`Local`, and what follows from that is said once: a place that lies apart from the changed one is as
it was, a directory around it has the same change further down, and every directory is still one if
none was changed. Then what lies at every other place (`Tree.entry`) stays (`Local.entry_eq`).
-/

namespace MarketingForm.Files.Tree

/-! ## Entries -/

theorem lookup_cons (m k : Segment) (t : Tree) (es : List (Segment × Tree)) :
    ((k, t) :: es).lookup m = if m = k then some t else es.lookup m := by
  rw [List.lookup_cons]
  by_cases h : m = k
  · rw [if_pos h, beq_iff_eq.2 h]
  · rw [if_neg h, beq_eq_false_iff_ne.2 h]

theorem lookup_setEntry (n m : Segment) (x : Tree) (es : List (Segment × Tree)) :
    (setEntry n x es).lookup m = if m = n then some x else es.lookup m := by
  induction es with
  | nil => exact lookup_cons m n x []
  | cons e es ih =>
    obtain ⟨k, u⟩ := e
    rw [setEntry]
    by_cases hk : k = n
    · subst hk
      rw [if_pos rfl, lookup_cons, lookup_cons]
      split <;> rfl
    · rw [if_neg hk, lookup_cons, lookup_cons, ih]
      by_cases hm : m = k
      · subst hm
        rw [if_pos rfl, if_neg hk, if_pos rfl]
      · rw [if_neg hm, if_neg hm]

theorem lookup_filter_ne {n m : Segment} (h : m ≠ n) (es : List (Segment × Tree)) :
    (es.filter fun e => e.1 != n).lookup m = es.lookup m := by
  induction es with
  | nil => rfl
  | cons e es ih =>
    obtain ⟨k, u⟩ := e
    rw [List.filter_cons, lookup_cons]
    by_cases hk : k = n
    · subst hk
      rw [if_neg (by simp), if_neg h, ih]
    · rw [if_pos (by simpa using hk), lookup_cons, ih]

/-! ## Places -/

theorem get?_nil (t : Tree) : t.get? [] = some t := by cases t <;> rfl

theorem get?_dir_cons (es : List (Segment × Tree)) (n : Segment) (l : Location) :
    (dir es).get? (n :: l) = (es.lookup n).bind fun t => t.get? l := by
  rw [get?]
  cases es.lookup n <;> rfl

theorem get?_append (t : Tree) (p q : Location) :
    t.get? (p ++ q) = (t.get? p).bind fun u => u.get? q := by
  induction p generalizing t with
  | nil => simp [get?_nil]
  | cons n p ih =>
    cases t with
    | file c => rfl
    | dir es =>
      rw [List.cons_append, get?_dir_cons, get?_dir_cons]
      cases es.lookup n with
      | none => rfl
      | some u => exact ih u

/-- A directory lies at a place. -/
def DirAt (t : Tree) (p : Location) : Prop := ∃ es, t.get? p = some (dir es)

theorem DirAt.of_append {t : Tree} {p q : Location} (h : t.DirAt (p ++ q)) : t.DirAt p := by
  obtain ⟨es, hes⟩ := h
  rw [get?_append, Option.bind_eq_some_iff] at hes
  obtain ⟨u, hu, hq⟩ := hes
  cases u with
  | dir fs => exact ⟨fs, hu⟩
  | file c =>
    cases q with
    | nil =>
      rw [get?_nil] at hq
      cases hq
    | cons n q => cases hq

theorem DirAt.dropLast {t : Tree} {p : Location} (h : t.DirAt p) : t.DirAt p.dropLast := by
  obtain ⟨q, hq⟩ := List.dropLast_prefix p
  rw [← hq] at h
  exact h.of_append

theorem DirAt.get?_ne_file {t : Tree} {p : Location} (h : t.DirAt p) (c : ByteArray) :
    t.get? p ≠ some (file c) := by
  obtain ⟨es, hes⟩ := h
  rw [hes]
  intro h
  cases h

theorem not_dirAt_of_file {t : Tree} {p : Location} {c : ByteArray} (h : t.get? p = some (file c)) :
    ¬ t.DirAt p := fun hdir => hdir.get?_ne_file c h

theorem not_dirAt_of_none {t : Tree} {p : Location} (h : t.get? p = none) : ¬ t.DirAt p := by
  rintro ⟨es, hes⟩
  rw [h] at hes
  cases hes

/-- Below a place without a directory lies nothing. -/
theorem get?_below_free {t : Tree} {p q : Location} (h : ¬ t.DirAt p) (hq : q ≠ []) :
    t.get? (p ++ q) = none := by
  rw [get?_append]
  cases hp : t.get? p with
  | none => rfl
  | some u =>
    cases u with
    | dir es => exact absurd ⟨es, hp⟩ h
    | file c =>
      obtain ⟨n, q, rfl⟩ := List.exists_cons_of_ne_nil hq
      rfl

/-- What lies at a place; of a directory its own entries are not part. -/
inductive Entry where
  | nothing
  | directory
  | file (content : ByteArray)

/-- What lies at a place of a tree. -/
def entry (t : Tree) (p : Location) : Entry :=
  match t.get? p with
  | none => .nothing
  | some (dir _) => .directory
  | some (file c) => .file c

theorem entry_eq_nothing {t : Tree} {p : Location} : t.entry p = .nothing ↔ t.get? p = none := by
  unfold entry
  split <;> simp [*]

theorem entry_eq_directory {t : Tree} {p : Location} : t.entry p = .directory ↔ t.DirAt p := by
  unfold entry DirAt
  split <;> simp [*]

theorem entry_eq_file {t : Tree} {p : Location} {c : ByteArray} :
    t.entry p = .file c ↔ t.get? p = some (file c) := by
  unfold entry
  split <;> simp [*]

/-- Places with the same directories and files are the same. -/
theorem entry_congr {t u : Tree} {p : Location} (hdirs : u.DirAt p ↔ t.DirAt p)
    (hfiles : ∀ c, u.get? p = some (file c) ↔ t.get? p = some (file c)) :
    u.entry p = t.entry p := by
  cases h : t.entry p with
  | directory => rwa [entry_eq_directory, hdirs, ← entry_eq_directory]
  | file c => rwa [entry_eq_file, hfiles, ← entry_eq_file]
  | nothing =>
    rw [entry_eq_nothing] at h ⊢
    cases hu : u.get? p with
    | none => rfl
    | some x =>
      cases x with
      | dir es =>
        obtain ⟨fs, hfs⟩ := hdirs.1 ⟨es, hu⟩
        rw [h] at hfs
        cases hfs
      | file c =>
        have hc := (hfiles c).1 hu
        rw [h] at hc
        cases hc

/-- Every directory of one tree is one in the other. -/
def KeepsDirs (t u : Tree) : Prop := ∀ p, t.DirAt p → u.DirAt p

/-- Neither place lies at or below the other. -/
def Apart (p q : Location) : Prop := ¬ p <+: q ∧ ¬ q <+: p

theorem Apart.cons_iff {n m : Segment} {p q : Location} :
    Apart (n :: p) (m :: q) ↔ n = m → Apart p q := by
  unfold Apart
  rw [List.cons_prefix_cons, List.cons_prefix_cons]
  by_cases h : n = m
  · simp [h]
  · simp [h, Ne.symm h]

/-! ## Local changes -/

/-- A change that descends to a place and works on the entries of the directory there. -/
structure Local (op : Tree → Location → Tree) : Prop where
  file : ∀ c n p, op (file c) (n :: p) = .file c
  last : ∀ es n, ∃ fs, op (dir es) [n] = dir fs ∧ ∀ m, m ≠ n → fs.lookup m = es.lookup m
  deeper : ∀ es n p, p ≠ [] → op (dir es) (n :: p) =
    match es.lookup n with
    | some t => dir (setEntry n (op t p) es)
    | none => dir es

theorem local_put (x : Tree) : Local fun t p => t.put p x where
  file _ _ _ := rfl
  last es n := by
    refine ⟨setEntry n x es, rfl, fun m hm => ?_⟩
    rw [lookup_setEntry, if_neg hm]
  deeper es n p hp := by
    obtain ⟨m, p, rfl⟩ := List.exists_cons_of_ne_nil hp
    rfl

theorem local_erase : Local erase where
  file _ _ _ := rfl
  last es n := ⟨es.filter fun e => e.1 != n, rfl, fun _ hm => lookup_filter_ne hm es⟩
  deeper es n p hp := by
    obtain ⟨m, p, rfl⟩ := List.exists_cons_of_ne_nil hp
    rfl

namespace Local

variable {op : Tree → Location → Tree}

theorem get?_apart (h : Local op) {p q : Location} (hpq : Apart p q) (t : Tree) :
    (op t p).get? q = t.get? q := by
  induction p generalizing t q with
  | nil => exact absurd List.nil_prefix hpq.1
  | cons n p ih =>
    cases q with
    | nil => exact absurd List.nil_prefix hpq.2
    | cons m q =>
      rw [Apart.cons_iff] at hpq
      cases t with
      | file c => rw [h.file]
      | dir es =>
        by_cases hp : p = []
        · subst hp
          obtain ⟨fs, hfs, hlookup⟩ := h.last es n
          have hm : m ≠ n := fun e => (hpq e.symm).1 List.nil_prefix
          rw [hfs, get?_dir_cons, get?_dir_cons, hlookup m hm]
        · rw [h.deeper es n p hp]
          cases hn : es.lookup n with
          | none => rfl
          | some u =>
            simp only [get?_dir_cons, lookup_setEntry]
            by_cases hm : m = n
            · subst hm
              rw [if_pos rfl, hn]
              exact ih (hpq rfl) u
            · rw [if_neg hm]

/-- A directory around the changed place has the change at the rest of the way. -/
theorem get?_above (h : Local op) {q : Location} (hq : q ≠ []) (p : Location) (t : Tree) :
    (op t (p ++ q)).get? p = (t.get? p).map fun u => op u q := by
  induction p generalizing t with
  | nil => simp [get?_nil]
  | cons n p ih =>
    cases t with
    | file c =>
      rw [List.cons_append, h.file]
      rfl
    | dir es =>
      rw [List.cons_append, h.deeper es n (p ++ q) (by simp [hq]), get?_dir_cons]
      cases hn : es.lookup n with
      | none =>
        simp only [get?_dir_cons, hn]
        rfl
      | some u =>
        simp only [get?_dir_cons, lookup_setEntry, if_pos, Option.bind_some]
        exact ih u

theorem isDir_op (h : Local op) (es : List (Segment × Tree)) {p : Location} (hp : p ≠ []) :
    ∃ fs, op (dir es) p = dir fs := by
  obtain ⟨n, p, rfl⟩ := List.exists_cons_of_ne_nil hp
  by_cases hp : p = []
  · subst hp
    obtain ⟨fs, hfs, -⟩ := h.last es n
    exact ⟨fs, hfs⟩
  · rw [h.deeper es n p hp]
    cases es.lookup n with
    | none => exact ⟨es, rfl⟩
    | some u => exact ⟨_, rfl⟩

theorem keepsDirs (h : Local op) {t : Tree} {p : Location} (hp : ¬ t.DirAt p) :
    t.KeepsDirs (op t p) := by
  intro q hq
  by_cases hqp : q <+: p
  · obtain ⟨r, rfl⟩ := hqp
    by_cases hr : r = []
    · subst hr
      rw [List.append_nil] at hp
      exact absurd hq hp
    · obtain ⟨es, hes⟩ := hq
      obtain ⟨fs, hfs⟩ := h.isDir_op es hr
      exact ⟨fs, by rw [h.get?_above hr, hes, Option.map_some, hfs]⟩
  · have hpq : ¬ p <+: q := by
      rintro ⟨r, rfl⟩
      exact hp hq.of_append
    unfold DirAt
    rwa [h.get?_apart ⟨hpq, hqp⟩]

/-- No directory appears above or beside the changed place. -/
theorem dirAt_of_op (h : Local op) {t : Tree} {p q : Location} (hpq : ¬ p <+: q)
    (hq : (op t p).DirAt q) : t.DirAt q := by
  obtain ⟨fs, hfs⟩ := hq
  by_cases hqp : q <+: p
  · obtain ⟨r, rfl⟩ := hqp
    have hr : r ≠ [] := by
      rintro rfl
      exact hpq (by simp)
    rw [h.get?_above hr, Option.map_eq_some_iff] at hfs
    obtain ⟨u, hu, hop⟩ := hfs
    cases u with
    | dir es => exact ⟨es, hu⟩
    | file c =>
      obtain ⟨n, r, rfl⟩ := List.exists_cons_of_ne_nil hr
      rw [h.file] at hop
      cases hop
  · rw [h.get?_apart ⟨hpq, hqp⟩] at hfs
    exact ⟨fs, hfs⟩

/-- A change where no directory lies, before it or after it, changes nothing but its place. -/
theorem entry_eq (h : Local op) {t : Tree} {p q : Location} {n : Segment} (hp : t.DirAt p)
    (hfree : ¬ t.DirAt (p ++ [n])) (hfree' : ¬ (op t (p ++ [n])).DirAt (p ++ [n]))
    (hq : q ≠ p ++ [n]) : (op t (p ++ [n])).entry q = t.entry q := by
  by_cases hup : q <+: p ++ [n]
  · -- around the place there are directories before and after
    obtain ⟨r, rfl⟩ := (List.prefix_concat_iff.1 hup).resolve_left hq
    have hdir := hp.of_append
    rw [entry_eq_directory.2 hdir, entry_eq_directory.2 (h.keepsDirs hfree q hdir)]
  by_cases hdown : p ++ [n] <+: q
  · -- and below it there is nothing
    obtain ⟨r, rfl⟩ := hdown
    have hr : r ≠ [] := by
      rintro rfl
      exact hq (by simp)
    rw [entry, entry, get?_below_free hfree hr, get?_below_free hfree' hr]
  · rw [entry, entry, h.get?_apart ⟨hdown, hup⟩]

end Local

theorem get?_put_self {t : Tree} {p : Location} (h : t.DirAt p) (n : Segment) (x : Tree) :
    (t.put (p ++ [n]) x).get? (p ++ [n]) = some x := by
  obtain ⟨es, hes⟩ := h
  have habove := (local_put x).get?_above (List.cons_ne_nil n []) p t
  rw [hes, Option.map_some] at habove
  rw [get?_append, habove, Option.bind_some, put, get?_dir_cons, lookup_setEntry, if_pos rfl,
    Option.bind_some, get?_nil]

theorem get?_erase_self {t : Tree} {p : Location} (h : t.DirAt p) (n : Segment) :
    (t.erase (p ++ [n])).get? (p ++ [n]) = none := by
  obtain ⟨es, hes⟩ := h
  have habove := local_erase.get?_above (List.cons_ne_nil n []) p t
  have hlookup : (es.filter fun e => e.1 != n).lookup n = none := by
    rw [List.lookup_eq_none_iff]
    intro e he
    exact bne_iff_ne.2 (Ne.symm (bne_iff_ne.1 (List.mem_filter.1 he).2))
  rw [hes, Option.map_some] at habove
  rw [get?_append, habove, Option.bind_some, erase, get?_dir_cons, hlookup]
  rfl

end MarketingForm.Files.Tree
