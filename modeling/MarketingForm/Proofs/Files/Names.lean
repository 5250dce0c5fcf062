import MarketingForm.Proofs.Files.Directories

/-!
# Names in directories

A name of an entry in a directory lies directly below the place of the directory
(`IsEntryName.place_join`), and its parent is the directory (`IsEntryName.samePath_parent`).
-/

namespace MarketingForm.Files

variable {t u : Tree} {path dir name : String}

/-! ## Files at places -/

/-- The bytes of the file at a place. -/
def Tree.fileAt (t : Tree) (p : Location) : Option ByteArray :=
  match t.get? p with
  | some (.file c) => some c
  | _ => none

theorem Tree.fileAt_eq_some {p : Location} {c : ByteArray} :
    t.fileAt p = some c ↔ t.get? p = some (.file c) := by
  unfold Tree.fileAt
  split
  · rename_i d hd
    rw [hd]
    exact ⟨fun h => by cases h; rfl, fun h => by cases h; rfl⟩
  · rename_i hne
    exact ⟨nofun, fun h => absurd h (hne c)⟩

theorem Tree.fileAt_eq_none {p : Location} :
    t.fileAt p = none ↔ ∀ c, t.get? p ≠ some (.file c) := by
  rw [Option.eq_none_iff_forall_ne_some]
  exact forall_congr' fun c => not_congr Tree.fileAt_eq_some

/-! ## Names of entries -/

/-- A name that an entry of a directory can have: not empty, without a slash, and not one of the dots. -/
structure IsEntryName (name : String) : Prop where
  slash : '/' ∉ name.toList
  notEmpty : name ≠ ""
  notDot : name ≠ "."
  notDots : name ≠ ".."

namespace IsEntryName

variable (h : IsEntryName name)
include h

theorem not_idle : isIdle name.toList = false := by
  have hnil : name.toList ≠ [] := fun hnil => h.notEmpty (String.toList_eq_nil_iff.1 hnil)
  have hdot : name.toList ≠ ['.'] := fun hdot => h.notDot (String.toList_injective hdot)
  simp [isIdle, hnil, hdot]

theorem ne_dots : name.toList ≠ ['.', '.'] := fun hdots => h.notDots (String.toList_injective hdots)

theorem steps_join : steps (join dir name) = steps dir ++ [name.toList] := by
  obtain ⟨ss, hsegments, hss⟩ := segments_join dir h.slash
  rw [steps, hsegments, List.filter_append, hss]
  simp [h.not_idle]

theorem join_ne : join dir name ≠ "" := by
  intro hempty
  have hsteps : steps (join dir name) = steps dir ++ [name.toList] := h.steps_join
  rw [hempty] at hsteps
  simp [steps, segments, isIdle] at hsteps

/-- The parent of a name in a directory leads where the directory leads. -/
theorem parent_join (dir : String) :
    ∃ parent, parent? (join dir name) = some parent ∧ steps parent = steps dir ∧ Tight parent ∧
      parent.toList <+: (join dir name).toList := parent_of_steps h.steps_join

theorem place_join : place (join dir name) = place dir ++ [name.toList] := by
  rw [place, h.steps_join, Tree.placeFrom_concat, Tree.onward, if_neg h.ne_dots]
  rfl

end IsEntryName

/-! ## Paths that are the same -/

/-- Where a path starts: at the root, at a lone dot, or at a name. -/
inductive Start where
  | root
  | here
  | name
deriving DecidableEq

def start (path : String) : Start :=
  if path.toList.head? = some '/' then .root
  else if (segments path.toList).head? = some ['.'] then .here
  else .name

/-- Two paths that start alike and have the same steps are one path: idle segments and slashes at the end
do not count. -/
structure SamePath (p q : String) : Prop where
  start : start p = start q
  steps : steps p = steps q

/-- A path starts with its first segment. -/
theorem start_eq {p : String} (hp : p ≠ "") {first : Segment} {rest : List Segment}
    (h : segments p.toList = first :: rest) :
    start p = if first = [] then .root else if first = ['.'] then .here else .name := by
  obtain ⟨c, r, hcons⟩ := List.exists_cons_of_ne_nil (mt String.toList_eq_nil_iff.1 hp)
  obtain ⟨s, ss, hs⟩ := List.exists_cons_of_ne_nil (segments_ne_nil r)
  rw [hcons, segments, hs] at h
  rw [start, hcons, segments, hs]
  by_cases hc : c = '/'
  · rw [if_pos hc] at h
    cases h
    simp [hc]
  · rw [if_neg hc] at h
    cases h
    simp [hc]

/-- What is cut from a path of two segments or more starts with the first one. -/
theorem exists_parent_of_segments {path : String} {first last : Segment} {rest : List Segment}
    (h : segments path.toList = first :: (rest ++ [last])) (hlast : isIdle last = false) :
    ∃ parent, parent? path = some parent ∧ parent ≠ "" ∧
      ∃ rest', segments parent.toList = first :: rest' := by
  have hcut : cut? path.toList =
      some ⟨if first :: trimIdle rest = [[]] then ['/'] else joined (first :: trimIdle rest), last⟩ := by
    unfold cut?
    simp only [h, trimIdle_concat hlast, List.getLast?_concat, List.dropLast_concat]
  refine ⟨_, by rw [parent?, hcut]; rfl, ?_⟩
  have hslash : ∀ s ∈ first :: trimIdle rest, '/' ∉ s := by
    intro s hs
    have hsub := (trimIdle_isPrefix rest).subset
    have hmem : s ∈ segments path.toList := by
      rw [h]
      simp only [List.mem_cons, List.mem_append] at hs ⊢
      exact hs.imp_right fun hs => .inl (hsub hs)
    exact slash_not_mem_of_mem_segments hmem
  by_cases hroot : first :: trimIdle rest = [[]]
  · obtain ⟨rfl, -⟩ := List.cons_eq_cons.1 hroot
    simp only [hroot, if_true]
    exact ⟨by decide, [[]], by decide⟩
  · have hsegments := segments_joined (List.cons_ne_nil first (trimIdle rest)) hslash
    simp only [hroot, if_false, String.toList_ofList]
    refine ⟨fun hempty => hroot ?_, _, hsegments⟩
    rw [← hsegments, String.ofList_eq_empty_iff.1 hempty]
    rfl

/-- The parent of a name in a directory is the directory. -/
theorem IsEntryName.samePath_parent (h : IsEntryName name) (dir : String) :
    ∃ parent, parent? (join dir name) = some parent ∧ SamePath parent dir := by
  obtain ⟨parent, hparent, hsteps, -, -⟩ := h.parent_join dir
  refine ⟨parent, hparent, ?_, hsteps⟩
  by_cases hdir : dir = ""
  · subst hdir
    have hjoin : join "" name = name := if_pos (.inr rfl)
    have hcut : cut? name.toList = some ⟨[], name.toList⟩ := by
      unfold cut?
      rw [segments_of_not_mem h.slash]
      exact if_neg (mt String.toList_eq_nil_iff.1 h.notEmpty)
    rw [hjoin, parent?, hcut] at hparent
    cases hparent
    rfl
  · obtain ⟨ss, hss, hjoin, hdirSegments⟩ := segments_join_of_ne hdir h.slash
    obtain ⟨first, rest, rfl⟩ := List.exists_cons_of_ne_nil hss
    obtain ⟨parent', hparent', hne, rest', hsegments'⟩ := exists_parent_of_segments hjoin h.not_idle
    obtain rfl : parent' = parent := Option.some.inj (hparent'.symm.trans hparent)
    rw [start_eq hne hsegments']
    rcases hdirSegments with hsegments | hsegments
    · rw [start_eq hdir hsegments]
    · rw [start_eq hdir hsegments]

/-- A name of a file directly in a directory: no slash, and too long for dots. -/
structure IsFileName (name : String) : Prop where
  slash : '/' ∉ name.toList
  length : 2 < name.toList.length

theorem IsFileName.entry (h : IsFileName name) : IsEntryName name := by
  have hlength := h.length
  refine ⟨h.slash, ?_, ?_, ?_⟩
  · rintro rfl
    simp at hlength
  · rintro rfl
    simp at hlength
  · rintro rfl
    simp at hlength

/-- The place of a name in a directory. -/
theorem IsFileName.locateParent_join (h : IsFileName name) (hsound : Tree.Sound (join dir name))
    {p : Location} (hp : t.enter [] (steps dir) = .ok p) :
    t.locateParent (join dir name) =
      if nameLimit < Text.utf8Length name.toList then .error .nameTooLong
      else .ok (.name ⟨p ++ [name.toList], false⟩) := by
  obtain ⟨ss, hsegments, hss⟩ := segments_join dir h.slash
  rw [Tree.locateParent_of_steps t hsound hsegments h.entry.not_idle, hss, hp]
  simp only [Except.bind, h.entry.ne_dots, ↓reduceIte]

/-- The way to a directory is open when its steps were taken. -/
theorem enter_of_opened {ss : List Segment} (h : t.Opened u ss) (hclear : t.Clear [] ss)
    (hss : ∀ s ∈ ss, isIdle s = false) : u.enter [] ss = .ok (Tree.placeFrom [] ss) :=
  Tree.enter_of_dirs hss (hclear.grow h.grown) fun rs hrs => (h.dirs _).2 (.inr ⟨rs, hrs, rfl⟩)

/-- Nothing is read at a free place in a directory. -/
theorem IsFileName.read_free (h : IsFileName name) (hsound : Tree.Sound (join dir name))
    (hshort : ¬ nameLimit < Text.utf8Length name.toList) {p : Location}
    (hp : t.enter [] (steps dir) = .ok p) (hfree : t.get? (p ++ [name.toList]) = none) :
    t.read (join dir name) = .error .notFound := by
  obtain ⟨ss, hsegments, hss⟩ := segments_join dir h.slash
  have hidle := h.entry.not_idle
  simp only [isIdle, Bool.or_eq_false_iff, beq_eq_false_iff_ne] at hidle
  obtain ⟨hne, hdot⟩ := hidle
  have hfilter : ((ss ++ [name.toList]).filter fun s => !s.isEmpty) =
      (ss.filter fun s => !s.isEmpty) ++ [name.toList] := by
    simp [hne]
  rw [← hss, ← Tree.enter_filter] at hp
  obtain ⟨hwalk, es, hes⟩ := Tree.enter_eq_ok.1 hp
  rw [Tree.get?_below hes] at hfree
  have hstep : t.step p name.toList = .error .notFound := by
    unfold Tree.step
    simp only [hes, hdot, h.entry.ne_dots, hshort, hfree, Option.isSome_none, Bool.false_eq_true,
      ↓reduceIte]
  unfold Tree.read Tree.locate
  rw [Tree.route_of_sound hsound h.entry.join_ne, hsegments, hfilter]
  simp only [bind, Except.bind, Tree.walk_append, hwalk, Tree.walk, hstep]

end MarketingForm.Files
