import Mathlib.Data.List.Induction
import MarketingForm.Files.Path

/-!
# Segments and steps of a path

The steps of a path are its segments without the idle ones. A path that can be cut has the steps of
its parent and, unless it is a lone dot, one step more (`steps_parent`).
-/

namespace MarketingForm.Files

/-- The segments of a path that mean something. -/
def steps (path : String) : List Segment :=
  (segments path.toList).filter fun s => !isIdle s

/-! ## Segments -/

theorem segments_ne_nil (cs : List Char) : segments cs ≠ [] := by
  cases cs with
  | nil => simp [segments]
  | cons c r =>
    rw [segments]
    split
    · simp
    · split <;> simp

theorem segments_of_not_mem {cs : List Char} (h : '/' ∉ cs) : segments cs = [cs] := by
  induction cs with
  | nil => rfl
  | cons c r ih =>
    rw [List.mem_cons, not_or] at h
    rw [segments, if_neg (Ne.symm h.1), ih h.2]

theorem slash_not_mem_of_mem_segments {cs : List Char} {s : Segment} (h : s ∈ segments cs) :
    '/' ∉ s := by
  induction cs generalizing s with
  | nil =>
    rw [segments, List.mem_singleton] at h
    simp [h]
  | cons c r ih =>
    rw [segments] at h
    split at h
    · rcases List.mem_cons.1 h with rfl | h
      · simp
      · exact ih h
    · rename_i hc
      split at h
      · rename_i s' ss hs
        rcases List.mem_cons.1 h with rfl | h
        · have := ih (s := s') (by simp [hs])
          simp [this, Ne.symm hc]
        · exact ih (by simp [hs, h])
      · rename_i hnil
        exact absurd hnil (segments_ne_nil r)

theorem segments_append_slash (cs ds : List Char) :
    segments (cs ++ '/' :: ds) = segments cs ++ segments ds := by
  induction cs with
  | nil => simp [segments]
  | cons c r ih =>
    rw [List.cons_append, segments, segments, ih]
    split
    · rfl
    · obtain ⟨s, ss, hs⟩ := List.exists_cons_of_ne_nil (segments_ne_nil r)
      rw [hs]
      rfl

theorem joined_cons {s : Segment} {ss : List Segment} (h : ss ≠ []) :
    joined (s :: ss) = s ++ '/' :: joined ss := by
  obtain ⟨s', ss, rfl⟩ := List.exists_cons_of_ne_nil h
  simp [joined, List.intercalate]

theorem segments_joined {ss : List Segment} (hne : ss ≠ []) (h : ∀ s ∈ ss, '/' ∉ s) :
    segments (joined ss) = ss := by
  induction ss with
  | nil => exact absurd rfl hne
  | cons s ss ih =>
    have hs := h s List.mem_cons_self
    by_cases hss : ss = []
    · subst hss
      simpa [joined, List.intercalate] using segments_of_not_mem hs
    · rw [joined_cons hss, segments_append_slash, segments_of_not_mem hs,
        ih hss fun s' h' => h s' (List.mem_cons_of_mem s h')]
      rfl

theorem joined_segments (cs : List Char) : joined (segments cs) = cs := by
  induction cs with
  | nil => rfl
  | cons c r ih =>
    obtain ⟨s, ss, hs⟩ := List.exists_cons_of_ne_nil (segments_ne_nil r)
    rw [segments, hs]
    rw [hs] at ih
    split
    · rename_i hc
      rw [joined_cons (List.cons_ne_nil s ss), ih, hc]
      rfl
    · by_cases hss : ss = []
      · subst hss
        simpa [joined, List.intercalate] using ih
      · rw [joined_cons hss] at ih ⊢
        rw [List.cons_append, ih]

/-! ## Idle segments -/

theorem trimIdle_concat_idle {ss : List Segment} {s : Segment} (h : isIdle s = true) :
    trimIdle (ss ++ [s]) = trimIdle ss := by
  simp [trimIdle, h]

theorem trimIdle_concat {ss : List Segment} {s : Segment} (h : isIdle s = false) :
    trimIdle (ss ++ [s]) = ss ++ [s] := by
  simp [trimIdle, h]

theorem filter_trimIdle (ss : List Segment) :
    (trimIdle ss).filter (fun s => !isIdle s) = ss.filter fun s => !isIdle s := by
  induction ss using List.reverseRecOn with
  | nil => rfl
  | append_singleton ss s ih =>
    cases h : isIdle s with
    | true => rw [trimIdle_concat_idle h, ih, List.filter_append]; simp [h]
    | false => rw [trimIdle_concat h]

/-- Without idle segments at its end, a list is over or ends in a step. -/
theorem trimIdle_cases (ss : List Segment) :
    trimIdle ss = [] ∨ ∃ rs s, trimIdle ss = rs ++ [s] ∧ isIdle s = false ∧ rs ++ [s] <+: ss := by
  induction ss using List.reverseRecOn with
  | nil => exact .inl rfl
  | append_singleton ss s ih =>
    cases h : isIdle s with
    | true =>
      rw [trimIdle_concat_idle h]
      rcases ih with ih | ⟨rs, r, hr, hidle, hpre⟩
      · exact .inl ih
      · exact .inr ⟨rs, r, hr, hidle, hpre.trans (List.prefix_append ss [s])⟩
    | false =>
      rw [trimIdle_concat h]
      exact .inr ⟨ss, s, rfl, h, List.prefix_rfl⟩

theorem trimIdle_isPrefix (ss : List Segment) : trimIdle ss <+: ss := by
  rcases trimIdle_cases ss with h | ⟨rs, s, h, -, hpre⟩
  · rw [h]
    exact List.nil_prefix
  · rwa [h]

/-! ## Parents -/

/-- The path has no step, or its last segment is one. -/
def Tight (path : String) : Prop :=
  steps path = [] ∨ ∃ ss s, segments path.toList = ss ++ [s] ∧ isIdle s = false

theorem joined_prefix {ss rs : List Segment} (hne : ss ≠ []) (h : ss <+: rs) :
    joined ss <+: joined rs := by
  induction ss generalizing rs with
  | nil => exact absurd rfl hne
  | cons s ss ih =>
    obtain ⟨qs, rfl⟩ := h
    by_cases hss : ss = []
    · subst hss
      by_cases hqs : qs = []
      · subst hqs
        exact List.prefix_rfl
      · have hone : joined [s] = s := by simp [joined, List.intercalate]
        rw [List.singleton_append, joined_cons hqs, hone]
        exact List.prefix_append s _
    · rw [List.cons_append, joined_cons hss, joined_cons (by simp [hss]),
        List.prefix_append_right_inj, List.cons_prefix_cons]
      exact ⟨rfl, ih hss (List.prefix_append ss qs)⟩

/-- Segments without idle ones at the end make a tight path. -/
theorem tight_joined {first : Segment} {rs : List Segment}
    (h : ∀ s ∈ first :: trimIdle rs, '/' ∉ s) :
    Tight (String.ofList (joined (first :: trimIdle rs))) ∧
      steps (String.ofList (joined (first :: trimIdle rs))) =
        (first :: trimIdle rs).filter fun s => !isIdle s := by
  have hsegments := segments_joined (List.cons_ne_nil first (trimIdle rs)) h
  unfold Tight steps
  rw [String.toList_ofList, hsegments]
  refine ⟨?_, rfl⟩
  rcases trimIdle_cases rs with hnil | ⟨qs, q, hq, hidle, -⟩
  · rw [hnil]
    cases hfirst : isIdle first with
    | true => exact .inl (by simp [hfirst])
    | false => exact .inr ⟨[], first, rfl, hfirst⟩
  · exact .inr ⟨first :: qs, q, by rw [hq]; rfl, hidle⟩

/-- What a path begins with, up to some of its segments, is a tight path of their steps. -/
theorem tight_parent {path : String} {first : Segment} {rs rest : List Segment} {parent : List Char}
    (hsegments : segments path.toList = first :: rest) (hpre : rs <+: rest) (hne : rest ≠ [])
    (hparent : parent =
      if first :: trimIdle rs = [[]] then ['/'] else joined (first :: trimIdle rs)) :
    parent <+: path.toList ∧ Tight (String.ofList parent) ∧
      steps (String.ofList parent) = (first :: trimIdle rs).filter fun s => !isIdle s := by
  subst hparent
  by_cases hroot : first :: trimIdle rs = [[]]
  · rw [if_pos hroot, hroot]
    obtain ⟨rfl, -⟩ := List.cons_eq_cons.1 hroot
    have hslash : steps (String.ofList ['/']) = [] := by decide
    rw [← joined_segments path.toList, hsegments, joined_cons hne]
    exact ⟨List.prefix_append ['/'] _, .inl hslash, hslash⟩
  · rw [if_neg hroot]
    have hbefore : first :: trimIdle rs <+: first :: rest :=
      (List.prefix_cons_inj first).2 ((trimIdle_isPrefix rs).trans hpre)
    have hslash : ∀ s ∈ first :: trimIdle rs, '/' ∉ s := fun s hs =>
      slash_not_mem_of_mem_segments (hsegments ▸ hbefore.subset hs)
    rw [← joined_segments path.toList, hsegments]
    have hparent := joined_prefix (List.cons_ne_nil _ _) hbefore
    exact ⟨hparent, tight_joined hslash⟩

/-- What a cut leaves of a path. -/
theorem cut?_eq_some {path : String} {c : Cut} (hc : cut? path.toList = some c) :
    c.parent <+: path.toList ∧ Tight (String.ofList c.parent) ∧
      ((steps path = [] ∧ steps (String.ofList c.parent) = [] ∧ c.last = ['.']) ∨
        steps path = steps (String.ofList c.parent) ++ [c.last]) := by
  unfold cut? at hc
  obtain ⟨first, rest, hsegments⟩ := List.exists_cons_of_ne_nil (segments_ne_nil path.toList)
  have hsteps : steps path =
      (first :: trimIdle rest).filter fun s => !isIdle s := by
    rw [steps, hsegments, List.filter_cons, List.filter_cons, filter_trimIdle]
  simp only [hsegments] at hc
  rcases trimIdle_cases rest with hnil | ⟨rs, last, hrest, hlast, hpre⟩
  · simp only [hnil, List.getLast?_nil] at hc
    rw [hnil] at hsteps
    split at hc
    · cases hc
    · rename_i hne
      cases hc
      have hempty : steps (String.ofList []) = [] := by decide
      refine ⟨by simp, .inl hempty, ?_⟩
      rw [hsteps, hempty]
      cases hfirst : isIdle first with
      | true => exact .inl ⟨by simp [hfirst], rfl, by simpa [isIdle, hne] using hfirst⟩
      | false => exact .inr (by simp [hfirst])
  · simp only [hrest, List.getLast?_concat, List.dropLast_concat] at hc
    cases hc
    have hne : rest ≠ [] := by
      rintro rfl
      simp at hpre
    obtain ⟨hparent, htight, hbefore⟩ :=
      tight_parent hsegments ((List.prefix_append rs [last]).trans hpre) hne rfl
    refine ⟨hparent, htight, .inr ?_⟩
    rw [hbefore, hsteps, hrest, ← List.cons_append, List.filter_append]
    simp [hlast, List.filter_cons, filter_trimIdle]

/-- What stands before the last step of a path. -/
theorem parent?_eq_some {path parent : String} (h : parent? path = some parent) :
    parent.toList <+: path.toList ∧ Tight parent ∧
      ((steps path = [] ∧ steps parent = []) ∨ ∃ s, steps path = steps parent ++ [s]) := by
  obtain ⟨c, hc, rfl⟩ := Option.map_eq_some_iff.1 h
  obtain ⟨hpre, htight, ⟨hpath, hparent, -⟩ | hlast⟩ := cut?_eq_some hc
  · exact ⟨by rwa [String.toList_ofList], htight, .inl ⟨hpath, hparent⟩⟩
  · exact ⟨by rwa [String.toList_ofList], htight, .inr ⟨c.last, hlast⟩⟩

/-- The parent of a path takes all its steps but the last one. -/
theorem steps_parent {path parent : String} (h : parent? path = some parent) :
    steps parent = (steps path).dropLast := by
  obtain ⟨-, -, ⟨hpath, hparent⟩ | ⟨s, hs⟩⟩ := parent?_eq_some h
  · rw [hpath, hparent]
    rfl
  · rw [hs, List.dropLast_concat]

/-- The name at the end of a path is its last step. -/
theorem fileName?_eq_some {path name : String} (h : fileName? path = some name) :
    ∃ parent, parent? path = some parent ∧ steps path = steps parent ++ [name.toList] ∧
      name.toList ≠ ['.', '.'] := by
  unfold fileName? at h
  split at h
  · rename_i c hc
    split at h
    · cases h
    · rename_i hdots
      cases h
      rw [not_or] at hdots
      obtain ⟨-, -, ⟨-, -, hdot⟩ | hlast⟩ := cut?_eq_some hc
      · exact absurd hdot hdots.1
      · exact ⟨String.ofList c.parent, by rw [parent?, hc]; rfl, by rwa [String.toList_ofList],
          by rw [String.toList_ofList]; exact hdots.2⟩
  · cases h

theorem steps_eq_nil_of_parent?_eq_none {path : String} (h : parent? path = none) :
    steps path = [] := by
  rw [parent?, Option.map_eq_none_iff] at h
  unfold cut? at h
  obtain ⟨first, rest, hsegments⟩ := List.exists_cons_of_ne_nil (segments_ne_nil path.toList)
  simp only [hsegments] at h
  rw [steps, hsegments]
  rcases trimIdle_cases rest with hnil | ⟨rs, last, hrest, -, -⟩
  · simp only [hnil, List.getLast?_nil] at h
    split at h
    · rename_i hfirst
      rw [List.filter_cons, ← filter_trimIdle, hnil, hfirst]
      rfl
    · cases h
  · simp only [hrest, List.getLast?_concat] at h
    cases h

/-! ## Names in a directory -/

/-- The segments of a name in a directory are those of the directory, but for a slash at its end. -/
theorem segments_join_of_ne {dir name : String} (hdir : dir ≠ "") (hname : '/' ∉ name.toList) :
    ∃ ss, ss ≠ [] ∧ segments (join dir name).toList = ss ++ [name.toList] ∧
      (segments dir.toList = ss ∨ segments dir.toList = ss ++ [[]]) := by
  have hhead : ¬ name.toList.head? = some '/' := fun h => hname (List.mem_of_head? h)
  unfold join
  rw [if_neg (by simp [hhead, hdir])]
  by_cases hlast : dir.toList.getLast? = some '/'
  · obtain ⟨d, hd⟩ := List.getLast?_eq_some_iff.1 hlast
    rw [if_pos hlast, String.toList_append, hd, List.append_assoc, List.singleton_append,
      segments_append_slash, segments_of_not_mem hname, segments_append_slash]
    exact ⟨segments d, segments_ne_nil d, rfl, .inr rfl⟩
  · have happend : (dir ++ "/" ++ name).toList = dir.toList ++ '/' :: name.toList := by simp
    rw [if_neg hlast, happend, segments_append_slash, segments_of_not_mem hname]
    exact ⟨segments dir.toList, segments_ne_nil _, rfl, .inl rfl⟩

/-- The segments of a path inside a directory. -/
theorem segments_join (dir : String) {name : String} (hname : '/' ∉ name.toList) :
    ∃ ss, segments (join dir name).toList = ss ++ [name.toList] ∧
      (ss.filter fun s => !isIdle s) = steps dir := by
  by_cases hdir : dir = ""
  · have hjoin : join dir name = name := if_pos (.inr hdir)
    rw [hjoin]
    exact ⟨[], segments_of_not_mem hname, by rw [hdir]; rfl⟩
  · obtain ⟨ss, -, hsegments, hss⟩ := segments_join_of_ne hdir hname
    refine ⟨ss, hsegments, ?_⟩
    rcases hss with hss | hss
    · rw [steps, hss]
    · rw [steps, hss, List.filter_append]
      simp [isIdle]

end MarketingForm.Files
