import MarketingForm.Proofs.Files.Path
import MarketingForm.Proofs.Files.Run

/-!
# Ways through a tree

A path leads through a tree step by step (`Tree.enter`). A way is clear (`Tree.Clear`) if every name on
it is short enough and no file lies on it: then only something missing can stop it (`Clear.enter_error`).
The way of a sound path leads where its steps lead (`locateParent_of_steps`), and a directory lies at a
path if and only if its way is open to the end (`isDirPath_iff`). The place of a path does not depend on
what lies there (`location_of_target`).
-/

namespace MarketingForm.Files

namespace Tree

/-! ## Entering directories -/

/-- The directory where segments lead. -/
def enter (t : Tree) (p : Location) (ss : List Segment) : Except FileError Location :=
  (t.walk p ss).bind fun q =>
    match t.get? q with
    | some (dir _) => .ok q
    | some (file _) => .error .notDirectory
    | none => .error .notFound

theorem enter_eq_ok {t : Tree} {p q : Location} {ss : List Segment} :
    t.enter p ss = .ok q ↔ t.walk p ss = .ok q ∧ t.DirAt q := by
  unfold enter
  rw [bind_eq_ok]
  constructor
  · rintro ⟨a, hwalk, h⟩
    split at h
    · rename_i es hes
      cases h
      exact ⟨hwalk, es, hes⟩
    · cases h
    · cases h
  · rintro ⟨hwalk, es, hes⟩
    exact ⟨q, hwalk, by simp only [hes]⟩

theorem enter_cons (t : Tree) (p : Location) (s : Segment) (ss : List Segment) :
    t.enter p (s :: ss) = (t.step p s).bind fun q => t.enter q ss := by
  unfold enter
  rw [walk]
  cases t.step p s <;> rfl

theorem enter_concat (t : Tree) (p : Location) (ss : List Segment) (s : Segment) :
    t.enter p (ss ++ [s]) = (t.enter p ss).bind fun q => t.enter q [s] := by
  induction ss generalizing p with
  | nil =>
    have hnil : t.enter p [] = match t.get? p with
        | some (dir _) => .ok p
        | some (file _) => .error .notDirectory
        | none => .error .notFound := rfl
    rw [List.nil_append, hnil]
    cases h : t.get? p with
    | none => simp [enter_cons, step, h, Except.bind]
    | some u =>
      cases u with
      | dir es => rfl
      | file c => simp [enter_cons, step, h, Except.bind]
  | cons r ss ih =>
    rw [List.cons_append, enter_cons, enter_cons]
    cases t.step p r with
    | error e => rfl
    | ok q => exact ih q

/-- A dot leads nowhere. -/
theorem enter_dot (t : Tree) (p : Location) (ss : List Segment) :
    t.enter p (['.'] :: ss) = t.enter p ss := by
  rw [enter_cons]
  cases h : t.get? p with
  | none => cases ss <;> simp [enter, step, walk, h, Except.bind]
  | some u =>
    cases u with
    | dir es => simp [step, h, Except.bind]
    | file c => cases ss <;> simp [enter, step, walk, h, Except.bind]

theorem enter_filter (t : Tree) (p : Location) (ss : List Segment) :
    t.enter p (ss.filter fun s => !s.isEmpty) = t.enter p (ss.filter fun s => !isIdle s) := by
  induction ss generalizing p with
  | nil => rfl
  | cons s ss ih =>
    rw [List.filter_cons, List.filter_cons]
    by_cases hempty : s = []
    · subst hempty
      exact ih p
    by_cases hdot : s = ['.']
    · subst hdot
      exact (enter_dot t p _).trans (ih p)
    · have hidle : isIdle s = false := by simp [isIdle, hempty, hdot]
      rw [if_pos (by simpa using hempty), if_pos (by simp [hidle]), enter_cons, enter_cons]
      cases t.step p s with
      | error e => rfl
      | ok q => exact ih q

/-! ## Ways -/

/-- The place behind one more step, if all is there. -/
def onward (p : Location) (s : Segment) : Location :=
  if s = ['.', '.'] then p.dropLast else p ++ [s]

/-- The place where steps lead, if all is there. -/
def placeFrom (p : Location) (ss : List Segment) : Location := ss.foldl onward p

/-- Nothing on a way hinders directories: no name is too long, and no file lies on it. -/
structure Clear (t : Tree) (p : Location) (ss : List Segment) : Prop where
  names : ∀ s ∈ ss, ¬ nameLimit < Text.utf8Length s
  places : ∀ rs, rs <+: ss → ∀ c, t.get? (placeFrom p rs) ≠ some (file c)

theorem placeFrom_concat (p : Location) (ss : List Segment) (s : Segment) :
    placeFrom p (ss ++ [s]) = onward (placeFrom p ss) s := by
  simp [placeFrom]

/-- What holds of all places on a way holds on a longer one if it holds of the place behind it. -/
theorem forall_place_concat {P : Location → Prop} {p : Location} {ss : List Segment} {s : Segment} :
    (∀ rs, rs <+: ss ++ [s] → P (placeFrom p rs)) ↔
      (∀ rs, rs <+: ss → P (placeFrom p rs)) ∧ P (onward (placeFrom p ss) s) := by
  rw [← placeFrom_concat]
  constructor
  · intro h
    exact ⟨fun rs hrs => h rs (hrs.trans (List.prefix_append ss [s])), h _ List.prefix_rfl⟩
  · rintro ⟨hbefore, hlast⟩ rs hrs
    rcases List.prefix_concat_iff.1 hrs with rfl | hrs
    · exact hlast
    · exact hbefore rs hrs

/-- A step that is not idle leads from a directory onward. -/
theorem step_eq_ok_onward {t : Tree} {p q : Location} {s : Segment} (hs : isIdle s = false)
    (h : t.step p s = .ok q) :
    t.DirAt p ∧ q = onward p s ∧ ¬ nameLimit < Text.utf8Length s := by
  obtain ⟨hp, ⟨rfl, -⟩ | ⟨rfl, rfl⟩ | ⟨hname, -, rfl⟩⟩ := step_eq_ok.1 h
  · cases hs
  · exact ⟨hp, rfl, by decide⟩
  · exact ⟨hp, by simp [onward, hname.notDots], hname.length⟩

theorem enter_concat_eq_ok {t : Tree} {p q : Location} {ss : List Segment} {s : Segment}
    (hs : isIdle s = false) (h : t.enter p (ss ++ [s]) = .ok q) :
    ∃ r, t.enter p ss = .ok r ∧ q = onward r s ∧ ¬ nameLimit < Text.utf8Length s ∧ t.DirAt q := by
  rw [enter_concat] at h
  obtain ⟨r, hr, h⟩ := bind_eq_ok.1 h
  obtain ⟨hwalk, hq⟩ := enter_eq_ok.1 h
  obtain ⟨a, hstep, ha⟩ := bind_eq_ok.1 hwalk
  cases ha
  obtain ⟨-, rfl, hlength⟩ := step_eq_ok_onward hs hstep
  exact ⟨r, hr, rfl, hlength, hq⟩

/-- A way that is open to its end leads along directories. -/
theorem dirAt_of_enter {t : Tree} {p q : Location} {ss : List Segment}
    (hss : ∀ s ∈ ss, isIdle s = false) (h : t.enter p ss = .ok q) :
    q = placeFrom p ss ∧ (∀ s ∈ ss, ¬ nameLimit < Text.utf8Length s) ∧
      ∀ rs, rs <+: ss → t.DirAt (placeFrom p rs) := by
  induction ss using List.reverseRecOn generalizing q with
  | nil =>
    obtain ⟨hwalk, hq⟩ := enter_eq_ok.1 h
    cases hwalk
    refine ⟨rfl, by simp, fun rs hrs => ?_⟩
    rw [List.prefix_nil.1 hrs]
    exact hq
  | append_singleton ss s ih =>
    obtain ⟨r, hr, rfl, hlength, hq⟩ := enter_concat_eq_ok (hss s (by simp)) h
    obtain ⟨rfl, hnames, hdirs⟩ := ih (fun s' h' => hss s' (by simp [h'])) hr
    exact ⟨(placeFrom_concat p ss s).symm,
      List.forall_mem_append.2 ⟨hnames, List.forall_mem_singleton.2 hlength⟩,
      forall_place_concat.2 ⟨hdirs, hq⟩⟩

theorem clear_of_enter {t : Tree} {p q : Location} {ss : List Segment}
    (hss : ∀ s ∈ ss, isIdle s = false) (h : t.enter p ss = .ok q) : t.Clear p ss := by
  obtain ⟨-, hnames, hdirs⟩ := dirAt_of_enter hss h
  exact ⟨hnames, fun rs hrs => (hdirs rs hrs).get?_ne_file⟩

theorem Clear.of_concat {t : Tree} {p : Location} {ss : List Segment} {s : Segment}
    (h : t.Clear p (ss ++ [s])) : t.Clear p ss :=
  ⟨fun r hr => h.names r (by simp [hr]), fun rs hrs => h.places rs (hrs.trans (by simp))⟩

theorem clear_concat {t : Tree} {p : Location} {ss : List Segment} {s : Segment}
    (h : t.Clear p ss) (hs : ¬ nameLimit < Text.utf8Length s)
    (hplace : ∀ c, t.get? (onward (placeFrom p ss) s) ≠ some (file c)) : t.Clear p (ss ++ [s]) := by
  exact ⟨List.forall_mem_append.2 ⟨h.names, List.forall_mem_singleton.2 hs⟩,
    (forall_place_concat (P := fun q => ∀ c, t.get? q ≠ some (file c))).2 ⟨h.places, hplace⟩⟩

/-- A step to where a directory may be fails only if nothing is there. -/
theorem enter_step_error {t : Tree} {p : Location} {s : Segment} {e : FileError} (hp : t.DirAt p)
    (hs : isIdle s = false) (hlength : ¬ nameLimit < Text.utf8Length s)
    (hplace : ∀ c, t.get? (onward p s) ≠ some (file c)) (he : t.enter p [s] = .error e) :
    e = .notFound := by
  obtain ⟨es, hes⟩ := hp
  have hdot : ¬ s = ['.'] := by
    rintro rfl
    cases hs
  unfold onward at hplace
  simp only [Except.bind, enter, walk, step, hes, hdot, ↓reduceIte, hlength] at he
  by_cases hdots : s = ['.', '.']
  · simp only [hdots, ↓reduceIte] at he hplace
    split at he
    · cases he
    · rename_i c hc
      exact absurd hc (hplace c)
    · cases he
      rfl
  · simp only [hdots, ↓reduceIte] at he hplace
    cases hlookup : es.lookup s with
    | none =>
      simp only [hlookup, Option.isSome_none, Bool.false_eq_true, ↓reduceIte] at he
      cases he
      rfl
    | some u =>
      rw [get?_below hes, hlookup] at hplace
      simp only [hlookup, Option.isSome_some, ↓reduceIte, get?_below hes] at he
      cases u with
      | dir fs => cases he
      | file c => exact absurd rfl (hplace c)

/-- On a clear way only something missing can stop. -/
theorem Clear.enter_error {t : Tree} {p : Location} {ss : List Segment} {e : FileError}
    (h : t.Clear p ss) (hss : ∀ s ∈ ss, isIdle s = false) (he : t.enter p ss = .error e) :
    e = .notFound := by
  induction ss using List.reverseRecOn with
  | nil =>
    have hroot := h.places [] List.prefix_rfl
    unfold enter walk Except.bind at he
    simp only at he
    split at he
    · cases he
    · rename_i c hc
      exact absurd hc (hroot c)
    · cases he
      rfl
  | append_singleton ss s ih =>
    have hss' : ∀ r ∈ ss, isIdle r = false := fun r hr => hss r (by simp [hr])
    rw [enter_concat] at he
    cases hq : t.enter p ss with
    | error e' =>
      rw [hq] at he
      cases he
      exact ih h.of_concat hss' hq
    | ok q =>
      obtain ⟨rfl, -, -⟩ := dirAt_of_enter hss' hq
      have hplace := h.places (ss ++ [s]) List.prefix_rfl
      rw [placeFrom_concat] at hplace
      rw [hq] at he
      exact enter_step_error (enter_eq_ok.1 hq).2 (hss s (by simp)) (h.names s (by simp)) hplace he

/-- A way along directories is open. -/
theorem enter_of_dirs {t : Tree} {p : Location} {ss : List Segment} (hss : ∀ s ∈ ss, isIdle s = false)
    (hclear : t.Clear p ss) (hdirs : ∀ rs, rs <+: ss → t.DirAt (placeFrom p rs)) :
    t.enter p ss = .ok (placeFrom p ss) := by
  induction ss using List.reverseRecOn with
  | nil => exact enter_eq_ok.2 ⟨rfl, hdirs [] List.prefix_rfl⟩
  | append_singleton ss s ih =>
    obtain ⟨hdirs, hlast⟩ := forall_place_concat.1 hdirs
    have hbefore := ih (fun r hr => hss r (by simp [hr])) hclear.of_concat hdirs
    have hidle := hss s (by simp)
    rw [placeFrom_concat, enter_concat, hbefore]
    refine enter_eq_ok.2 ⟨bind_eq_ok.2 ⟨_, step_eq_ok.2 ⟨(enter_eq_ok.1 hbefore).2, ?_⟩, rfl⟩, hlast⟩
    by_cases hdots : s = ['.', '.']
    · exact .inr (.inl ⟨hdots, by rw [onward, if_pos hdots]⟩)
    · rw [onward, if_neg hdots] at hlast ⊢
      obtain ⟨es, hes⟩ := hlast
      have hdot : s ≠ ['.'] := by
        rintro rfl
        cases hidle
      exact .inr (.inr ⟨⟨hdot, hdots, hclear.names s (by simp)⟩, by rw [hes]; rfl, rfl⟩)

/-! ## Paths -/

/-- The system takes the path: it has no zero character and is not too long. -/
structure Sound (path : String) : Prop where
  nul : '\x00' ∉ path.toList
  short : Text.utf8Length path.toList < pathLimit

theorem utf8Length_append (cs ds : List Char) :
    Text.utf8Length (cs ++ ds) = Text.utf8Length cs + Text.utf8Length ds := by
  induction cs with
  | nil => simp [Text.utf8Length]
  | cons c cs ih => simp [Text.utf8Length, ih, Nat.add_assoc]

theorem Sound.of_prefix {path parent : String} (h : Sound path)
    (hpre : parent.toList <+: path.toList) : Sound parent := by
  obtain ⟨r, hr⟩ := hpre
  have hnul := h.nul
  have hshort := h.short
  rw [← hr] at hnul hshort
  rw [utf8Length_append] at hshort
  exact ⟨fun hmem => hnul (List.mem_append_left r hmem), by omega⟩

theorem route_of_sound {path : String} (h : Sound path) (hne : path ≠ "") :
    route path = .ok ⟨(segments path.toList).filter fun s => !s.isEmpty,
      path.toList.getLast? == some '/'⟩ := by
  have hempty : path.toList.isEmpty = false := by
    rw [List.isEmpty_eq_false_iff]
    exact fun h => hne (String.toList_eq_nil_iff.1 h)
  unfold route
  rw [if_neg h.nul, if_neg (by simp [hempty]), if_neg (Nat.not_le.2 h.short)]

theorem sound_of_route {path : String} {r : Route} (h : route path = .ok r) :
    Sound path ∧ path ≠ "" := by
  simp only [route] at h
  split at h
  · cases h
  rename_i hnul
  split at h
  · cases h
  rename_i hempty
  split at h
  · cases h
  rename_i hshort
  refine ⟨⟨hnul, Nat.lt_of_not_le hshort⟩, ?_⟩
  rintro rfl
  exact hempty rfl

theorem steps_not_idle (path : String) : ∀ s ∈ steps path, isIdle s = false := by
  intro s hs
  simpa using (List.mem_filter.1 hs).2

/-- A path that ends in a slash ends in an empty segment. -/
theorem not_slashed {path : String} {ss : List Segment} {s : Segment}
    (h : segments path.toList = ss ++ [s]) (hs : isIdle s = false) :
    (path.toList.getLast? == some '/') = false := by
  rw [beq_eq_false_iff_ne]
  intro hlast
  obtain ⟨d, hd⟩ := List.getLast?_eq_some_iff.1 hlast
  rw [hd, segments_append_slash] at h
  obtain rfl : [] = s := by simpa [segments] using congrArg List.getLast? h
  cases hs

/-- The place of a path whose last segment is a step. -/
theorem locateParent_of_steps (t : Tree) {path : String} {ss : List Segment} {s : Segment}
    (hpath : Sound path) (hsegments : segments path.toList = ss ++ [s]) (hs : isIdle s = false) :
    t.locateParent path = (t.enter [] (ss.filter fun r => !isIdle r)).bind fun p =>
      if s = ['.', '.'] then .ok (.dots p.dropLast)
      else if nameLimit < Text.utf8Length s then .error .nameTooLong
      else .ok (.name ⟨p ++ [s], false⟩) := by
  have hempty : ¬ s = [] := by
    rintro rfl
    cases hs
  have hdot : ¬ s = ['.'] := by
    rintro rfl
    cases hs
  have hne : path ≠ "" := by
    rintro rfl
    exact hempty (by simpa [segments] using (congrArg List.getLast? hsegments).symm)
  have hfilter : ((ss ++ [s]).filter fun r => !r.isEmpty) = (ss.filter fun r => !r.isEmpty) ++ [s] := by
    simp [hempty]
  unfold locateParent
  rw [route_of_sound hpath hne, hsegments, hfilter, not_slashed hsegments hs, ← enter_filter]
  simp only [bind, Except.bind, List.getLast?_concat, List.dropLast_concat, enter]
  cases t.walk [] (ss.filter fun r => !r.isEmpty) with
  | error e => rfl
  | ok p =>
    simp only [hdot, ↓reduceIte]
    cases t.get? p with
    | none => rfl
    | some u => cases u <;> rfl

/-- The place of a path without steps is the root. -/
theorem locateParent_of_no_steps {t : Tree} {path : String} (hpath : Sound path) (hne : path ≠ "")
    (hsteps : steps path = []) (hroot : t.DirAt []) : t.locateParent path = .ok (.dots []) := by
  have hdots : ∀ s ∈ (segments path.toList).filter fun s => !s.isEmpty, s = ['.'] := by
    intro s hs
    obtain ⟨hs, hempty⟩ := List.mem_filter.1 hs
    have hidle := List.filter_eq_nil_iff.1 hsteps s hs
    simpa [isIdle, List.isEmpty_iff, show ¬ s = [] by simpa using hempty] using hidle
  unfold locateParent
  rw [route_of_sound hpath hne]
  generalize (segments path.toList).filter (fun s => !s.isEmpty) = ss at hdots
  rcases List.eq_nil_or_concat ss with rfl | ⟨ss, s, rfl⟩
  · rfl
  · rw [List.concat_eq_append] at hdots ⊢
    obtain rfl : s = ['.'] := hdots s (by simp)
    have hwalk : t.walk [] ss = .ok [] := by
      obtain ⟨es, hes⟩ := hroot
      clear hne hsteps
      induction ss with
      | nil => rfl
      | cons s ss ih =>
        obtain rfl : s = ['.'] := hdots s (by simp)
        rw [walk, step, hes]
        exact ih fun r hr => hdots r (by simp at hr ⊢; tauto)
    obtain ⟨es, hes⟩ := hroot
    simp only [bind, Except.bind, List.getLast?_concat, List.dropLast_concat, hwalk, hes,
      ↓reduceIte]

/-! ## Directories at paths -/

variable {t : Tree} {path : String}

/-- Whether a directory lies at a path. -/
def isDirPath (t : Tree) (path : String) : Bool :=
  match t.locate path with
  | .ok loc => (t.get? loc).any Tree.isDir
  | .error _ => false

/-- The path of a directory leads there step by step. -/
theorem isDirPath_iff :
    t.isDirPath path = true ↔ Sound path ∧ path ≠ "" ∧ ∃ p, t.enter [] (steps path) = .ok p := by
  constructor
  · intro h
    unfold isDirPath at h
    split at h
    · rename_i p hlocate
      obtain ⟨r, hroute, hwalk, -⟩ := locate_eq_ok.1 hlocate
      obtain ⟨hsound, hne⟩ := sound_of_route hroute
      rw [route_of_sound hsound hne] at hroute
      cases hroute
      obtain ⟨x, hx, hdir⟩ := (Option.any_eq_true _ _).1 h
      refine ⟨hsound, hne, p, ?_⟩
      rw [steps, ← enter_filter]
      cases x with
      | file c => cases hdir
      | dir es => exact enter_eq_ok.2 ⟨hwalk, es, hx⟩
    · cases h
  · rintro ⟨hsound, hne, p, hp⟩
    rw [steps, ← enter_filter] at hp
    obtain ⟨hwalk, es, hes⟩ := enter_eq_ok.1 hp
    have hlocate : t.locate path = .ok p :=
      locate_eq_ok.2 ⟨_, route_of_sound hsound hne, hwalk, fun _ c h => by simp [hes] at h⟩
    rw [isDirPath, hlocate]
    simp only [hes]
    rfl

end Tree

/-! ## Places of paths -/

section

variable {t : Tree} {path : String}

/-- The place of a path, if all directories on the way are there. -/
def place (path : String) : Location := Tree.placeFrom [] (steps path)

/-- Steps that can be taken lead to their place. -/
theorem place_of_walk {p q : Location} {ss : List Segment} (hss : ∀ s ∈ ss, s ≠ [])
    (h : t.walk p ss = .ok q) : q = Tree.placeFrom p (ss.filter fun s => !isIdle s) := by
  induction ss generalizing p with
  | nil =>
    cases h
    rfl
  | cons s ss ih =>
    obtain ⟨p', hstep, hrest⟩ := bind_eq_ok.1 h
    obtain rfl := ih (fun r hr => hss r (by simp [hr])) hrest
    by_cases hidle : isIdle s = true
    · obtain rfl : s = ['.'] := by simpa [isIdle, hss s (by simp)] using hidle
      obtain ⟨-, ⟨-, rfl⟩ | ⟨hdots, -⟩ | ⟨hname, -⟩⟩ := Tree.step_eq_ok.1 hstep
      · rfl
      · cases hdots
      · exact absurd rfl hname.notDot
    · have hidle : isIdle s = false := by simpa using hidle
      obtain ⟨-, rfl, -⟩ := Tree.step_eq_ok_onward hidle hstep
      simp [hidle, Tree.placeFrom]

theorem segments_of_route {r : Route} (h : route path = .ok r) :
    (∀ s ∈ r.segments, s ≠ []) ∧ (r.segments.filter fun s => !isIdle s) = steps path := by
  obtain ⟨hsound, hne⟩ := Tree.sound_of_route h
  rw [Tree.route_of_sound hsound hne] at h
  obtain rfl := Except.ok.inj h
  refine ⟨fun s hs => by simpa using (List.mem_filter.1 hs).2, ?_⟩
  rw [List.filter_filter, steps]
  refine List.filter_congr fun s _ => ?_
  cases s <;> simp [isIdle]

/-- The last name of a path lies at the place of the path. -/
theorem location_of_target {x : Tree.Target} (h : t.locateParent path = .ok (.name x)) :
    x.location = place path := by
  obtain ⟨r, ss, s, p, hroute, hsegments, hwalk, -, hs, rfl⟩ := Tree.locateParent_eq_name.1 h
  obtain ⟨hnames, hsteps⟩ := segments_of_route hroute
  rw [hsegments] at hnames hsteps
  have hidle : isIdle s = false := by
    simp only [isIdle, Bool.or_eq_false_iff, beq_eq_false_iff_ne]
    exact ⟨hnames s (by simp), hs.notDot⟩
  have hlast : [s].filter (fun s => !isIdle s) = [s] := by simp [hidle]
  obtain rfl := place_of_walk (fun r hr => hnames r (by simp [hr])) hwalk
  rw [place, ← hsteps, List.filter_append, hlast, Tree.placeFrom_concat, Tree.onward,
    if_neg hs.notDots]

/-- What is located at a path lies at its place. -/
theorem get?_of_locate {p : Location} (h : t.locate path = .ok p) :
    p = place path ∧ (t.get? p).isSome := by
  obtain ⟨r, hroute, hwalk, -⟩ := Tree.locate_eq_ok.1 h
  obtain ⟨hnames, hsteps⟩ := segments_of_route hroute
  exact ⟨by rw [place_of_walk hnames hwalk, hsteps, place],
    Tree.isSome_of_walk (by rw [Tree.get?_nil]; rfl) hwalk⟩

/-- A path without names is made of slashes. -/
theorem eq_slash_of_mem {cs : List Char} (h : ∀ s ∈ segments cs, s = []) {c : Char} (hc : c ∈ cs) :
    c = '/' := by
  induction cs with
  | nil => cases hc
  | cons d cs ih =>
    rw [segments] at h
    split at h
    · rename_i hd
      rcases List.mem_cons.1 hc with rfl | hc
      · exact hd
      · exact ih (fun s hs => h s (List.mem_cons_of_mem _ hs)) hc
    · split at h
      · exact absurd (h _ List.mem_cons_self) (List.cons_ne_nil _ _)
      · exact absurd (h _ List.mem_cons_self) (List.cons_ne_nil _ _)

theorem read_of_route_error {e : FileError} (t : Tree) (h : route path = .error e) :
    t.read path = .error e := by
  unfold Tree.read Tree.locate
  rw [h]
  rfl

/-- The one path that names nothing, wherever one looks, is the empty one. -/
theorem eq_empty_of_route (h : route path = .error .notFound) : path = "" := by
  simp only [route] at h
  split at h
  · cases h
  split at h
  · rename_i hempty
    exact String.toList_eq_nil_iff.1 (List.isEmpty_iff.1 hempty)
  split at h <;> cases h

/-- No path leads into a file. -/
theorem read_file {c : ByteArray} {r : Route} (h : route path = .ok r) :
    (Tree.file c).read path = .error .notDirectory := by
  obtain ⟨hsound, hne⟩ := Tree.sound_of_route h
  rw [Tree.route_of_sound hsound hne] at h
  unfold Tree.read Tree.locate
  rw [Tree.route_of_sound hsound hne]
  cases hnames : (segments path.toList).filter fun s => !s.isEmpty with
  | cons s ss => rfl
  | nil =>
    -- a path without names leads to the root, and it ends in a slash
    have hslash : path.toList.getLast? = some '/' := by
      have hempty : ∀ s ∈ segments path.toList, s = [] := by
        simpa using List.filter_eq_nil_iff.1 hnames
      have hchars : path.toList ≠ [] := fun h => hne (String.toList_eq_nil_iff.1 h)
      rw [List.getLast?_eq_some_getLast hchars,
        eq_slash_of_mem hempty (List.getLast_mem hchars)]
    simp only [bind, Except.bind, hslash]
    rfl

/-- What is read lies in a directory. -/
theorem dirAt_of_read {c : ByteArray} (h : t.read path = .ok c) : t.DirAt [] := by
  cases t with
  | dir es => exact ⟨es, Tree.get?_nil _⟩
  | file d =>
    obtain ⟨p, hlocate, -⟩ := Tree.read_eq_ok.1 h
    obtain ⟨r, hroute, -⟩ := Tree.locate_eq_ok.1 hlocate
    rw [read_file hroute] at h
    cases h

end

end MarketingForm.Files
