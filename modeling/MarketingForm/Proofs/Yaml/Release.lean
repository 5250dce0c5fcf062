import MarketingForm.Yaml.Token.Scan

/-!
# Released tokens

The scanner releases tokens while it goes on. A step of the scanner looks at the tokens that are held
back only to count them and to put a key in front of some of them, so it does not matter whether a
token that no key can start at any more is released before the step or after it (`Fits.release`).
Hence a scanner whose steps all go well releases the tokens that the steps alone would heap up
(`run_of_steps`).
-/

namespace MarketingForm.Yaml.Scanner

/-- The possible keys of all flow levels. -/
def keys (s : Scanner) : List (Option KeyPlace) := s.keyPlace :: s.outer

/-- Releases the first token. -/
def release (s : Scanner) : Scanner :=
  { s with held := s.held.tail, released := s.released + 1 }

/-- The state without its tokens. -/
def core (s : Scanner) : Scanner := { s with held := [], released := 0 }

/-- No key can start at the first token that is held back. -/
structure Ahead (s : Scanner) : Prop where
  held : s.held ≠ []
  keys : ∀ k, some k ∈ s.keys → s.released < k.number

/-- A step only adds tokens, keys only start at new tokens, and a token may be released before the
step as well as after it. -/
structure Fits (f : Scanner → Option Scanner) : Prop where
  released : ∀ {s u}, f s = some u → u.released = s.released
  held : ∀ {s u}, f s = some u → s.held.length ≤ u.held.length
  head : ∀ {s u}, f s = some u → s.Ahead → u.held.head? = s.held.head?
  keys : ∀ {s u}, f s = some u → ∀ k, some k ∈ u.keys →
    some k ∈ s.keys ∨ s.released + s.held.length ≤ k.number
  release : ∀ {s}, s.Ahead → f s.release = (f s).map Scanner.release

namespace Fits

variable {f g : Scanner → Option Scanner}

theorem ahead (hf : Fits f) {s u : Scanner} (h : f s = some u) (hs : s.Ahead) : u.Ahead := by
  have hlength := List.length_pos_iff.2 hs.held
  have hheld := hf.held h
  refine ⟨List.ne_nil_of_length_pos (by omega), fun k hk => ?_⟩
  rw [hf.released h]
  rcases hf.keys h k hk with hold | hnew
  · exact hs.keys k hold
  · omega

theorem bind (hf : Fits f) (hg : Fits g) : Fits fun s => (f s).bind g where
  released h := by
    obtain ⟨v, hv, hu⟩ := Option.bind_eq_some_iff.1 h
    rw [hg.released hu, hf.released hv]
  held h := by
    obtain ⟨v, hv, hu⟩ := Option.bind_eq_some_iff.1 h
    exact Nat.le_trans (hf.held hv) (hg.held hu)
  head h hs := by
    obtain ⟨v, hv, hu⟩ := Option.bind_eq_some_iff.1 h
    rw [hg.head hu (hf.ahead hv hs), hf.head hv hs]
  keys h k hk := by
    obtain ⟨v, hv, hu⟩ := Option.bind_eq_some_iff.1 h
    have hheld := hf.held hv
    have hreleased := hf.released hv
    rcases hg.keys hu k hk with hold | hnew
    · exact hf.keys hv k hold
    · exact .inr (by omega)
  release {s} hs := by
    rw [hf.release hs]
    cases hv : f s with
    | none => rfl
    | some v => exact hg.release (hf.ahead hv hs)

theorem map {h : Scanner → Scanner} (hf : Fits f) (hh : Fits fun s => some (h s)) :
    Fits fun s => (f s).map h := by
  have hmap : (fun s => (f s).map h) = fun s => (f s).bind fun u => some (h u) :=
    funext fun s => Option.map_eq_bind
  rw [hmap]
  exact hf.bind hh

theorem none : Fits fun _ => Option.none where
  released h := by cases h
  held h := by cases h
  head h := by cases h
  keys h := by cases h
  release _ := rfl

theorem ite {p : Prop} [Decidable p] (hf : Fits f) (hg : Fits g) :
    Fits fun s => if p then f s else g s := by
  split
  · exact hf
  · exact hg

/-- A choice between two steps must not depend on the tokens. -/
theorem choose {p : Scanner → Prop} [∀ s, Decidable (p s)] (hp : ∀ s, p s.release ↔ p s)
    (hf : Fits f) (hg : Fits g) : Fits fun s => if p s then f s else g s where
  released h := by
    split at h
    · exact hf.released h
    · exact hg.released h
  held h := by
    split at h
    · exact hf.held h
    · exact hg.held h
  head h hs := by
    split at h
    · exact hf.head h hs
    · exact hg.head h hs
  keys h := by
    split at h
    · exact hf.keys h
    · exact hg.keys h
  release {s} h := by
    by_cases hs : p s
    · rw [if_pos hs, if_pos ((hp s).2 hs)]
      exact hf.release h
    · rw [if_neg hs, if_neg (mt (hp s).1 hs)]
      exact hg.release h

/-- A step may depend on everything but the tokens. -/
theorem of_core {f : Scanner → Scanner → Option Scanner} (hf : ∀ a, Fits (f a)) :
    Fits fun s => f s.core s where
  released h := (hf _).released h
  held h := (hf _).held h
  head h := (hf _).head h
  keys h := (hf _).keys h
  release h := (hf _).release h

/-- A step that leaves the tokens alone and adds no key. -/
theorem update {f : Scanner → Scanner} (hreleased : ∀ s, (f s).released = s.released)
    (hheld : ∀ s, (f s).held = s.held) (hkeys : ∀ s k, some k ∈ (f s).keys → some k ∈ s.keys)
    (hrelease : ∀ s, f s.release = (f s).release) : Fits fun s => some (f s) where
  released h := by
    cases h
    exact hreleased _
  held h := by
    cases h
    exact Nat.le_of_eq (congrArg List.length (hheld _)).symm
  head h _ := by
    cases h
    rw [hheld]
  keys h k hk := by
    cases h
    exact .inl (hkeys _ k hk)
  release _ := congrArg some (hrelease _)

/-- A step that leaves the tokens and the keys alone. -/
theorem frame {f : Scanner → Scanner} (h : ∀ s, (f s).released = s.released ∧ (f s).held = s.held ∧
    (f s).keys = s.keys ∧ f s.release = (f s).release) : Fits fun s => some (f s) := by
  refine .update (fun s => (h s).1) (fun s => (h s).2.1) (fun s k hk => ?_) fun s => (h s).2.2.2
  rwa [(h s).2.2.1] at hk

/-- A step that only adds tokens. -/
theorem append (ts : List Token) : Fits fun s => some { s with held := s.held ++ ts } where
  released h := by
    cases h
    rfl
  held h := by
    cases h
    simp
  head h hs := by
    cases h
    simp [List.head?_append, List.head?_eq_some_head hs.held]
  keys h k hk := by
    cases h
    exact .inl hk
  release {s} h := by
    obtain ⟨t, r, hheld⟩ := List.exists_cons_of_ne_nil h.held
    simp [Scanner.release, hheld]

theorem push (kind : TokenKind) (start stop : Mark) :
    Fits fun s => some (s.push kind start stop) := append [⟨kind, start, stop⟩]

end Fits

/-! ## The parts of a step -/

theorem fits_skipToToken : Fits fun s => some s.skipToToken :=
  .frame fun _ => ⟨rfl, rfl, rfl, rfl⟩

theorem dropStale_eq_some {m : Mark} {k : Option KeyPlace} {k' : KeyPlace}
    (h : dropStale m k = some (some k')) : k = some k' := by
  unfold dropStale at h
  split at h
  · cases h
  · split at h
    · split at h <;> cases h
    · exact Option.some.inj h

theorem mem_of_mapM_dropStale {m : Mark} {ks ks' : List (Option KeyPlace)}
    (h : ks.mapM (dropStale m) = some ks') {k : KeyPlace} (hk : some k ∈ ks') : some k ∈ ks := by
  induction ks generalizing ks' with
  | nil =>
    cases h
    cases hk
  | cons x ks ih =>
    rw [List.mapM_cons] at h
    obtain ⟨y, hy, h⟩ := Option.bind_eq_some_iff.1 h
    obtain ⟨ys, hys, h⟩ := Option.bind_eq_some_iff.1 h
    cases h
    rcases List.mem_cons.1 hk with rfl | hk
    · rw [dropStale_eq_some hy]
      exact List.mem_cons_self
    · exact List.mem_cons_of_mem x (ih hys hk)

theorem dropStaleKeys_eq_some {s u : Scanner} :
    s.dropStaleKeys = some u ↔ ∃ outer keyPlace, s.outer.mapM (dropStale s.mark) = some outer ∧
      dropStale s.mark s.keyPlace = some keyPlace ∧
      u = { s with keyPlace := keyPlace, outer := outer } := by
  unfold dropStaleKeys
  constructor
  · intro h
    obtain ⟨outer, houter, h⟩ := Option.bind_eq_some_iff.1 h
    obtain ⟨keyPlace, hkeyPlace, h⟩ := Option.bind_eq_some_iff.1 h
    cases h
    exact ⟨outer, keyPlace, houter, hkeyPlace, rfl⟩
  · rintro ⟨outer, keyPlace, houter, hkeyPlace, rfl⟩
    simp only [houter, hkeyPlace, bind, Option.bind]

theorem keys_of_dropStaleKeys {s u : Scanner} (h : s.dropStaleKeys = some u) {k : KeyPlace}
    (hk : some k ∈ u.keys) : some k ∈ s.keys := by
  obtain ⟨outer, keyPlace, houter, hkeyPlace, rfl⟩ := dropStaleKeys_eq_some.1 h
  rcases List.mem_cons.1 hk with rfl | hk
  · exact List.mem_cons.2 (.inl (dropStale_eq_some hkeyPlace).symm)
  · exact List.mem_cons_of_mem _ (mem_of_mapM_dropStale houter hk)

theorem fits_dropStaleKeys : Fits dropStaleKeys where
  released h := by
    obtain ⟨_, _, _, _, rfl⟩ := dropStaleKeys_eq_some.1 h
    rfl
  held h := by
    obtain ⟨_, _, _, _, rfl⟩ := dropStaleKeys_eq_some.1 h
    exact Nat.le_refl _
  head h _ := by
    obtain ⟨_, _, _, _, rfl⟩ := dropStaleKeys_eq_some.1 h
    rfl
  keys h k hk := .inl (keys_of_dropStaleKeys h hk)
  release {s} _ := by
    unfold dropStaleKeys
    have houter : s.release.outer.mapM (dropStale s.release.mark) =
        s.outer.mapM (dropStale s.mark) := rfl
    have hkeyPlace : dropStale s.release.mark s.release.keyPlace =
        dropStale s.mark s.keyPlace := rfl
    simp only [houter, hkeyPlace, bind]
    cases s.outer.mapM (dropStale s.mark) with
    | none => rfl
    | some outer => cases dropStale s.mark s.keyPlace <;> rfl

theorem fits_noKey : Fits fun s => some { s with keyPlace := none } := by
  refine .update (fun _ => rfl) (fun _ => rfl) (fun s k hk => ?_) (fun _ => rfl)
  exact (List.mem_cons.1 hk).elim (fun h => nomatch h) (List.mem_cons_of_mem _)

/-- `removeKey`, with the place that it reads taken out. -/
def dropKey (s : Scanner) : Option KeyPlace → Option Scanner
  | some k => if k.required then none else some { s with keyPlace := none }
  | none => some s

theorem fits_removeKey : Fits removeKey := by
  have hview : removeKey = fun s => s.dropKey s.core.keyPlace := rfl
  rw [hview]
  refine .of_core (f := fun a s => s.dropKey a.keyPlace) fun a => ?_
  cases a.keyPlace with
  | none => exact .frame fun _ => ⟨rfl, rfl, rfl, rfl⟩
  | some k => exact .ite .none fits_noKey

theorem fits_startKey (required : Bool) : Fits fun s =>
    some { s with keyPlace := some ⟨s.released + s.held.length, s.mark, required⟩ } where
  released h := by
    cases h
    rfl
  held h := by
    cases h
    exact Nat.le_refl _
  head h _ := by
    cases h
    rfl
  keys h k hk := by
    cases h
    rcases List.mem_cons.1 hk with hk | hk
    · cases hk
      exact .inr (Nat.le_refl _)
    · exact .inl (List.mem_cons_of_mem _ hk)
  release {s} h := by
    have hlength := List.length_pos_iff.2 h.held
    have hnumber : s.released + 1 + s.held.tail.length = s.released + s.held.length := by
      rw [List.length_tail]
      omega
    simp only [Scanner.release, hnumber, Option.map_some]
    rfl

theorem fits_saveKey : Fits saveKey := by
  refine .of_core (f := fun a s => if a.keyAllowed then
    s.removeKey.map fun u =>
      { u with keyPlace := some ⟨u.released + u.held.length, u.mark,
        !a.inFlow && a.indent == (a.mark.column : Int)⟩ } else some s) fun a => ?_
  exact .ite (fits_removeKey.map (fits_startKey _))
    (.frame fun _ => ⟨rfl, rfl, rfl, rfl⟩)

theorem fits_openBlock (column : Nat) (kind : TokenKind) (m : Mark) :
    Fits fun s => some (s.openBlock column none kind m) := by
  refine .of_core (f := fun a s => some (if a.inFlow || (column : Int) ≤ a.indent then s
    else { s with indents := a.indent :: a.indents, indent := (column : Int) }.push kind m m))
    fun a => ?_
  split
  · exact .frame fun _ => ⟨rfl, rfl, rfl, rfl⟩
  · exact .bind (f := fun s => some
      { s with indents := a.indent :: a.indents, indent := (column : Int) })
      (.frame fun _ => ⟨rfl, rfl, rfl, rfl⟩) (.push kind m m)

theorem fits_closeBlocks (column : Int) : Fits fun s => some (s.closeBlocks column) := by
  refine .of_core (f := fun a s => some (if a.inFlow then s
    else
      let p := closeDeeper column a.mark a.indent a.indents
      { s with held := s.held ++ p.1, indent := p.2.1, indents := p.2.2 })) fun a => ?_
  split
  · exact .frame fun _ => ⟨rfl, rfl, rfl, rfl⟩
  · let p := closeDeeper column a.mark a.indent a.indents
    exact (Fits.append p.1).map (h := fun s => { s with indent := p.2.1, indents := p.2.2 })
      (.frame fun _ => ⟨rfl, rfl, rfl, rfl⟩)

theorem fits_setAllowed (b : Bool) : Fits fun s => some { s with keyAllowed := b } :=
  .frame fun _ => ⟨rfl, rfl, rfl, rfl⟩

theorem fits_indicator (kind : TokenKind) (n : Nat) : Fits fun s => some (s.indicator kind n) := by
  refine .of_core (f := fun a s => some
    { s.push kind a.mark (a.cursor.skip n).mark with cursor := a.cursor.skip n }) fun a => ?_
  exact (Fits.push kind a.mark (a.cursor.skip n).mark).map
    (h := fun s => { s with cursor := a.cursor.skip n })
    (.frame fun _ => ⟨rfl, rfl, rfl, rfl⟩)

/-- Opens a block collection, where one may start. -/
def startBlock (s : Scanner) (kind : TokenKind) : Option Scanner :=
  if s.inFlow then some s
  else if s.keyAllowed then some (s.openBlock s.mark.column none kind s.mark)
  else none

theorem fits_startBlock (kind : TokenKind) : Fits fun s => s.startBlock kind := by
  refine .of_core (f := fun a s => if a.inFlow then some s
    else if a.keyAllowed then some (s.openBlock a.mark.column none kind a.mark)
    else none) fun a => ?_
  exact .ite (.frame fun _ => ⟨rfl, rfl, rfl, rfl⟩)
    (.ite (fits_openBlock a.mark.column kind a.mark) .none)

theorem insertAt_release {s : Scanner} (hs : s.held ≠ []) {n : Nat} (hn : s.released < n)
    (t : Token) : s.release.insertAt n t = (s.insertAt n t).release := by
  obtain ⟨x, r, hheld⟩ := List.exists_cons_of_ne_nil hs
  obtain ⟨i, rfl⟩ : ∃ i, n = s.released + 1 + i := ⟨n - (s.released + 1), by omega⟩
  have hi : s.released + 1 + i - s.released = i + 1 := by omega
  have hi' : s.released + 1 + i - (s.released + 1) = i := by omega
  simp [insertAt, Scanner.release, hheld, hi, hi']

/-! ## Steps -/

theorem fits_endText : Fits endText := by
  refine .of_core (f := fun (a s : Scanner) =>
    let m : Mark := if a.mark.column = 0 then a.mark else ⟨a.mark.line + 1, 0, a.mark.index⟩
    (Scanner.closeBlocks { s with cursor := ⟨m, []⟩ } (-1)).removeKey.map fun s : Scanner =>
      { s.push .streamEnd m m with keyAllowed := false, finished := true }) fun a => ?_
  let m : Mark := if a.mark.column = 0 then a.mark else ⟨a.mark.line + 1, 0, a.mark.index⟩
  have hcursor : Fits fun s => some { s with cursor := ⟨m, []⟩ } :=
    .frame fun _ => ⟨rfl, rfl, rfl, rfl⟩
  have hclosed := (hcursor.bind (fits_closeBlocks (-1))).bind fits_removeKey
  have hend := (Fits.push .streamEnd m m).map
    (h := fun s => { s with keyAllowed := false, finished := true })
    (.frame fun _ => ⟨rfl, rfl, rfl, rfl⟩)
  exact hclosed.map hend

theorem fits_leaveBlocks : Fits leaveBlocks :=
  ((fits_closeBlocks (-1)).bind fits_removeKey).map (fits_setAllowed false)

theorem fits_scanDirective : Fits scanDirective := by
  have hread : Fits fun s => (directive s.cursor).bind fun p =>
      some { s with cursor := p.2, held := s.held ++ [p.1] } := by
    refine .of_core (f := fun a s => (directive a.cursor).bind fun p =>
      some { s with cursor := p.2, held := s.held ++ [p.1] }) fun a => ?_
    cases directive a.cursor with
    | none => exact .none
    | some p =>
      exact (Fits.append [p.1]).map (h := fun s => { s with cursor := p.2 })
        (.frame fun _ => ⟨rfl, rfl, rfl, rfl⟩)
  exact fits_leaveBlocks.bind hread

theorem fits_scanMarker (kind : TokenKind) : Fits fun s => s.scanMarker kind :=
  fits_leaveBlocks.bind (fits_indicator kind 3)

theorem fits_openFlow (kind : TokenKind) : Fits fun s => s.openFlow kind := by
  have hdown : Fits fun s =>
      some { s with outer := s.keyPlace :: s.outer, keyPlace := none, keyAllowed := true } := by
    refine .update (fun _ => rfl) (fun _ => rfl) (fun s k hk => ?_) (fun _ => rfl)
    exact (List.mem_cons.1 hk).elim (fun h => nomatch h) id
  exact fits_saveKey.bind ((fits_indicator kind 1).bind hdown)

/-- The state behind a pair of brackets, with the places of the keys around them taken out. -/
def leave (s : Scanner) : List (Option KeyPlace) → Scanner
  | k :: r => { s with keyPlace := k, outer := r }
  | [] => s

theorem fits_closeFlow (kind : TokenKind) : Fits fun s => s.closeFlow kind := by
  have hup : Fits fun s => some (s.leave s.outer) := by
    refine .update (fun s => ?_) (fun s => ?_) (fun s k hk => ?_) (fun s => ?_)
    · cases s.outer <;> rfl
    · cases s.outer <;> rfl
    · cases hs : s.outer with
      | nil => simpa [leave, keys, hs] using hk
      | cons x r =>
        rw [hs] at hk
        exact List.mem_cons_of_mem _ (hs ▸ hk)
    · show s.release.leave s.outer = _
      cases s.outer <;> rfl
  exact fits_removeKey.bind (hup.bind ((fits_setAllowed false).bind (fits_indicator kind 1)))

theorem fits_scanFlowEntry : Fits scanFlowEntry :=
  fits_removeKey.bind ((fits_setAllowed true).bind (fits_indicator .flowEntry 1))

theorem scanBlockEntry_eq (s : Scanner) :
    s.scanBlockEntry = (s.startBlock .blockSequenceStart).bind fun u => u.removeKey.bind fun u =>
      some ({ u with keyAllowed := true }.indicator .blockEntry 1) := by
  unfold scanBlockEntry startBlock
  cases s.inFlow <;> cases s.keyAllowed <;> rfl

theorem scanKey_eq (s : Scanner) :
    s.scanKey = (s.startBlock .blockMappingStart).bind fun u => u.removeKey.bind fun u =>
      some ({ u with keyAllowed := !u.inFlow }.indicator .key 1) := by
  unfold scanKey startBlock
  cases s.inFlow <;> cases s.keyAllowed <;> rfl

/-- The tokens of a key, put in front of the token where the key starts. -/
def insertKey (s : Scanner) (k : KeyPlace) : Scanner :=
  (s.insertAt k.number ⟨.key, k.mark, k.mark⟩).openBlock k.mark.column (some k.number)
    .blockMappingStart k.mark

/-- The colon that ends a key. -/
def endKey (s : Scanner) : Scanner :=
  Scanner.indicator { s with keyPlace := none, keyAllowed := false } .value 1

theorem scanValue_of_key {s : Scanner} {k : KeyPlace} (h : s.keyPlace = some k) :
    s.scanValue = some (s.insertKey k).endKey := by
  unfold scanValue
  rw [h]
  rfl

theorem scanValue_of_no_key {s : Scanner} (h : s.keyPlace = none) :
    s.scanValue = (s.startBlock .blockMappingStart).bind fun u =>
      some ({ u with keyAllowed := !u.inFlow }.indicator .value 1) := by
  unfold scanValue startBlock
  rw [h]
  cases s.inFlow <;> cases s.keyAllowed <;> rfl

theorem fits_scanBlockEntry : Fits scanBlockEntry := by
  rw [funext scanBlockEntry_eq]
  exact (fits_startBlock .blockSequenceStart).bind
    (fits_removeKey.bind ((fits_setAllowed true).bind (fits_indicator .blockEntry 1)))

/-- After a mark a key may start, unless flow collections surround it. -/
theorem fits_mark (kind : TokenKind) :
    Fits fun s => some ({ s with keyAllowed := !s.inFlow }.indicator kind 1) := by
  refine .of_core (f := fun (a s : Scanner) =>
    some (Scanner.indicator { s with keyAllowed := !a.inFlow } kind 1)) fun a => ?_
  exact (fits_setAllowed (!a.inFlow)).bind (fits_indicator kind 1)

theorem fits_scanKey : Fits scanKey := by
  rw [funext scanKey_eq]
  exact (fits_startBlock .blockMappingStart).bind (fits_removeKey.bind (fits_mark .key))

theorem openBlock_some (s : Scanner) (column n : Nat) (kind : TokenKind) (m : Mark) :
    s.openBlock column (some n) kind m =
      if s.inFlow || (column : Int) ≤ s.indent then s
      else { s with indents := s.indent :: s.indents, indent := (column : Int) }.insertAt n
        ⟨kind, m, m⟩ := rfl

theorem insertKey_same (s : Scanner) (k : KeyPlace) :
    (s.insertKey k).released = s.released ∧ (s.insertKey k).keys = s.keys ∧
      s.held.length ≤ (s.insertKey k).held.length := by
  unfold insertKey
  rw [openBlock_some]
  split
  · refine ⟨rfl, rfl, ?_⟩
    simp [insertAt]
    omega
  · refine ⟨rfl, rfl, ?_⟩
    simp [insertAt]
    omega

theorem insertKey_release {s : Scanner} (hs : s.held ≠ []) {k : KeyPlace}
    (hk : s.released < k.number) : s.release.insertKey k = (s.insertKey k).release := by
  unfold insertKey
  rw [openBlock_some, openBlock_some, insertAt_release hs hk]
  have hinserted : (s.insertAt k.number ⟨.key, k.mark, k.mark⟩).held ≠ [] := by simp [insertAt]
  by_cases h : (s.inFlow || decide ((k.mark.column : Int) ≤ s.indent)) = true
  · exact (if_pos h).trans (congrArg Scanner.release (if_pos h)).symm
  · refine (if_neg h).trans (Eq.trans ?_ (congrArg Scanner.release (if_neg h)).symm)
    exact insertAt_release (s := { s.insertAt k.number ⟨.key, k.mark, k.mark⟩ with
      indents := s.indent :: s.indents, indent := (k.mark.column : Int) }) hinserted hk _

theorem insertKey_ahead {s : Scanner} (hs : s.Ahead) (k : KeyPlace) : (s.insertKey k).Ahead := by
  obtain ⟨hreleased, hkeys, hheld⟩ := insertKey_same s k
  have hlength := List.length_pos_iff.2 hs.held
  refine ⟨List.ne_nil_of_length_pos (by omega), ?_⟩
  rw [hreleased, hkeys]
  exact hs.keys

theorem insertAt_head {s : Scanner} (hs : s.held ≠ []) {n : Nat} (hn : s.released < n) (t : Token) :
    (s.insertAt n t).held.head? = s.held.head? := by
  obtain ⟨x, r, hheld⟩ := List.exists_cons_of_ne_nil hs
  obtain ⟨i, hi⟩ : ∃ i, n - s.released = i + 1 := ⟨n - s.released - 1, by omega⟩
  simp [insertAt, hheld, hi]

theorem insertKey_head {s : Scanner} (hs : s.held ≠ []) {k : KeyPlace}
    (hk : s.released < k.number) : (s.insertKey k).held.head? = s.held.head? := by
  unfold insertKey
  rw [openBlock_some, ← insertAt_head hs hk ⟨.key, k.mark, k.mark⟩]
  have hinserted : (s.insertAt k.number ⟨.key, k.mark, k.mark⟩).held ≠ [] := by simp [insertAt]
  split
  · rfl
  · exact insertAt_head (s := { s.insertAt k.number ⟨.key, k.mark, k.mark⟩ with
      indents := s.indent :: s.indents, indent := (k.mark.column : Int) }) hinserted hk _

theorem fits_scanValue : Fits scanValue := by
  have hnone : Fits fun s => (s.startBlock .blockMappingStart).bind fun u =>
      some ({ u with keyAllowed := !u.inFlow }.indicator .value 1) :=
    (fits_startBlock .blockMappingStart).bind (fits_mark .value)
  have hdone : Fits fun s => some s.endKey :=
    fits_noKey.bind ((fits_setAllowed false).bind (fits_indicator .value 1))
  constructor
  · intro s u h
    cases hk : s.keyPlace with
    | none => exact hnone.released (scanValue_of_no_key hk ▸ h)
    | some k =>
      rw [scanValue_of_key hk] at h
      exact (hdone.released h).trans (insertKey_same s k).1
  · intro s u h
    cases hk : s.keyPlace with
    | none => exact hnone.held (scanValue_of_no_key hk ▸ h)
    | some k =>
      rw [scanValue_of_key hk] at h
      exact Nat.le_trans (insertKey_same s k).2.2 (hdone.held h)
  · intro s u h hs
    cases hk : s.keyPlace with
    | none => exact hnone.head (scanValue_of_no_key hk ▸ h) hs
    | some k =>
      have hnumber := hs.keys k (by simp [keys, hk])
      rw [scanValue_of_key hk] at h
      rw [hdone.head h (insertKey_ahead hs k), insertKey_head hs.held hnumber]
  · intro s u h k' hk'
    cases hk : s.keyPlace with
    | none => exact hnone.keys (scanValue_of_no_key hk ▸ h) k' hk'
    | some k =>
      obtain ⟨hreleased, hkeys, hheld⟩ := insertKey_same s k
      rw [scanValue_of_key hk] at h
      rcases hdone.keys h k' hk' with hold | hnew
      · exact .inl (hkeys ▸ hold)
      · have hnew' : (s.insertKey k).released + (s.insertKey k).held.length ≤ k'.number := hnew
        exact .inr (by omega)
  · intro s hs
    cases hk : s.keyPlace with
    | none =>
      have hk' : s.release.keyPlace = none := hk
      rw [scanValue_of_no_key hk, scanValue_of_no_key hk']
      exact hnone.release hs
    | some k =>
      have hk' : s.release.keyPlace = some k := hk
      have hnumber := hs.keys k (by simp [keys, hk])
      rw [scanValue_of_key hk, scanValue_of_key hk', insertKey_release hs.held hnumber]
      exact hdone.release (insertKey_ahead hs k)

/-- A step that reads something and appends one token for it. -/
theorem fits_scanned {α : Type} (read : Scanner → Option α) (hread : ∀ s, read s.core = read s)
    (kind : α → TokenKind) (stop : α → Mark) (cursor : α → Cursor) (allowed : α → Bool) :
    Fits fun s => (read s).bind fun a =>
      some { s.push (kind a) s.mark (stop a) with cursor := cursor a, keyAllowed := allowed a } := by
  rw [← funext hread]
  refine .of_core (f := fun (a s : Scanner) => (read a).bind fun x =>
    some { s.push (kind x) a.mark (stop x) with cursor := cursor x, keyAllowed := allowed x })
    fun a => ?_
  cases read a with
  | none => exact .none
  | some x =>
    exact (Fits.push (kind x) a.mark (stop x)).map
      (h := fun s => { s with cursor := cursor x, keyAllowed := allowed x })
      (.frame fun _ => ⟨rfl, rfl, rfl, rfl⟩)

theorem fits_scanInline (read : Cursor → Option (TokenKind × Cursor)) :
    Fits fun s => s.scanInline read :=
  fits_saveKey.bind (fits_scanned (fun s => read s.cursor) (fun _ => rfl) (fun p => p.1)
    (fun p => p.2.mark) (fun p => p.2) fun _ => false)

theorem fits_scanBlockScalar (literal : Bool) : Fits fun s => s.scanBlockScalar literal :=
  fits_removeKey.bind (fits_scanned (fun s => blockScalar literal s.indent s.cursor) (fun _ => rfl)
    (fun p => .scalar p.1 (if literal then .literal else .folded)) (fun p => p.2.mark)
    (fun p => p.2) fun _ => true)

theorem fits_scanPlain : Fits scanPlain :=
  fits_saveKey.bind (fits_scanned (fun s => plainScalar s.inFlow (s.indent + 1).toNat s.cursor)
    (fun _ => rfl) (fun p => .scalar p.text .plain) (fun p => p.stop) (fun p => p.cursor)
    fun p => p.broken)

theorem fits_scanToken (c : Char) (r : List Char) : Fits fun s => s.scanToken c r := by
  unfold scanToken
  refine .choose (fun _ => .rfl) fits_scanDirective ?_
  refine .choose (fun _ => .rfl) (fits_scanMarker _) ?_
  refine .ite (fits_openFlow _) (.ite (fits_openFlow _) ?_)
  refine .ite (fits_closeFlow _) (.ite (fits_closeFlow _) (.ite fits_scanFlowEntry ?_))
  refine .ite fits_scanBlockEntry ?_
  refine .choose (fun _ => .rfl) fits_scanKey ?_
  refine .choose (fun _ => .rfl) fits_scanValue ?_
  refine .ite (fits_scanInline _) (.ite (fits_scanInline _) ?_)
  refine .ite (.of_core (f := fun a s => s.scanInline (tagToken a.inFlow)) fun a =>
    fits_scanInline _) ?_
  refine .choose (fun _ => .rfl) (fits_scanBlockScalar _) ?_
  refine .choose (fun _ => .rfl) (fits_scanBlockScalar _) ?_
  refine .ite (fits_scanInline _) (.ite (fits_scanInline _) ?_)
  exact .choose (fun _ => .rfl) fits_scanPlain .none

/-- The next token of what is left, or the end. -/
def scanRest (s : Scanner) : List Char → Option Scanner
  | [] => s.endText
  | c :: r => s.scanToken c r

/-- A token may be released before a step as well as after it. -/
theorem fits_fetch : Fits fetch := by
  have htoken : Fits fun s => s.scanRest s.core.cursor.rest := by
    refine .of_core (f := fun a s => s.scanRest a.cursor.rest) fun a => ?_
    cases a.cursor.rest with
    | nil => exact fits_endText
    | cons c r => exact fits_scanToken c r
  have hclose : Fits fun s => some (s.closeBlocks s.core.mark.column) :=
    .of_core (f := fun a s => some (s.closeBlocks a.mark.column)) fun a => fits_closeBlocks _
  exact fits_skipToToken.bind (fits_dropStaleKeys.bind (hclose.bind htoken))

/-! ## Keys that have run too far -/

/-- A place lies at or behind another one. -/
def Behind (m m' : Mark) : Prop := m.line ≤ m'.line ∧ m.index ≤ m'.index

theorem behind_readBreak (c : Cursor) : Behind c.mark c.readBreak.2.mark := by
  unfold Cursor.readBreak Behind
  split
  · simp [Mark.nextLine]
  · simp [Mark.nextLine]
  · simp [Mark.nextLine]
  · split <;> simp [Mark.nextLine]
  · simp

theorem behind_skipFrom (flow keyAllowed : Bool) (c : Cursor) (fuel : Nat) :
    Behind c.mark (skipFrom flow keyAllowed c fuel).2.mark := by
  induction fuel generalizing keyAllowed c with
  | zero => exact ⟨Nat.le_refl _, Nat.le_refl _⟩
  | succ fuel ih =>
    have hadvance : ∀ (d : Cursor) (n : Nat), Behind c.mark d.mark →
        Behind c.mark (d.mark.advance n) := fun d n h => ⟨h.1, Nat.le_add_right_of_le h.2⟩
    have hstart : Behind c.mark c.mark := ⟨Nat.le_refl _, Nat.le_refl _⟩
    unfold skipFrom
    simp only
    generalize hfirst : (if c.mark.column = 0 ∧ c.rest.head? = some '\uFEFF' then c.skip 1 else c) =
      first
    have h₁ : Behind c.mark first.mark := by
      rw [← hfirst]
      split
      · exact hadvance c 1 hstart
      · exact hstart
    generalize hspan : (first.span fun d => d == ' ' || ((flow || !keyAllowed) && d == '\t')).2 =
      second
    have h₂ : Behind c.mark second.mark := by
      rw [← hspan]
      exact hadvance first _ h₁
    generalize hcomment :
      (if second.rest.head? = some '#' then (second.span fun d => !isBreak d).2 else second) = third
    have h₃ : Behind c.mark third.mark := by
      rw [← hcomment]
      split
      · exact hadvance second _ h₂
      · exact h₂
    split
    · have hbreak := behind_readBreak third
      have hrest := ih (keyAllowed || !flow) third.readBreak.2
      exact ⟨Nat.le_trans h₃.1 (Nat.le_trans hbreak.1 hrest.1),
        Nat.le_trans h₃.2 (Nat.le_trans hbreak.2 hrest.2)⟩
    · exact h₃

theorem behind_skipToToken (s : Scanner) : Behind s.mark s.skipToToken.mark := by
  unfold skipToToken mark
  exact behind_skipFrom _ _ s.cursor _

theorem isStale_later {m m' : Mark} (h : Behind m m') {k : KeyPlace} (hk : isStale m k = true) :
    isStale m' k = true := by
  obtain ⟨hline, hindex⟩ := h
  simp only [isStale, Bool.or_eq_true, decide_eq_true_eq] at hk ⊢
  omega

theorem dropStale_some (m : Mark) (k : KeyPlace) :
    dropStale m (some k) =
      if isStale m k then (if k.required then none else some none) else some (some k) := rfl

theorem dropStale_later {m m' : Mark} (h : Behind m m') {k k' : Option KeyPlace}
    (hk : dropStale m k = some k') : dropStale m' k' = dropStale m' k := by
  cases k with
  | none =>
    cases hk
    rfl
  | some k =>
    rw [dropStale_some] at hk
    split at hk
    · rename_i hstale
      split at hk
      · cases hk
      · rename_i hrequired
        cases hk
        rw [dropStale_some, if_pos (isStale_later h hstale), if_neg hrequired]
        rfl
    · cases hk
      rfl

theorem dropStale_ne_none {m m' : Mark} (h : Behind m m') {k : Option KeyPlace}
    (hk : dropStale m' k ≠ none) : dropStale m k ≠ none := by
  intro hnone
  cases k with
  | none => cases hnone
  | some k =>
    rw [dropStale_some] at hnone
    split at hnone
    · rename_i hstale
      split at hnone
      · rename_i hrequired
        rw [dropStale_some, if_pos (isStale_later h hstale), if_pos hrequired] at hk
        exact hk rfl
      · cases hnone
    · cases hnone

theorem mapM_dropStale_later {m m' : Mark} (h : Behind m m') {ks ks' : List (Option KeyPlace)}
    (hks : ks.mapM (dropStale m) = some ks') :
    ks'.mapM (dropStale m') = ks.mapM (dropStale m') := by
  induction ks generalizing ks' with
  | nil =>
    cases hks
    rfl
  | cons k ks ih =>
    rw [List.mapM_cons] at hks
    obtain ⟨x, hx, hks⟩ := Option.bind_eq_some_iff.1 hks
    obtain ⟨xs, hxs, hks⟩ := Option.bind_eq_some_iff.1 hks
    cases hks
    rw [List.mapM_cons, List.mapM_cons, ih hxs, dropStale_later h hx]

theorem mapM_dropStale_ne_none {m m' : Mark} (h : Behind m m') {ks : List (Option KeyPlace)}
    (hks : ks.mapM (dropStale m') ≠ none) : ∃ ks', ks.mapM (dropStale m) = some ks' := by
  induction ks with
  | nil => exact ⟨[], rfl⟩
  | cons k ks ih =>
    rw [List.mapM_cons] at hks
    obtain ⟨x, hx⟩ : ∃ x, dropStale m k = some x := by
      refine Option.ne_none_iff_exists'.1 (dropStale_ne_none h fun hnone => hks ?_)
      rw [hnone]
      rfl
    obtain ⟨xs, hxs⟩ := ih fun hnone => hks (by
      rw [hnone]
      cases dropStale m' k <;> rfl)
    exact ⟨x :: xs, by rw [List.mapM_cons, hx, hxs]; rfl⟩

theorem length_of_mapM {α β : Type} {f : α → Option β} {xs : List α} {ys : List β}
    (h : xs.mapM f = some ys) : ys.length = xs.length := by
  induction xs generalizing ys with
  | nil =>
    cases h
    rfl
  | cons x xs ih =>
    rw [List.mapM_cons] at h
    obtain ⟨y, hy, h⟩ := Option.bind_eq_some_iff.1 h
    obtain ⟨ys, hys, h⟩ := Option.bind_eq_some_iff.1 h
    cases h
    simp [ih hys]

/-- Keys that have run too far may be given up at once or in the next step. -/
theorem fetch_of_dropStaleKeys {s u : Scanner} (h : s.dropStaleKeys = some u) :
    u.fetch = s.fetch := by
  obtain ⟨outer, keyPlace, houter, hkeyPlace, rfl⟩ := dropStaleKeys_eq_some.1 h
  have hbehind := behind_skipToToken s
  have hflow : (!outer.isEmpty) = !s.outer.isEmpty := by
    have hlength := length_of_mapM houter
    cases outer <;> cases hs : s.outer <;> simp_all
  have hskip : Scanner.skipToToken { s with keyPlace := keyPlace, outer := outer } =
      { s.skipToToken with keyPlace := keyPlace, outer := outer } := by
    unfold skipToToken inFlow
    rw [hflow]
  have hdrop : Scanner.dropStaleKeys { s.skipToToken with keyPlace := keyPlace, outer := outer } =
      s.skipToToken.dropStaleKeys := by
    have houter' : outer.mapM (dropStale s.skipToToken.mark) =
        s.skipToToken.outer.mapM (dropStale s.skipToToken.mark) :=
      mapM_dropStale_later hbehind houter
    have hkeyPlace' : dropStale s.skipToToken.mark keyPlace =
        dropStale s.skipToToken.mark s.skipToToken.keyPlace := dropStale_later hbehind hkeyPlace
    unfold dropStaleKeys
    simp only [← houter', ← hkeyPlace']
    rfl
  unfold fetch
  rw [hskip, hdrop]

theorem exists_dropStaleKeys {s u : Scanner} (h : s.fetch = some u) :
    ∃ v, s.dropStaleKeys = some v := by
  obtain ⟨v, hv, -⟩ := Option.bind_eq_some_iff.1 h
  obtain ⟨outer, keyPlace, houter, hkeyPlace, rfl⟩ := dropStaleKeys_eq_some.1 hv
  have hbehind := behind_skipToToken s
  have houter' : s.outer.mapM (dropStale s.skipToToken.mark) = some outer := houter
  have hkeyPlace' : dropStale s.skipToToken.mark s.keyPlace = some keyPlace := hkeyPlace
  obtain ⟨outer', h₁⟩ := mapM_dropStale_ne_none hbehind (by rw [houter']; exact nofun)
  obtain ⟨keyPlace', h₂⟩ := Option.ne_none_iff_exists'.1
    (dropStale_ne_none hbehind (by rw [hkeyPlace']; exact nofun))
  exact ⟨_, dropStaleKeys_eq_some.2 ⟨outer', keyPlace', h₁, h₂, rfl⟩⟩

/-! ## Runs -/

/-- Steps of the scanner, none of them at the end of the text. -/
inductive Steps : Scanner → Nat → Scanner → Prop
  | refl (s : Scanner) : Steps s 0 s
  | step {s u v : Scanner} {n : Nat} (hs : s.finished = false) (hu : s.fetch = some u)
      (hv : Steps u n v) : Steps s (n + 1) v

namespace Steps

variable {s u v : Scanner} {n k : Nat}

theorem single (hs : s.finished = false) (hu : s.fetch = some u) : Steps s 1 u :=
  .step hs hu (.refl u)

theorem trans (h : Steps s n u) (h' : Steps u k v) : Steps s (n + k) v := by
  induction h with
  | refl s => rwa [Nat.zero_add]
  | @step s _ _ n hs hu _ ih =>
    rw [Nat.add_right_comm]
    exact .step hs hu (ih h')

theorem release (h : Steps s n v) (hs : s.Ahead) :
    Steps s.release n v.release ∧ v.held = s.held.head?.toList ++ v.release.held := by
  induction h with
  | refl s =>
    refine ⟨.refl _, ?_⟩
    obtain ⟨t, r, hheld⟩ := List.exists_cons_of_ne_nil hs.held
    simp [Scanner.release, hheld]
  | step hs' hu _ ih =>
    obtain ⟨hsteps, hheld⟩ := ih (fits_fetch.ahead hu hs)
    refine ⟨.step hs' ?_ hsteps, ?_⟩
    · rw [fits_fetch.release hs, hu]
      rfl
    · rw [hheld, fits_fetch.head hu hs]

end Steps

/-- Keys that have run too far may be given up before the steps. -/
theorem Steps.dropStaleKeys {s v : Scanner} {n : Nat} (h : Steps s n v)
    (hkeys : v.keyPlace = none ∧ v.outer = []) :
    ∃ u, s.dropStaleKeys = some u ∧ Steps u n v := by
  cases h with
  | refl s =>
    refine ⟨s, dropStaleKeys_eq_some.2 ⟨[], none, ?_, ?_, ?_⟩, .refl s⟩
    · rw [hkeys.2]
      rfl
    · rw [hkeys.1]
      rfl
    · obtain ⟨hkeyPlace, houter⟩ := hkeys
      cases s
      simp only at hkeyPlace houter
      rw [hkeyPlace, houter]
  | step hs hfetch hsteps =>
    obtain ⟨u, hu⟩ := exists_dropStaleKeys hfetch
    have hfetch' := (fetch_of_dropStaleKeys hu).trans hfetch
    obtain ⟨_, _, _, _, rfl⟩ := dropStaleKeys_eq_some.1 hu
    exact ⟨_, hu, .step hs hfetch' hsteps⟩

/-- Keys only start at tokens that have not been released. -/
def Timely (s : Scanner) : Prop := ∀ k, some k ∈ s.keys → s.released ≤ k.number

theorem Timely.dropStaleKeys {s u : Scanner} (h : s.Timely) (hu : s.dropStaleKeys = some u) :
    u.Timely := by
  intro k hk
  rw [fits_dropStaleKeys.released hu]
  exact h k (keys_of_dropStaleKeys hu hk)

theorem Timely.fetch {s u : Scanner} (h : s.Timely) (hu : s.fetch = some u) : u.Timely := by
  intro k hk
  rw [fits_fetch.released hu]
  rcases fits_fetch.keys hu k hk with hold | hnew
  · exact h k hold
  · omega

theorem Timely.ahead {s : Scanner} (h : s.Timely) (hheld : s.held ≠ []) (hhead : ¬ s.holdsHead) :
    s.Ahead := by
  refine ⟨hheld, fun k hk => ?_⟩
  have hle := h k hk
  have hne : k.number ≠ s.released := fun heq =>
    hhead (List.any_eq_true.2 ⟨some k, hk, beq_iff_eq.2 heq⟩)
  omega

theorem held_of_dropStaleKeys {s u : Scanner} (hu : s.dropStaleKeys = some u) : u.held = s.held := by
  obtain ⟨_, _, _, _, rfl⟩ := dropStaleKeys_eq_some.1 hu
  rfl

/-- A token at which no key can start is released. -/
theorem run_release {s u : Scanner} {t : Token} {r : List Token} (hheld : s.held = t :: r)
    (hu : s.dropStaleKeys = some u) (hhead : ¬ u.holdsHead) (fuel : Nat) :
    s.run (fuel + 1) = (t :: (u.release.run fuel).1, (u.release.run fuel).2) := by
  have hrelease : u.release = { u with held := r, released := u.released + 1 } := by
    rw [Scanner.release, held_of_dropStaleKeys hu, hheld]
    rfl
  rw [run, hrelease]
  simp only [hheld, hu, if_neg hhead]

/-- If all steps to the end of the text go well, the tokens that they heap up are released. -/
theorem run_of_steps {s v : Scanner} {n fuel : Nat} (h : Steps s n v) (hv : v.finished = true)
    (hkeys : v.keyPlace = none ∧ v.outer = []) (hs : s.Timely)
    (hfuel : n + v.held.length < fuel) : s.run fuel = (v.held, true) := by
  induction fuel generalizing s v n with
  | zero => exact absurd hfuel (Nat.not_lt_zero _)
  | succ fuel ih =>
    -- a step from a state, and what comes after it
    have hscan : ∀ {s u : Scanner} {n : Nat}, s.fetch = some u → Steps u n v → s.Timely →
        n + 1 + v.held.length < fuel + 1 → u.run fuel = (v.held, true) := by
      intro s u n hu hsteps hs hfuel
      exact ih hsteps hv hkeys (hs.fetch hu) (by omega)
    cases hheld : s.held with
    | nil =>
      rw [run]
      simp only [hheld]
      cases h with
      | refl s => rw [if_pos hv, hheld]
      | step hs' hu hsteps =>
        rw [hs', if_neg Bool.false_ne_true, hu]
        exact hscan hu hsteps hs hfuel
    | cons t r =>
      obtain ⟨u, hu, hsteps⟩ := h.dropStaleKeys hkeys
      have hs' := hs.dropStaleKeys hu
      have hheld' : u.held = t :: r := (held_of_dropStaleKeys hu).trans hheld
      by_cases hhead : u.holdsHead = true
      · rw [run]
        simp only [hheld, hu, if_pos hhead]
        cases hsteps with
        | refl s =>
          rw [holdsHead, hkeys.1, hkeys.2] at hhead
          cases hhead
        | step _ hfetch hsteps =>
          rw [hfetch]
          exact hscan hfetch hsteps hs' hfuel
      · have hahead : u.Ahead := hs'.ahead (hheld' ▸ List.cons_ne_nil t r) hhead
        obtain ⟨hsteps', hfirst⟩ := hsteps.release hahead
        have hv' : v.held = t :: v.release.held := by
          rw [hfirst, hheld']
          rfl
        have hfuel' : n + v.release.held.length < fuel := by
          rw [hv', List.length_cons] at hfuel
          omega
        rw [run_release hheld hu hhead, ih hsteps' hv hkeys hahead.keys hfuel', hv']

/-- The tokens of a text are those that the steps to its end heap up. -/
theorem tokens_of_steps {text : List Char} {v : Scanner} {n : Nat}
    (hallowed : text.all isAllowed = true) (h : Steps (.start text) n v) (hv : v.finished = true)
    (hkeys : v.keyPlace = none ∧ v.outer = [])
    (hfuel : n + v.held.length < 16 * text.length + 64) : tokens text = v.held := by
  unfold tokens
  rw [if_pos hallowed, run_of_steps h hv hkeys ?_ hfuel]
  intro k hk
  simp [keys, start] at hk

end MarketingForm.Yaml.Scanner
