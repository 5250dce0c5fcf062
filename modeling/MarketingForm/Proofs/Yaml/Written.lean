import MarketingForm.Proofs.Yaml.Scalars

/-!
# Tokens of written blocks

The kinds of the tokens of a written block are known from the block alone (`Block.valueKinds` and its
siblings). The scanner finds exactly these, whatever follows on a line that is indented at most as far as
the block (`scans_value` and its siblings, by recursion over the block), so the tokens of a whole document
are known (`map_kind_tokens`).
-/

namespace MarketingForm.Yaml

namespace Block

/-! ## Kinds of tokens -/

mutual

/-- The tokens of a value after its key. -/
def valueKinds : Block → List TokenKind
  | word s => [.scalar s .plain]
  | text s => [.scalar s (styleOf s)]
  | sequence xs => if xs.isEmpty then [.flowSequenceStart, .flowSequenceEnd] else itemsKinds xs
  | mapping es =>
    if es.isEmpty then [.flowMappingStart, .flowMappingEnd]
    else .blockMappingStart :: (entriesKinds es ++ [.blockEnd])

/-- The tokens of a value after a mark. -/
def markedKinds : Block → List TokenKind
  | word s => [.scalar s .plain]
  | text s => [.scalar s (styleOf s)]
  | sequence xs =>
    if xs.isEmpty then [.flowSequenceStart, .flowSequenceEnd]
    else .blockSequenceStart :: (itemsKinds xs ++ [.blockEnd])
  | mapping es =>
    if es.isEmpty then [.flowMappingStart, .flowMappingEnd]
    else .blockMappingStart :: (entriesKinds es ++ [.blockEnd])

def itemsKinds : List Block → List TokenKind
  | [] => []
  | x :: xs => .blockEntry :: (markedKinds x ++ itemsKinds xs)

def entriesKinds : List (List Char × Block) → List TokenKind
  | [] => []
  | (k, v) :: es =>
    .key :: .scalar k (styleOf k) :: .value ::
      ((if isSimpleKey k then valueKinds v else markedKinds v) ++ entriesKinds es)

end

mutual

/-- All words of a block can stand for themselves. -/
def HasPlainWords : Block → Prop
  | word s => allowsPlain s = true ∧ s ≠ []
  | text _ => True
  | sequence xs => ItemsHavePlainWords xs
  | mapping es => EntriesHavePlainWords es

def ItemsHavePlainWords : List Block → Prop
  | [] => True
  | x :: xs => HasPlainWords x ∧ ItemsHavePlainWords xs

def EntriesHavePlainWords : List (List Char × Block) → Prop
  | [] => True
  | (_, v) :: es => HasPlainWords v ∧ EntriesHavePlainWords es

end

/-! ## Texts -/

theorem writeItems_cons (n : Nat) (x : Block) (xs : List Block) (t : List Char) :
    writeItems n (x :: xs) ++ t =
      '-' :: (writeMarked n x ++ if xs.isEmpty then t else pad n ++ (writeItems n xs ++ t)) := by
  rw [writeItems]
  cases xs <;> simp

theorem writeEntries_cons (n : Nat) (k : List Char) (v : Block) (es : List (List Char × Block))
    (t : List Char) :
    writeEntries n ((k, v) :: es) ++ t =
      (if isSimpleKey k then spell n k ++ ':' :: writeValue n v
        else '?' :: ' ' :: endLine (spell n k) ++ pad n ++ ':' :: writeMarked n v) ++
        if es.isEmpty then t else pad n ++ (writeEntries n es ++ t) := by
  rw [writeEntries]
  cases es <;> simp

/-- A value after a mark follows a space. -/
theorem exists_writeMarked (n : Nat) (v : Block) : ∃ x, writeMarked n v = ' ' :: x := by
  cases v with
  | word s => exact ⟨_, by rw [writeMarked]⟩
  | text s => exact ⟨_, by rw [writeMarked]⟩
  | sequence xs =>
    rw [writeMarked]
    split
    · exact ⟨_, rfl⟩
    · exact ⟨_, rfl⟩
  | mapping es =>
    rw [writeMarked]
    split
    · exact ⟨_, rfl⟩
    · exact ⟨_, rfl⟩

theorem endsWord_writeValue (n : Nat) (v : Block) (t : List Char) :
    endsWord (writeValue n v ++ t) = true := by
  cases v with
  | word s =>
    rw [writeValue]
    rfl
  | text s =>
    rw [writeValue]
    rfl
  | sequence xs =>
    rw [writeValue]
    split <;> rfl
  | mapping es =>
    rw [writeValue]
    split <;> rfl

end Block

theorem starts_cons {c : Char} (h : isGap c = false ∧ isBreak c = false ∧ c ≠ '#' ∧ c ≠ '\uFEFF')
    (r : List Char) : Starts (c :: r) := by
  intro d hd
  cases hd
  exact h

theorem starts_plain {t : List Char} (ht : allowsPlain t = true) (hne : t ≠ []) (r : List Char) :
    Starts (t ++ r) := by
  have hplain := isPlain_of_allowsPlain ht
  have hsolid := hplain.solid hne (fun c hc => (head_ne_comment ht c hc).1) r
  obtain ⟨c, t, rfl⟩ := List.exists_cons_of_ne_nil hne
  refine starts_cons ⟨(hsolid c rfl).1, (hsolid c rfl).2, (head_ne_comment ht c rfl).2, ?_⟩ _
  rintro rfl
  exact absurd (hplain.printable _ List.mem_cons_self) (by decide)

theorem starts_spell (n : Nat) (t r : List Char) : Starts (spell n t ++ r) := by
  have hspelled := spelled n t
  generalize spell n t = w at hspelled
  cases hspelled with
  | plain hstyle =>
    obtain ⟨htext, hplain⟩ := styleOf_plain hstyle
    exact starts_plain hplain (ne_nil_of_readsAsText htext) r
  | quoted single _ _ => exact starts_cons (by cases single <;> decide) _
  | literal _ =>
    rw [literalHeader_eq]
    exact starts_cons (by decide) _

theorem starts_endLine_spell (n : Nat) (t r : List Char) :
    Starts (Block.endLine (spell n t) ++ r) := by
  rw [endLine_eq, List.append_assoc]
  exact starts_spell n t _

theorem starts_writeEntries {n : Nat} {es : List (List Char × Block)} (hne : es ≠ []) (t : List Char) :
    Starts (Block.writeEntries n es ++ t) := by
  obtain ⟨⟨k, v⟩, es, rfl⟩ := List.exists_cons_of_ne_nil hne
  rw [Block.writeEntries_cons]
  split
  · rw [List.append_assoc]
    exact starts_spell n k _
  · exact starts_cons (by decide) _

theorem starts_writeItems {n : Nat} {xs : List Block} (hne : xs ≠ []) (t : List Char) :
    Starts (Block.writeItems n xs ++ t) := by
  obtain ⟨x, xs, rfl⟩ := List.exists_cons_of_ne_nil hne
  rw [Block.writeItems_cons]
  exact starts_cons (by decide) _

namespace Scanner

open Block

/-! ## Steps over blocks -/

/-- Steps that add tokens of some kinds and lead to what follows. -/
def Scans (s : Scanner) (column : Nat) (r : List Char) (stack : List Int)
    (out kinds : List TokenKind) : Prop :=
  ∃ u n, Steps s n u ∧ At u true column r stack (out ++ kinds) ∧ n ≤ kinds.length

variable {s u : Scanner} {b : Bool} {column n k : Nat} {r : List Char} {stack : List Int}
  {out kinds kinds' : List TokenKind} {top : Int}

theorem Scans.of_steps (h : Steps s n u) (hn : n ≤ kinds.length)
    (hu : Scans u column r stack (out ++ kinds) kinds') :
    Scans s column r stack out (kinds ++ kinds') := by
  obtain ⟨v, m, hsteps, hv, hm⟩ := hu
  refine ⟨v, n + m, h.trans hsteps, by rwa [← List.append_assoc], ?_⟩
  rw [List.length_append]
  omega

theorem Scans.pop (h : Scans s column r (top :: stack) out kinds) (htop : (column : Int) < top) :
    Scans s column r stack out (kinds ++ [.blockEnd]) := by
  obtain ⟨u, n, hsteps, hu, hn⟩ := h
  refine ⟨u, n, hsteps, ?_, ?_⟩
  · rw [← List.append_assoc]
    exact hu.pop htop
  · rw [List.length_append]
    omega

/-- A block that is indented deeper ends with the text that is indented less. -/
theorem Scans.deeper {m : Nat} {kind : TokenKind} (hdeeper : n < m) (hcolumn : column < m)
    (h : Scans s column r (nest m ((n : Int) :: stack)) out
      (opening kind m ((n : Int) :: stack) ++ kinds)) :
    Scans s column r ((n : Int) :: stack) out (kind :: kinds ++ [.blockEnd]) := by
  have htop : (n : Int) < m := Int.ofNat_lt.2 hdeeper
  rw [nest_deeper htop, opening_deeper htop] at h
  exact h.pop (Int.ofNat_lt.2 hcolumn)

theorem nest_eq_cons (h : top ≤ n) (stack : List Int) :
    ∃ stack', nest n (top :: stack) = (n : Int) :: stack' := by
  by_cases hopen : (n : Int) ≤ top
  · exact ⟨stack, by rw [Int.le_antisymm h hopen, nest_same]⟩
  · exact ⟨top :: stack, nest_deeper (Int.not_le.1 hopen) stack⟩

/-- A word or a text behind a space. -/
theorem scans_word {t : List Char}
    (h : Stands s b k (' ' :: endLine t ++ (pad column ++ r)) ((n : Int) :: stack) out)
    (ht : allowsPlain t = true ∧ t ≠ []) (hk : n < k) (hcolumn : column ≤ n) (hr : Starts r) :
    Scans s column r ((n : Int) :: stack) out [.scalar t .plain] := by
  have hstarts : Starts (endLine t ++ (pad column ++ r)) := by
    rw [endLine_eq, List.append_assoc]
    exact starts_plain ht.1 ht.2 _
  have hat := h.at_pad (k := 1) hstarts
  obtain ⟨u, hsteps, hu⟩ := hat.word ht.1 ht.2 (Nat.lt_succ_of_lt hk) hcolumn hr
  exact ⟨u, 1, hsteps, hu, Nat.le_refl 1⟩

theorem scans_text {t : List Char}
    (h : Stands s b k (' ' :: endLine (spell n t) ++ (pad column ++ r)) ((n : Int) :: stack) out)
    (hk : n < k) (hcolumn : column ≤ n) (hr : Starts r) :
    Scans s column r ((n : Int) :: stack) out [.scalar t (styleOf t)] := by
  have hat := h.at_pad (k := 1) (starts_endLine_spell n t _)
  obtain ⟨u, hsteps, hu⟩ := hat.text (Nat.lt_succ_of_lt hk) hcolumn hr
  exact ⟨u, 1, hsteps, hu, Nat.le_refl 1⟩

theorem scans_emptySequence
    (h : Stands s b k (" []\n".toList ++ (pad column ++ r)) ((n : Int) :: stack) out) (hk : n < k)
    (hr : Starts r) :
    Scans s column r ((n : Int) :: stack) out [.flowSequenceStart, .flowSequenceEnd] := by
  have hat := h.at_pad (k := 1) (r := '[' :: ']' :: '\n' :: (pad column ++ r))
    (starts_cons (by decide) _)
  obtain ⟨u, hsteps, hu⟩ := hat.emptySequence (Nat.lt_succ_of_lt hk) hr
  exact ⟨u, 2, hsteps, hu, Nat.le_refl 2⟩

theorem scans_emptyMapping
    (h : Stands s b k (" \x7b\x7d\n".toList ++ (pad column ++ r)) ((n : Int) :: stack) out)
    (hk : n < k) (hr : Starts r) :
    Scans s column r ((n : Int) :: stack) out [.flowMappingStart, .flowMappingEnd] := by
  have hat := h.at_pad (k := 1) (r := '\x7b' :: '\x7d' :: '\n' :: (pad column ++ r))
    (starts_cons (by decide) _)
  obtain ⟨u, hsteps, hu⟩ := hat.emptyMapping (Nat.lt_succ_of_lt hk) hr
  exact ⟨u, 2, hsteps, hu, Nat.le_refl 2⟩

theorem scans_itemMark {x : Block} {t : List Char}
    (h : At s true n ('-' :: (writeMarked n x ++ t)) (top :: stack) out) (htop : top ≤ n) :
    ∃ u, Steps s 1 u ∧ Stands u true (n + 1) (writeMarked n x ++ t) (nest n (top :: stack))
      (out ++ opening .blockSequenceStart n (top :: stack) ++ [.blockEntry]) := by
  obtain ⟨y, hy⟩ := exists_writeMarked n x
  rw [hy] at h ⊢
  exact h.item htop

theorem scans_valueMark {v : Block} {t : List Char}
    (h : At s true n (':' :: (writeMarked n v ++ t)) ((n : Int) :: stack) out) :
    ∃ u, Steps s 1 u ∧
      Stands u true (n + 1) (writeMarked n v ++ t) ((n : Int) :: stack) (out ++ [.value]) := by
  obtain ⟨y, hy⟩ := exists_writeMarked n v
  rw [hy] at h ⊢
  exact h.markedValue

/-- A marked key with the colon behind it. -/
theorem scans_markedKey {key : List Char} {v : Block} {t : List Char}
    (h : At s true n ('?' :: ' ' :: (endLine (spell n key) ++ (pad n ++ (':' :: (writeMarked n v ++ t)))))
      (top :: stack) out) (htop : top ≤ n) :
    ∃ u, Steps s 3 u ∧ Stands u true (n + 1) (writeMarked n v ++ t) (nest n (top :: stack))
      (out ++ opening .blockMappingStart n (top :: stack) ++
        [.key, .scalar key (styleOf key), .value]) := by
  obtain ⟨stack', hstack⟩ := nest_eq_cons htop stack
  obtain ⟨u, hsteps, hu⟩ := h.markedKey htop
  rw [hstack] at hu ⊢
  have hat := hu.at_pad (k := 1) (starts_endLine_spell n key _)
  obtain ⟨v', hsteps', hv'⟩ := hat.text (by omega) (Nat.le_refl n) (starts_cons (by decide) _)
  obtain ⟨w, hsteps'', hw⟩ := scans_valueMark hv'
  refine ⟨w, (hsteps.trans hsteps').trans hsteps'', ?_⟩
  simpa using hw

mutual

theorem scans_value (n : Nat) : ∀ v : Block, v.HasPlainWords → ∀ {s : Scanner} {column k : Nat}
    {r : List Char} {stack : List Int} {out : List TokenKind},
    Stands s false k (writeValue n v ++ (pad column ++ r)) ((n : Int) :: stack) out → n < k →
      column ≤ n → Starts r → Scans s column r ((n : Int) :: stack) out (valueKinds v)
  | .word t, hv, _, _, _, _, _, _, h, hk, hcolumn, hr => by
    rw [writeValue] at h
    rw [HasPlainWords] at hv
    rw [valueKinds]
    exact scans_word h hv hk hcolumn hr
  | .text t, _, _, _, _, _, _, _, h, hk, hcolumn, hr => by
    rw [writeValue] at h
    rw [valueKinds]
    exact scans_text h hk hcolumn hr
  | .sequence xs, hv, _, _, _, _, _, _, h, hk, hcolumn, hr => by
    rw [HasPlainWords] at hv
    rw [writeValue] at h
    rw [valueKinds]
    by_cases hxs : xs = []
    · subst hxs
      exact scans_emptySequence h hk hr
    · have hempty : xs.isEmpty = false := by simpa using hxs
      rw [hempty, if_neg Bool.false_ne_true] at h ⊢
      simp only [List.cons_append, List.append_assoc] at h
      have hat := h.at_feed (starts_writeItems hxs _)
      have := scans_items n xs hxs hv hat (Int.le_refl _) hcolumn hr
      rwa [nest_same, opening_same, List.nil_append] at this
  | .mapping es, hv, _, _, _, _, _, _, h, hk, hcolumn, hr => by
    rw [HasPlainWords] at hv
    rw [writeValue] at h
    rw [valueKinds]
    by_cases hes : es = []
    · subst hes
      exact scans_emptyMapping h hk hr
    · have hempty : es.isEmpty = false := by simpa using hes
      rw [hempty, if_neg Bool.false_ne_true] at h ⊢
      simp only [List.cons_append, List.append_assoc] at h
      have hat := h.at_feed (starts_writeEntries hes _)
      have hblock := scans_entries (n + 2) es hes hv hat (by omega) (by omega) hr
      exact hblock.deeper (by omega) (by omega)

theorem scans_marked (n : Nat) : ∀ v : Block, v.HasPlainWords → ∀ {s : Scanner} {column : Nat}
    {r : List Char} {stack : List Int} {out : List TokenKind},
    Stands s true (n + 1) (writeMarked n v ++ (pad column ++ r)) ((n : Int) :: stack) out →
      column ≤ n → Starts r → Scans s column r ((n : Int) :: stack) out (markedKinds v)
  | .word t, hv, _, _, _, _, _, h, hcolumn, hr => by
    rw [writeMarked] at h
    rw [HasPlainWords] at hv
    rw [markedKinds]
    exact scans_word h hv (Nat.lt_succ_self n) hcolumn hr
  | .text t, _, _, _, _, _, _, h, hcolumn, hr => by
    rw [writeMarked] at h
    rw [markedKinds]
    exact scans_text h (Nat.lt_succ_self n) hcolumn hr
  | .sequence xs, hv, _, _, _, _, _, h, hcolumn, hr => by
    rw [HasPlainWords] at hv
    rw [writeMarked] at h
    rw [markedKinds]
    by_cases hxs : xs = []
    · subst hxs
      exact scans_emptySequence h (Nat.lt_succ_self n) hr
    · have hempty : xs.isEmpty = false := by simpa using hxs
      rw [hempty, if_neg Bool.false_ne_true] at h ⊢
      have hat := h.at_pad (k := 1) (starts_writeItems hxs _)
      have hblock := scans_items (n + 2) xs hxs hv hat (by omega) (by omega) hr
      exact hblock.deeper (by omega) (by omega)
  | .mapping es, hv, _, _, _, _, _, h, hcolumn, hr => by
    rw [HasPlainWords] at hv
    rw [writeMarked] at h
    rw [markedKinds]
    by_cases hes : es = []
    · subst hes
      exact scans_emptyMapping h (Nat.lt_succ_self n) hr
    · have hempty : es.isEmpty = false := by simpa using hes
      rw [hempty, if_neg Bool.false_ne_true] at h ⊢
      have hat := h.at_pad (k := 1) (starts_writeEntries hes _)
      have hblock := scans_entries (n + 2) es hes hv hat (by omega) (by omega) hr
      exact hblock.deeper (by omega) (by omega)

theorem scans_items (n : Nat) : ∀ xs : List Block, xs ≠ [] → ItemsHavePlainWords xs →
    ∀ {s : Scanner} {column : Nat} {r : List Char} {top : Int} {stack : List Int}
      {out : List TokenKind},
    At s true n (writeItems n xs ++ (pad column ++ r)) (top :: stack) out → top ≤ n → column ≤ n →
      Starts r → Scans s column r (nest n (top :: stack)) out
        (opening .blockSequenceStart n (top :: stack) ++ itemsKinds xs)
  | [], hne, _, _, _, _, _, _, _, _, _, _, _ => absurd rfl hne
  | x :: xs, _, hv, s, column, r, top, stack, out, h, htop, hcolumn, hr => by
    rw [ItemsHavePlainWords] at hv
    rw [writeItems_cons] at h
    rw [itemsKinds]
    obtain ⟨stack', hstack⟩ := nest_eq_cons htop stack
    obtain ⟨u, hsteps, hu⟩ := scans_itemMark h htop
    rw [hstack] at hu ⊢
    have hvalue : Scans u column r ((n : Int) :: stack')
        (out ++ (opening .blockSequenceStart n (top :: stack) ++ [.blockEntry]))
        (markedKinds x ++ itemsKinds xs) := by
      rw [← List.append_assoc]
      by_cases hxs : xs = []
      · subst hxs
        rw [itemsKinds, List.append_nil]
        exact scans_marked n x hv.1 hu hcolumn hr
      · have hempty : xs.isEmpty = false := by simpa using hxs
        rw [hempty, if_neg Bool.false_ne_true] at hu
        obtain ⟨v, m, hsteps', hv', hm⟩ := scans_marked n x hv.1 hu (Nat.le_refl n)
          (starts_writeItems hxs _)
        have hrest := scans_items n xs hxs hv.2 hv' (Int.le_refl _) hcolumn hr
        rw [nest_same, opening_same, List.nil_append] at hrest
        exact .of_steps hsteps' hm hrest
    have := Scans.of_steps hsteps (by simp) hvalue
    simpa using this

theorem scans_entries (n : Nat) : ∀ es : List (List Char × Block), es ≠ [] →
    EntriesHavePlainWords es → ∀ {s : Scanner} {column : Nat} {r : List Char} {top : Int}
      {stack : List Int} {out : List TokenKind},
    At s true n (writeEntries n es ++ (pad column ++ r)) (top :: stack) out → top ≤ n → column ≤ n →
      Starts r → Scans s column r (nest n (top :: stack)) out
        (opening .blockMappingStart n (top :: stack) ++ entriesKinds es)
  | [], hne, _, _, _, _, _, _, _, _, _, _, _ => absurd rfl hne
  | (k, v) :: es, _, hv, s, column, r, top, stack, out, h, htop, hcolumn, hr => by
    rw [EntriesHavePlainWords] at hv
    rw [writeEntries_cons] at h
    rw [entriesKinds]
    obtain ⟨stack', hstack⟩ := nest_eq_cons htop stack
    -- the value, with what follows it up to some column
    have hvalue : ∀ {column r}, column ≤ n → Starts r →
        At s true n ((if isSimpleKey k then spell n k ++ ':' :: writeValue n v
          else '?' :: ' ' :: endLine (spell n k) ++ pad n ++ ':' :: writeMarked n v) ++
            (pad column ++ r)) (top :: stack) out →
        Scans s column r (nest n (top :: stack)) out
          (opening .blockMappingStart n (top :: stack) ++ ([.key, .scalar k (styleOf k), .value] ++
            if isSimpleKey k then valueKinds v else markedKinds v)) := by
      intro column r hcolumn hr h
      rw [hstack]
      by_cases hk : isSimpleKey k = true
      · rw [if_pos hk, List.append_assoc, List.cons_append] at h
        rw [if_pos hk, ← List.append_assoc]
        obtain ⟨u, hsteps, hu⟩ := h.key htop hk (endsWord_writeValue n v _)
        rw [hstack, List.append_assoc] at hu
        exact .of_steps hsteps (by simp) (scans_value n v hv.1 hu (by omega) hcolumn hr)
      · rw [if_neg hk] at h
        rw [if_neg hk, ← List.append_assoc]
        simp only [List.cons_append, List.append_assoc] at h
        obtain ⟨u, hsteps, hu⟩ := scans_markedKey h htop
        rw [hstack, List.append_assoc] at hu
        exact .of_steps hsteps (by simp) (scans_marked n v hv.1 hu hcolumn hr)
    by_cases hes : es = []
    · subst hes
      have := hvalue hcolumn hr h
      simpa [entriesKinds] using this
    · have hempty : es.isEmpty = false := by simpa using hes
      rw [hempty, if_neg Bool.false_ne_true] at h
      obtain ⟨u, m, hsteps, hu, hm⟩ := hvalue (Nat.le_refl n) (starts_writeEntries hes _) h
      rw [hstack] at hu ⊢
      have hrest := scans_entries n es hes hv.2 hu (Int.le_refl _) hcolumn hr
      rw [nest_same, opening_same, List.nil_append] at hrest
      have := Scans.of_steps hsteps hm hrest
      simpa using this

end

end Scanner

/-! ## Characters -/

theorem all_isAllowed {s : List Char} (h : ∀ c ∈ s, isPrintable c = true) :
    s.all isAllowed = true :=
  List.all_eq_true.2 fun c hc => isAllowed_of_isPrintable (h c hc)

theorem all_isAllowed_pad (n : Nat) : (Block.pad n).all isAllowed = true :=
  List.all_eq_true.2 fun c hc => by
    rw [List.eq_of_mem_replicate hc]
    decide

theorem all_isAllowed_fresh (indent : Nat) (fresh : Bool) :
    (if fresh then List.replicate indent ' ' else []).all isAllowed = true := by
  split
  · exact all_isAllowed_pad indent
  · rfl

theorem all_isAllowed_singleBody (indent : Nat) {s : List Char} (hs : s.all isAllowed = true)
    (fresh : Bool) : (singleBody indent fresh s).all isAllowed = true := by
  induction s generalizing fresh with
  | nil => exact all_isAllowed_fresh indent fresh
  | cons c s ih =>
    rw [List.all_cons, Bool.and_eq_true] at hs
    rw [singleBody]
    split
    · rw [List.all_cons, hs.1, ih hs.2]
      rfl
    · have hchar : (if c = '\'' then ['\'', '\''] else [c]).all isAllowed = true := by
        split
        · decide
        · simpa using hs.1
      rw [List.all_append, List.all_append, all_isAllowed_fresh, hchar, ih hs.2]
      rfl

theorem all_isAllowed_indentLines (indent : Nat) {s : List Char} (hs : s.all isAllowed = true)
    (fresh : Bool) : (indentLines indent fresh s).all isAllowed = true := by
  induction s generalizing fresh with
  | nil => rfl
  | cons c s ih =>
    rw [List.all_cons, Bool.and_eq_true] at hs
    rw [indentLines]
    split
    · rw [List.all_cons, hs.1, ih hs.2]
      rfl
    · rw [List.all_append, all_isAllowed_fresh, List.all_cons, hs.1, ih hs.2]
      rfl

theorem all_isAllowed_literalHeader (s : List Char) : (literalHeader s).all isAllowed = true := by
  rw [literalHeader_eq]
  cases isHinted s <;> cases chompOf s <;> decide

theorem all_isAllowed_spell (n : Nat) (t : List Char) : (spell n t).all isAllowed = true := by
  unfold spell
  cases hstyle : styleOf t with
  | plain => exact all_isAllowed (isPlain_of_allowsPlain (styleOf_plain hstyle).2).printable
  | single =>
    have hbody := all_isAllowed_singleBody (n + 2)
      (all_isAllowed (styleOf_single hstyle).printable) false
    simp only [List.cons_append, List.all_cons, List.all_append, hbody]
    decide
  | double =>
    have hbody : (t.flatMap doubleChar).all isAllowed = true := all_isAllowed fun c hc => by
      obtain ⟨d, -, hc⟩ := List.mem_flatMap.1 hc
      exact (isInk_doubleChar hc).1
    simp only [List.cons_append, List.all_cons, List.all_append, hbody]
    decide
  | literal =>
    have hlines := all_isAllowed_indentLines (n + 2)
      (all_isAllowed (styleOf_literal hstyle).1) true
    simp only [List.all_append, List.all_cons, all_isAllowed_literalHeader, hlines]
    decide
  | folded => exact absurd hstyle (styleOf_ne_folded t)

theorem all_isAllowed_endLine {s : List Char} (hs : s.all isAllowed = true) :
    (Block.endLine s).all isAllowed = true := by
  rw [endLine_eq, List.all_append, hs, closing]
  split <;> rfl

theorem all_isAllowed_word {s : List Char} (hs : allowsPlain s = true) :
    (Block.endLine s).all isAllowed = true :=
  all_isAllowed_endLine (all_isAllowed (isPlain_of_allowsPlain hs).printable)

namespace Block

mutual

theorem all_isAllowed_writeValue (n : Nat) : ∀ v : Block, v.HasPlainWords →
    (writeValue n v).all isAllowed = true
  | .word s, hv => by
    rw [HasPlainWords] at hv
    rw [writeValue, List.all_cons, all_isAllowed_word hv.1]
    decide
  | .text s, _ => by
    rw [writeValue, List.all_cons, all_isAllowed_endLine (all_isAllowed_spell n s)]
    decide
  | .sequence xs, hv => by
    rw [HasPlainWords] at hv
    rw [writeValue]
    split
    · decide
    · simp only [List.cons_append, List.all_cons, List.all_append, all_isAllowed_pad,
        all_isAllowed_writeItems n xs hv]
      decide
  | .mapping es, hv => by
    rw [HasPlainWords] at hv
    rw [writeValue]
    split
    · decide
    · simp only [List.cons_append, List.all_cons, List.all_append, all_isAllowed_pad,
        all_isAllowed_writeEntries (n + 2) es hv]
      decide

theorem all_isAllowed_writeMarked (n : Nat) : ∀ v : Block, v.HasPlainWords →
    (writeMarked n v).all isAllowed = true
  | .word s, hv => by
    rw [HasPlainWords] at hv
    rw [writeMarked, List.all_cons, all_isAllowed_word hv.1]
    decide
  | .text s, _ => by
    rw [writeMarked, List.all_cons, all_isAllowed_endLine (all_isAllowed_spell n s)]
    decide
  | .sequence xs, hv => by
    rw [HasPlainWords] at hv
    rw [writeMarked]
    split
    · decide
    · rw [List.all_cons, all_isAllowed_writeItems (n + 2) xs hv]
      decide
  | .mapping es, hv => by
    rw [HasPlainWords] at hv
    rw [writeMarked]
    split
    · decide
    · rw [List.all_cons, all_isAllowed_writeEntries (n + 2) es hv]
      decide

theorem all_isAllowed_writeItems (n : Nat) : ∀ xs : List Block, ItemsHavePlainWords xs →
    (writeItems n xs).all isAllowed = true
  | [], _ => by
    rw [writeItems]
    rfl
  | x :: xs, hv => by
    rw [ItemsHavePlainWords] at hv
    have hrest : (if xs.isEmpty then [] else pad n ++ writeItems n xs).all isAllowed = true := by
      split
      · rfl
      · rw [List.all_append, all_isAllowed_pad, all_isAllowed_writeItems n xs hv.2]
        rfl
    rw [writeItems]
    simp only [List.cons_append, List.all_cons, List.all_append, hrest,
      all_isAllowed_writeMarked n x hv.1]
    decide

theorem all_isAllowed_writeEntries (n : Nat) : ∀ es : List (List Char × Block),
    EntriesHavePlainWords es → (writeEntries n es).all isAllowed = true
  | [], _ => by
    rw [writeEntries]
    rfl
  | (k, v) :: es, hv => by
    rw [EntriesHavePlainWords] at hv
    have hrest : (if es.isEmpty then [] else pad n ++ writeEntries n es).all isAllowed = true := by
      split
      · rfl
      · rw [List.all_append, all_isAllowed_pad, all_isAllowed_writeEntries n es hv.2]
        rfl
    have hkey := all_isAllowed_spell n k
    rw [writeEntries, List.all_append, hrest, Bool.and_true]
    split
    · simp only [List.all_cons, List.all_append, hkey, all_isAllowed_writeValue n v hv.1]
      decide
    · simp only [List.cons_append, List.all_cons, List.all_append, all_isAllowed_pad,
        all_isAllowed_endLine hkey, all_isAllowed_writeMarked n v hv.1]
      decide

end

end Block

/-! ## Lengths -/

namespace Block

mutual

theorem length_valueKinds_le (n : Nat) : ∀ v : Block,
    (valueKinds v).length ≤ 4 * (writeValue n v).length
  | .word s => by
    rw [valueKinds, writeValue]
    simp only [List.length_cons, List.length_nil]
    omega
  | .text s => by
    rw [valueKinds, writeValue]
    simp only [List.length_cons, List.length_nil]
    omega
  | .sequence xs => by
    have := length_itemsKinds_le n xs
    rw [valueKinds, writeValue]
    split
    · decide
    · simp only [List.length_cons, List.length_append]
      omega
  | .mapping es => by
    have := length_entriesKinds_le (n + 2) es
    rw [valueKinds, writeValue]
    split
    · decide
    · simp only [List.length_cons, List.length_append, List.length_nil]
      omega

theorem length_markedKinds_le (n : Nat) : ∀ v : Block,
    (markedKinds v).length ≤ 4 * (writeMarked n v).length
  | .word s => by
    rw [markedKinds, writeMarked]
    simp only [List.length_cons, List.length_nil]
    omega
  | .text s => by
    rw [markedKinds, writeMarked]
    simp only [List.length_cons, List.length_nil]
    omega
  | .sequence xs => by
    have := length_itemsKinds_le (n + 2) xs
    rw [markedKinds, writeMarked]
    split
    · decide
    · simp only [List.length_cons, List.length_append, List.length_nil]
      omega
  | .mapping es => by
    have := length_entriesKinds_le (n + 2) es
    rw [markedKinds, writeMarked]
    split
    · decide
    · simp only [List.length_cons, List.length_append, List.length_nil]
      omega

theorem length_itemsKinds_le (n : Nat) : ∀ xs : List Block,
    (itemsKinds xs).length ≤ 4 * (writeItems n xs).length
  | [] => by simp [itemsKinds]
  | x :: xs => by
    have hx := length_markedKinds_le n x
    have hxs := length_itemsKinds_le n xs
    rw [itemsKinds, writeItems]
    split
    · rename_i hempty
      rw [List.isEmpty_iff.1 hempty, itemsKinds]
      simp only [List.length_cons, List.length_append, List.length_nil]
      omega
    · simp only [List.length_cons, List.length_append]
      omega

theorem length_entriesKinds_le (n : Nat) : ∀ es : List (List Char × Block),
    (entriesKinds es).length ≤ 4 * (writeEntries n es).length
  | [] => by simp [entriesKinds]
  | (k, v) :: es => by
    have hv := length_valueKinds_le n v
    have hm := length_markedKinds_le n v
    have hes := length_entriesKinds_le n es
    have hrest : (entriesKinds es).length ≤
        4 * (if es.isEmpty then [] else pad n ++ writeEntries n es).length := by
      split
      · rename_i hempty
        rw [List.isEmpty_iff.1 hempty, entriesKinds]
        exact Nat.zero_le _
      · rw [List.length_append]
        omega
    rw [entriesKinds, writeEntries]
    simp only [List.length_cons, List.length_append]
    split
    · simp only [List.length_cons, List.length_append]
      omega
    · simp only [List.length_cons, List.length_append]
      omega

end

end Block

/-! ## Documents -/

/-- The tokens of a written document. -/
theorem map_kind_tokens {es : List (List Char × Block)} (hne : es ≠ [])
    (h : Block.EntriesHavePlainWords es) :
    (tokens (Block.writeEntries 0 es)).map Token.kind =
      .blockMappingStart :: (Block.entriesKinds es ++ [.blockEnd, .streamEnd]) := by
  have hstart : Scanner.At (.start (Block.writeEntries 0 es)) true 0
      (Block.writeEntries 0 es ++ (Block.pad 0 ++ [])) [-1] [] := by
    have hstarts := starts_writeEntries (n := 0) hne []
    have hpad : Block.pad 0 ++ ([] : List Char) = [] := rfl
    rw [List.append_nil] at hstarts
    rw [hpad, List.append_nil]
    exact Scanner.at_start hstarts
  obtain ⟨u, n, hsteps, hu, hn⟩ :=
    Scanner.scans_entries 0 es hne h hstart (by decide) (Nat.le_refl 0) nofun
  have hdeeper : (-1 : Int) < (0 : Nat) := by decide
  rw [Scanner.nest_deeper hdeeper, Scanner.opening_deeper hdeeper] at hu
  rw [Scanner.opening_deeper hdeeper] at hn
  obtain ⟨v, hlast, hfinished, hkey, houter, hheld⟩ := hu.finish
  have hlength := congrArg List.length hheld
  have hle := Block.length_entriesKinds_le 0 es
  simp only [List.length_map, List.length_append, List.length_cons, List.length_nil] at hlength hn
  rw [Scanner.tokens_of_steps (Block.all_isAllowed_writeEntries 0 es h) (hsteps.trans hlast) hfinished
    ⟨hkey, houter⟩ (by omega), hheld]
  simp

end MarketingForm.Yaml
