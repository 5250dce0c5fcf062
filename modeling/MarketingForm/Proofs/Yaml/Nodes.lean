import MarketingForm.Proofs.Yaml.Written
import MarketingForm.Yaml.Node.Read

/-!
# Nodes of written blocks

A node shows a block if it has the block's texts in the block's order, wherever it stands in the text
(`Block.Shows`). The nodes that are read from the tokens of a block show it, and so a written document is
read as a sound one (`parse_writeDocument`).
-/

namespace MarketingForm.Yaml

namespace Block

mutual

/-- A node has the texts of a block. -/
def Shows : Block → Node → Prop
  | word s, n => ∃ m, n = .scalar m .bare .plain s
  | text s, n => ∃ m, n = .scalar m .bare (styleOf s) s
  | sequence xs, n => ∃ m ns, n = .sequence m .bare ns true ∧ ItemsShow xs ns
  | mapping es, n => ∃ m ns, n = .mapping m .bare ns true ∧ EntriesShow es ns

/-- Nodes have the texts of blocks in turn. -/
def ItemsShow : List Block → List Node → Prop
  | [], ns => ns = []
  | x :: xs, ns => ∃ n r, ns = n :: r ∧ Shows x n ∧ ItemsShow xs r

/-- Nodes are the keys and values of entries in turn. -/
def EntriesShow : List (List Char × Block) → List Node → Prop
  | [], ns => ns = []
  | (k, v) :: es, ns =>
    ∃ m n r, ns = .scalar m .bare (styleOf k) k :: n :: r ∧ Shows v n ∧ EntriesShow es r

end

end Block

/-! ## Single tokens -/

variable {handles : Handles} {anchors : List (List Char × Nat)} {t : Token} {ts : List Token}
  {kinds : List TokenKind} {k : TokenKind}

theorem exists_token (h : ts.map Token.kind = k :: kinds) :
    ∃ a z r, ts = ⟨k, a, z⟩ :: r ∧ r.map Token.kind = kinds := by
  obtain ⟨⟨k', a, z⟩, r, rfl, hk, hr⟩ := List.map_eq_cons_iff.1 h
  obtain rfl : k' = k := hk
  exact ⟨a, z, r, rfl, hr⟩

theorem readNode_scalar (block indentless : Bool) (text : List Char) (style : Style) (a z : Mark)
    (fuel : Nat) :
    readNode handles block indentless ⟨⟨.scalar text style, a, z⟩ :: ts, anchors⟩ (fuel + 1) =
      (some (.scalar a .bare style text), some ⟨ts, anchors⟩) := by
  rw [readNode]
  rfl

theorem readNode_blockMapping (indentless : Bool) (a z : Mark) (fuel : Nat) :
    readNode handles true indentless ⟨⟨.blockMappingStart, a, z⟩ :: ts, anchors⟩ (fuel + 1) =
      (some (.mapping a .bare (readBlockEntries handles ⟨ts, anchors⟩ fuel).1
          (readBlockEntries handles ⟨ts, anchors⟩ fuel).2.isSome),
        (readBlockEntries handles ⟨ts, anchors⟩ fuel).2) := by
  rw [readNode]
  rfl

theorem readNode_blockSequence (indentless : Bool) (a z : Mark) (fuel : Nat) :
    readNode handles true indentless ⟨⟨.blockSequenceStart, a, z⟩ :: ts, anchors⟩ (fuel + 1) =
      (some (.sequence a .bare (readBlockItems handles ⟨ts, anchors⟩ fuel).1
          (readBlockItems handles ⟨ts, anchors⟩ fuel).2.isSome),
        (readBlockItems handles ⟨ts, anchors⟩ fuel).2) := by
  rw [readNode]
  rfl

/-- A sequence that is not indented starts with its first item. -/
theorem readNode_indentless (a z : Mark) (fuel : Nat) :
    readNode handles true true ⟨⟨.blockEntry, a, z⟩ :: ts, anchors⟩ (fuel + 1) =
      (some (.sequence a .bare
          (readIndentlessItems handles ⟨⟨.blockEntry, a, z⟩ :: ts, anchors⟩ fuel).1
          (readIndentlessItems handles ⟨⟨.blockEntry, a, z⟩ :: ts, anchors⟩ fuel).2.isSome),
        (readIndentlessItems handles ⟨⟨.blockEntry, a, z⟩ :: ts, anchors⟩ fuel).2) := by
  rw [readNode]
  rfl

theorem readNode_emptySequence (block indentless : Bool) (a z a' z' : Mark) (fuel : Nat) :
    readNode handles block indentless
        ⟨⟨.flowSequenceStart, a, z⟩ :: ⟨.flowSequenceEnd, a', z'⟩ :: ts, anchors⟩ (fuel + 2) =
      (some (.sequence a .bare [] true), some ⟨ts, anchors⟩) := by
  rw [readNode]
  rfl

theorem readNode_emptyMapping (block indentless : Bool) (a z a' z' : Mark) (fuel : Nat) :
    readNode handles block indentless
        ⟨⟨.flowMappingStart, a, z⟩ :: ⟨.flowMappingEnd, a', z'⟩ :: ts, anchors⟩ (fuel + 2) =
      (some (.mapping a .bare [] true), some ⟨ts, anchors⟩) := by
  rw [readNode]
  rfl

theorem readNodeUnless_of_not_mem {stops : List TokenKind} (block indentless : Bool) (blankAt : Mark)
    (h : ts.map Token.kind = k :: kinds) (hk : k ∉ stops) (fuel : Nat) :
    readNodeUnless handles stops block indentless blankAt ⟨ts, anchors⟩ (fuel + 1) =
      readNode handles block indentless ⟨ts, anchors⟩ fuel := by
  obtain ⟨a, z, r, rfl, -⟩ := exists_token h
  have hnode : hasNode stops ⟨k, a, z⟩ = true := by simp [hasNode, hk]
  rw [readNodeUnless]
  simp only [Source.head?, List.head?_cons, hnode, ↓reduceIte]

/-! ## Lists of nodes -/

variable {n : Node} {u : Source}

theorem readBlockItems_cons (a z : Mark) {fuel : Nat}
    (h : readNodeUnless handles [.blockEntry, .blockEnd] true false z ⟨ts, anchors⟩ fuel =
      (some n, some u)) :
    readBlockItems handles ⟨⟨.blockEntry, a, z⟩ :: ts, anchors⟩ (fuel + 1) =
      (n :: (readBlockItems handles u fuel).1, (readBlockItems handles u fuel).2) := by
  rw [readBlockItems]
  simp [Source.head?, Source.next, h]

theorem readBlockItems_end (a z : Mark) (fuel : Nat) :
    readBlockItems handles ⟨⟨.blockEnd, a, z⟩ :: ts, anchors⟩ (fuel + 1) =
      ([], some ⟨ts, anchors⟩) := by
  rw [readBlockItems]
  rfl

theorem readIndentlessItems_cons (a z : Mark) {fuel : Nat}
    (h : readNodeUnless handles [.blockEntry, .key, .value, .blockEnd] true false z ⟨ts, anchors⟩
      fuel = (some n, some u)) :
    readIndentlessItems handles ⟨⟨.blockEntry, a, z⟩ :: ts, anchors⟩ (fuel + 1) =
      (n :: (readIndentlessItems handles u fuel).1, (readIndentlessItems handles u fuel).2) := by
  rw [readIndentlessItems]
  simp [Source.head?, Source.next, h]

theorem readIndentlessItems_end (h : ts.map Token.kind = k :: kinds) (hk : k ≠ .blockEntry)
    (fuel : Nat) :
    readIndentlessItems handles ⟨ts, anchors⟩ (fuel + 1) = ([], some ⟨ts, anchors⟩) := by
  obtain ⟨a, z, r, rfl, -⟩ := exists_token h
  rw [readIndentlessItems]
  simp only [Source.head?, List.head?_cons]
  split
  · rename_i heq
    exact absurd (congrArg Token.kind (Option.some.inj heq)) hk
  · rfl
  · rename_i heq
    cases heq

theorem readBlockEntries_cons (a z a' z' a'' z'' : Mark) (text : List Char) (style : Style)
    {fuel : Nat}
    (h : readNodeUnless handles [.key, .value, .blockEnd] true true z'' ⟨ts, anchors⟩ (fuel + 1) =
      (some n, some u)) :
    readBlockEntries handles
        ⟨⟨.key, a, z⟩ :: ⟨.scalar text style, a', z'⟩ :: ⟨.value, a'', z''⟩ :: ts, anchors⟩
        (fuel + 3) =
      (.scalar a' .bare style text :: n :: (readBlockEntries handles u (fuel + 2)).1,
        (readBlockEntries handles u (fuel + 2)).2) := by
  have hkey : readNodeUnless handles [.key, .value, .blockEnd] true true z
      ⟨⟨.scalar text style, a', z'⟩ :: ⟨.value, a'', z''⟩ :: ts, anchors⟩ (fuel + 2) =
        (some (.scalar a' .bare style text), some ⟨⟨.value, a'', z''⟩ :: ts, anchors⟩) := by
    rw [readNodeUnless_of_not_mem true true z rfl (by simp), readNode_scalar]
  have hvalue : readBlockValue handles ⟨⟨.value, a'', z''⟩ :: ts, anchors⟩ (fuel + 2) =
      (some n, some u) := by
    rw [readBlockValue]
    exact h
  rw [readBlockEntries]
  simp [Source.head?, Source.next, hkey, hvalue]

theorem readBlockEntries_end (a z : Mark) (fuel : Nat) :
    readBlockEntries handles ⟨⟨.blockEnd, a, z⟩ :: ts, anchors⟩ (fuel + 1) =
      ([], some ⟨ts, anchors⟩) := by
  rw [readBlockEntries]
  rfl

/-! ## Nodes of blocks -/

open Block

theorem exists_markedKinds (v : Block) : ∃ k r, markedKinds v = k :: r ∧
    k ∉ [TokenKind.blockEntry, .key, .value, .blockEnd] := by
  cases v with
  | word s => exact ⟨_, _, by rw [markedKinds], by simp⟩
  | text s => exact ⟨_, _, by rw [markedKinds], by simp⟩
  | sequence xs =>
    rw [markedKinds]
    split
    · exact ⟨_, _, rfl, by simp⟩
    · exact ⟨_, _, rfl, by simp⟩
  | mapping es =>
    rw [markedKinds]
    split
    · exact ⟨_, _, rfl, by simp⟩
    · exact ⟨_, _, rfl, by simp⟩

theorem exists_valueKinds (v : Block) : ∃ k r, valueKinds v = k :: r ∧
    k ∉ [TokenKind.key, .value, .blockEnd] := by
  cases v with
  | word s => exact ⟨_, _, by rw [valueKinds], by simp⟩
  | text s => exact ⟨_, _, by rw [valueKinds], by simp⟩
  | sequence xs =>
    rw [valueKinds]
    cases xs with
    | nil => exact ⟨_, _, rfl, by simp⟩
    | cons x xs => exact ⟨_, _, by rw [List.isEmpty_cons, if_neg Bool.false_ne_true, itemsKinds],
        by simp⟩
  | mapping es =>
    rw [valueKinds]
    split
    · exact ⟨_, _, rfl, by simp⟩
    · exact ⟨_, _, rfl, by simp⟩

/-- The tokens behind a value: one follows, and it is no further item. -/
def Follows (kinds : List TokenKind) : Prop := ∃ k r, kinds = k :: r ∧ k ≠ .blockEntry

theorem follows_entries (es : List (List Char × Block)) (kinds : List TokenKind) :
    Follows (entriesKinds es ++ .blockEnd :: kinds) := by
  cases es with
  | nil => exact ⟨.blockEnd, kinds, by rw [entriesKinds]; rfl, nofun⟩
  | cons e es => exact ⟨.key, _, by rw [entriesKinds]; rfl, nofun⟩

/-- A node is read that shows a block, up to some tokens. -/
def ReadsAs (v : Block) (anchors : List (List Char × Nat)) (kinds : List TokenKind)
    (read : Option Node × Option Source) : Prop :=
  ∃ n ts, read = (some n, some ⟨ts, anchors⟩) ∧ v.Shows n ∧ ts.map Token.kind = kinds

theorem readNodeUnless_value (v : Block) (blankAt : Mark)
    (h : ts.map Token.kind = valueKinds v ++ kinds) (fuel : Nat) :
    readNodeUnless handles [.key, .value, .blockEnd] true true blankAt ⟨ts, anchors⟩ (fuel + 1) =
      readNode handles true true ⟨ts, anchors⟩ fuel := by
  obtain ⟨k, r, hk, hstop⟩ := exists_valueKinds v
  rw [hk] at h
  exact readNodeUnless_of_not_mem true true blankAt h hstop fuel

theorem readNodeUnless_marked (v : Block) (stops : List TokenKind)
    (hstops : stops ⊆ [.blockEntry, .key, .value, .blockEnd]) (indentless : Bool) (blankAt : Mark)
    (h : ts.map Token.kind = markedKinds v ++ kinds) (fuel : Nat) :
    readNodeUnless handles stops true indentless blankAt ⟨ts, anchors⟩ (fuel + 1) =
      readNode handles true indentless ⟨ts, anchors⟩ fuel := by
  obtain ⟨k, r, hk, hstop⟩ := exists_markedKinds v
  rw [hk] at h
  exact readNodeUnless_of_not_mem true indentless blankAt h (fun hmem => hstop (hstops hmem)) fuel

theorem reads_scalar {v : Block} {text : List Char} {style : Style}
    (hv : ∀ m, v.Shows (.scalar m .bare style text)) (indentless : Bool) {fuel : Nat}
    (h : ts.map Token.kind = .scalar text style :: kinds) (hfuel : 0 < fuel) :
    ReadsAs v anchors kinds (readNode handles true indentless ⟨ts, anchors⟩ fuel) := by
  obtain ⟨a, z, r, rfl, hr⟩ := exists_token h
  obtain ⟨fuel, rfl⟩ : ∃ n, fuel = n + 1 := ⟨fuel - 1, by omega⟩
  exact ⟨_, r, readNode_scalar true indentless text style a z fuel, hv a, hr⟩

theorem reads_word (s : List Char) (indentless : Bool) {fuel : Nat}
    (h : ts.map Token.kind = .scalar s .plain :: kinds) (hfuel : 0 < fuel) :
    ReadsAs (.word s) anchors kinds (readNode handles true indentless ⟨ts, anchors⟩ fuel) := by
  refine reads_scalar (fun m => ?_) indentless h hfuel
  rw [Shows]
  exact ⟨m, rfl⟩

theorem reads_text (s : List Char) (indentless : Bool) {fuel : Nat}
    (h : ts.map Token.kind = .scalar s (styleOf s) :: kinds) (hfuel : 0 < fuel) :
    ReadsAs (.text s) anchors kinds (readNode handles true indentless ⟨ts, anchors⟩ fuel) := by
  refine reads_scalar (fun m => ?_) indentless h hfuel
  rw [Shows]
  exact ⟨m, rfl⟩

theorem reads_emptySequence (indentless : Bool) {fuel : Nat}
    (h : ts.map Token.kind = .flowSequenceStart :: .flowSequenceEnd :: kinds) (hfuel : 1 < fuel) :
    ReadsAs (.sequence []) anchors kinds (readNode handles true indentless ⟨ts, anchors⟩ fuel) := by
  obtain ⟨a, z, r₁, rfl, hr₁⟩ := exists_token h
  obtain ⟨a', z', r, rfl, hr⟩ := exists_token hr₁
  obtain ⟨fuel, rfl⟩ : ∃ n, fuel = n + 2 := ⟨fuel - 2, by omega⟩
  refine ⟨_, r, readNode_emptySequence true indentless a z a' z' fuel, ?_, hr⟩
  rw [Shows]
  exact ⟨a, [], rfl, by rw [ItemsShow]⟩

theorem reads_emptyMapping (indentless : Bool) {fuel : Nat}
    (h : ts.map Token.kind = .flowMappingStart :: .flowMappingEnd :: kinds) (hfuel : 1 < fuel) :
    ReadsAs (.mapping []) anchors kinds (readNode handles true indentless ⟨ts, anchors⟩ fuel) := by
  obtain ⟨a, z, r₁, rfl, hr₁⟩ := exists_token h
  obtain ⟨a', z', r, rfl, hr⟩ := exists_token hr₁
  obtain ⟨fuel, rfl⟩ : ∃ n, fuel = n + 2 := ⟨fuel - 2, by omega⟩
  refine ⟨_, r, readNode_emptyMapping true indentless a z a' z' fuel, ?_, hr⟩
  rw [Shows]
  exact ⟨a, [], rfl, by rw [EntriesShow]⟩

/-- A block mapping whose entries are read. -/
theorem reads_mapping {es : List (List Char × Block)} (indentless : Bool) {fuel : Nat}
    (h : ts.map Token.kind = .blockMappingStart :: (entriesKinds es ++ [.blockEnd]) ++ kinds)
    (hfuel : 3 * (entriesKinds es).length + 1 < fuel)
    (hentries : ∀ {ts : List Token} {fuel : Nat},
      ts.map Token.kind = entriesKinds es ++ .blockEnd :: kinds → 3 * (entriesKinds es).length < fuel →
        ∃ ns r, readBlockEntries handles ⟨ts, anchors⟩ fuel = (ns, some ⟨r, anchors⟩) ∧
          EntriesShow es ns ∧ r.map Token.kind = kinds) :
    ReadsAs (.mapping es) anchors kinds (readNode handles true indentless ⟨ts, anchors⟩ fuel) := by
  obtain ⟨a, z, r, rfl, hr⟩ := exists_token h
  obtain ⟨fuel, rfl⟩ : ∃ n, fuel = n + 1 := ⟨fuel - 1, by omega⟩
  obtain ⟨ns, r', hread, hshow, hr'⟩ := hentries (by simpa using hr) (show _ < fuel by omega)
  refine ⟨.mapping a .bare ns true, r', ?_, ?_, hr'⟩
  · rw [readNode_blockMapping, hread]
    rfl
  · rw [Shows]
    exact ⟨a, ns, rfl, hshow⟩

mutual

theorem readNode_value : ∀ (v : Block) (kinds : List TokenKind), Follows kinds →
    ∀ {ts : List Token} {fuel : Nat}, ts.map Token.kind = valueKinds v ++ kinds →
      3 * (valueKinds v).length < fuel →
        ReadsAs v anchors kinds (readNode handles true true ⟨ts, anchors⟩ fuel)
  | .word s, _, _, _, _, h, hfuel => by
    rw [valueKinds] at h
    exact reads_word s true h (Nat.zero_lt_of_lt hfuel)
  | .text s, _, _, _, _, h, hfuel => by
    rw [valueKinds] at h
    exact reads_text s true h (Nat.zero_lt_of_lt hfuel)
  | .sequence xs, kinds, hkinds, ts, fuel, h, hfuel => by
    rw [valueKinds] at h hfuel
    cases xs with
    | nil => exact reads_emptySequence true h (Nat.lt_of_le_of_lt (by decide) hfuel)
    | cons x xs =>
      rw [List.isEmpty_cons, if_neg Bool.false_ne_true] at h hfuel
      obtain ⟨fuel, rfl⟩ : ∃ n, fuel = n + 1 := ⟨fuel - 1, by omega⟩
      have hfirst : ts.map Token.kind = .blockEntry :: (markedKinds x ++ itemsKinds xs ++ kinds) := by
        rw [h, itemsKinds]
        rfl
      obtain ⟨ns, r', hread, hshow, hr'⟩ := readIndentlessItems_items (x :: xs) kinds hkinds h
        (show _ ≤ fuel by omega) (by rw [itemsKinds, List.length_cons] at hfuel; omega)
      obtain ⟨a, z, r, rfl, -⟩ := exists_token hfirst
      refine ⟨.sequence a .bare ns true, r', ?_, ?_, hr'⟩
      · rw [readNode_indentless, hread]
        rfl
      · rw [Shows]
        exact ⟨a, ns, rfl, hshow⟩
  | .mapping es, kinds, _, _, _, h, hfuel => by
    rw [valueKinds] at h hfuel
    cases es with
    | nil => exact reads_emptyMapping true h (Nat.lt_of_le_of_lt (by decide) hfuel)
    | cons e es =>
      rw [List.isEmpty_cons, if_neg Bool.false_ne_true] at h hfuel
      refine reads_mapping true h ?_ fun h hfuel => readBlockEntries_entries (e :: es) kinds h hfuel
      simp only [List.length_cons, List.length_append, List.length_nil] at hfuel
      omega

theorem readNode_marked : ∀ (v : Block) (kinds : List TokenKind) (indentless : Bool)
    {ts : List Token} {fuel : Nat}, ts.map Token.kind = markedKinds v ++ kinds →
      3 * (markedKinds v).length < fuel →
        ReadsAs v anchors kinds (readNode handles true indentless ⟨ts, anchors⟩ fuel)
  | .word s, _, indentless, _, _, h, hfuel => by
    rw [markedKinds] at h
    exact reads_word s indentless h (Nat.zero_lt_of_lt hfuel)
  | .text s, _, indentless, _, _, h, hfuel => by
    rw [markedKinds] at h
    exact reads_text s indentless h (Nat.zero_lt_of_lt hfuel)
  | .sequence xs, kinds, indentless, ts, fuel, h, hfuel => by
    rw [markedKinds] at h hfuel
    cases xs with
    | nil => exact reads_emptySequence indentless h (Nat.lt_of_le_of_lt (by decide) hfuel)
    | cons x xs =>
      rw [List.isEmpty_cons, if_neg Bool.false_ne_true] at h hfuel
      simp only [List.length_cons, List.length_append, List.length_nil] at hfuel
      obtain ⟨fuel, rfl⟩ : ∃ n, fuel = n + 1 := ⟨fuel - 1, by omega⟩
      obtain ⟨a, z, r, rfl, hr⟩ := exists_token h
      obtain ⟨ns, r', hread, hshow, hr'⟩ :=
        readBlockItems_items (x :: xs) kinds (by simpa using hr) (show _ < fuel by omega)
      refine ⟨.sequence a .bare ns true, r', ?_, ?_, hr'⟩
      · rw [readNode_blockSequence, hread]
        rfl
      · rw [Shows]
        exact ⟨a, ns, rfl, hshow⟩
  | .mapping es, kinds, indentless, _, _, h, hfuel => by
    rw [markedKinds] at h hfuel
    cases es with
    | nil => exact reads_emptyMapping indentless h (Nat.lt_of_le_of_lt (by decide) hfuel)
    | cons e es =>
      rw [List.isEmpty_cons, if_neg Bool.false_ne_true] at h hfuel
      refine reads_mapping indentless h ?_ fun h hfuel =>
        readBlockEntries_entries (e :: es) kinds h hfuel
      simp only [List.length_cons, List.length_append, List.length_nil] at hfuel
      omega

theorem readBlockItems_items : ∀ (xs : List Block) (kinds : List TokenKind)
    {ts : List Token} {fuel : Nat}, ts.map Token.kind = itemsKinds xs ++ .blockEnd :: kinds →
      3 * (itemsKinds xs).length < fuel →
        ∃ ns r, readBlockItems handles ⟨ts, anchors⟩ fuel = (ns, some ⟨r, anchors⟩) ∧
          ItemsShow xs ns ∧ r.map Token.kind = kinds
  | [], kinds, ts, fuel, h, hfuel => by
    rw [itemsKinds] at h
    obtain ⟨a, z, r, rfl, hr⟩ := exists_token h
    obtain ⟨fuel, rfl⟩ : ∃ n, fuel = n + 1 := ⟨fuel - 1, by omega⟩
    exact ⟨[], r, readBlockItems_end a z fuel, by rw [ItemsShow], hr⟩
  | x :: xs, kinds, ts, fuel, h, hfuel => by
    rw [itemsKinds] at h hfuel
    simp only [List.length_cons, List.length_append] at hfuel
    simp only [List.cons_append, List.append_assoc] at h
    obtain ⟨a, z, r, rfl, hr⟩ := exists_token h
    obtain ⟨fuel, rfl⟩ : ∃ n, fuel = n + 2 := ⟨fuel - 2, by omega⟩
    obtain ⟨n, ts, hread, hshow, hts⟩ := readNode_marked x _ false hr (show _ < fuel by omega)
    obtain ⟨ns, u, hrest, hshow', hu⟩ :=
      readBlockItems_items xs kinds hts (show _ < fuel + 1 by omega)
    have hnode : readNodeUnless handles [.blockEntry, .blockEnd] true false z ⟨r, anchors⟩ (fuel + 1) =
        readNode handles true false ⟨r, anchors⟩ fuel :=
      readNodeUnless_marked x [.blockEntry, .blockEnd] (by simp) false z hr fuel
    refine ⟨n :: ns, u, ?_, ?_, hu⟩
    · rw [readBlockItems_cons a z (hnode.trans hread), hrest]
    · rw [ItemsShow]
      exact ⟨n, ns, rfl, hshow, hshow'⟩

theorem readIndentlessItems_items : ∀ (xs : List Block) (kinds : List TokenKind), Follows kinds →
    ∀ {ts : List Token} {fuel : Nat}, ts.map Token.kind = itemsKinds xs ++ kinds →
      3 * (itemsKinds xs).length ≤ fuel → 0 < fuel →
        ∃ ns r, readIndentlessItems handles ⟨ts, anchors⟩ fuel = (ns, some ⟨r, anchors⟩) ∧
          ItemsShow xs ns ∧ r.map Token.kind = kinds
  | [], kinds, hkinds, ts, fuel, h, _, hfuel => by
    rw [itemsKinds, List.nil_append] at h
    obtain ⟨k, r, hk, hentry⟩ := hkinds
    obtain ⟨fuel, rfl⟩ : ∃ n, fuel = n + 1 := ⟨fuel - 1, by omega⟩
    exact ⟨[], ts, readIndentlessItems_end (h.trans hk) hentry fuel, by rw [ItemsShow], h⟩
  | x :: xs, kinds, hkinds, ts, fuel, h, hfuel, _ => by
    rw [itemsKinds] at h hfuel
    simp only [List.length_cons, List.length_append] at hfuel
    simp only [List.cons_append, List.append_assoc] at h
    obtain ⟨a, z, r, rfl, hr⟩ := exists_token h
    obtain ⟨fuel, rfl⟩ : ∃ n, fuel = n + 2 := ⟨fuel - 2, by omega⟩
    obtain ⟨n, ts, hread, hshow, hts⟩ := readNode_marked x _ false hr (show _ < fuel by omega)
    obtain ⟨ns, u, hrest, hshow', hu⟩ :=
      readIndentlessItems_items xs kinds hkinds hts (show _ ≤ fuel + 1 by omega) (Nat.succ_pos fuel)
    have hnode : readNodeUnless handles [.blockEntry, .key, .value, .blockEnd] true false z
        ⟨r, anchors⟩ (fuel + 1) = readNode handles true false ⟨r, anchors⟩ fuel :=
      readNodeUnless_marked x [.blockEntry, .key, .value, .blockEnd] (by simp) false z hr fuel
    refine ⟨n :: ns, u, ?_, ?_, hu⟩
    · rw [readIndentlessItems_cons a z (hnode.trans hread), hrest]
    · rw [ItemsShow]
      exact ⟨n, ns, rfl, hshow, hshow'⟩

theorem readBlockEntries_entries : ∀ (es : List (List Char × Block)) (kinds : List TokenKind)
    {ts : List Token} {fuel : Nat}, ts.map Token.kind = entriesKinds es ++ .blockEnd :: kinds →
      3 * (entriesKinds es).length < fuel →
        ∃ ns r, readBlockEntries handles ⟨ts, anchors⟩ fuel = (ns, some ⟨r, anchors⟩) ∧
          EntriesShow es ns ∧ r.map Token.kind = kinds
  | [], kinds, ts, fuel, h, hfuel => by
    rw [entriesKinds] at h
    obtain ⟨a, z, r, rfl, hr⟩ := exists_token h
    obtain ⟨fuel, rfl⟩ : ∃ n, fuel = n + 1 := ⟨fuel - 1, by omega⟩
    exact ⟨[], r, readBlockEntries_end a z fuel, by rw [EntriesShow], hr⟩
  | (k, v) :: es, kinds, ts, fuel, h, hfuel => by
    rw [entriesKinds] at h hfuel
    simp only [List.length_cons, List.length_append] at hfuel
    simp only [List.cons_append, List.append_assoc] at h
    obtain ⟨a, z, r₁, rfl, hr₁⟩ := exists_token h
    obtain ⟨a', z', r₂, rfl, hr₂⟩ := exists_token hr₁
    obtain ⟨a'', z'', r, rfl, hr⟩ := exists_token hr₂
    obtain ⟨fuel, rfl⟩ : ∃ n, fuel = n + 3 := ⟨fuel - 3, by omega⟩
    have hvalue : ReadsAs v anchors (entriesKinds es ++ .blockEnd :: kinds)
        (readNodeUnless handles [.key, .value, .blockEnd] true true z'' ⟨r, anchors⟩ (fuel + 1)) := by
      by_cases hk : isSimpleKey k = true
      · rw [if_pos hk] at hr hfuel
        rw [readNodeUnless_value v z'' hr]
        exact readNode_value v _ (follows_entries es kinds) hr (by omega)
      · rw [if_neg hk] at hr hfuel
        rw [readNodeUnless_marked v [.key, .value, .blockEnd] (by simp) true z'' hr]
        exact readNode_marked v _ true hr (by omega)
    obtain ⟨n, ts, hread, hshow, hts⟩ := hvalue
    obtain ⟨ns, u, hrest, hshow', hu⟩ :=
      readBlockEntries_entries es kinds hts (show _ < fuel + 2 by omega)
    refine ⟨.scalar a' .bare (styleOf k) k :: n :: ns, u, ?_, ?_, hu⟩
    · rw [readBlockEntries_cons a z a' z' a'' z'' k (styleOf k) hread, hrest]
    · rw [EntriesShow]
      exact ⟨a', n, ns, rfl, hshow, hshow'⟩

end

/-! ## Documents -/

/-- A document without directives and marker that is a block mapping. -/
theorem readDocument_entries {es : List (List Char × Block)}
    (h : ts.map Token.kind = .blockMappingStart :: (entriesKinds es ++ [.blockEnd, .streamEnd])) :
    ∃ n, readDocument ts = ⟨some n, true⟩ ∧ (Block.mapping es).Shows n := by
  have hlength : ts.length = (entriesKinds es).length + 3 := by
    simpa using congrArg List.length h
  obtain ⟨a, z, r, rfl, hr⟩ := exists_token h
  rw [List.length_cons] at hlength
  obtain ⟨ns, u, hread, hshow, hu⟩ : ∃ ns u,
      readBlockEntries standardHandles ⟨r, []⟩ (4 * (r.length + 1) + 7) = (ns, some ⟨u, []⟩) ∧
        EntriesShow es ns ∧ u.map Token.kind = [.streamEnd] :=
    readBlockEntries_entries es [.streamEnd] hr (by omega)
  obtain ⟨a', z', u, rfl, -⟩ := exists_token hu
  refine ⟨.mapping a .bare ns true, ?_, ?_⟩
  · have hnode : readDocument (⟨.blockMappingStart, a, z⟩ :: r) = finishDocument
        (readNode standardHandles true false ⟨⟨.blockMappingStart, a, z⟩ :: r, []⟩
          (4 * (r.length + 1) + 7 + 1)) := rfl
    rw [hnode, readNode_blockMapping, hread]
    rfl
  · rw [Shows]
    exact ⟨a, ns, rfl, hshow⟩

/-- A written document is read as a sound one whose root shows its entries. -/
theorem parse_writeDocument {es : List (List Char × Block)} (hne : es ≠ [])
    (h : EntriesHavePlainWords es) :
    ∃ n, parse (writeDocument es) = ⟨some n, true⟩ ∧ (Block.mapping es).Shows n := by
  have htext : (writeDocument es).toList = writeEntries 0 es := by
    rw [writeDocument, String.toList_ofList]
  rw [parse, htext]
  exact readDocument_entries (map_kind_tokens hne h)

end MarketingForm.Yaml
