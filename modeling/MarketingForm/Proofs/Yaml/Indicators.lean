import MarketingForm.Proofs.Yaml.Gap
import MarketingForm.Proofs.Yaml.Release
import MarketingForm.Yaml.Block

/-!
# Between two tokens

Outside flow collections the scanner is known by the text that follows, the column it is in, the
indentations of the open blocks and the kinds of the tokens so far (`Stands`). Before a token it still
has to skip to it and to end the blocks that lie deeper (`At`). Here are the steps over indicators; each
says how the blocks and the tokens go on.
-/

namespace MarketingForm.Yaml

open Block (pad)

/-- A text that is over or starts with what can start a token. -/
def Starts (r : List Char) : Prop :=
  ∀ c ∈ r.head?, isGap c = false ∧ isBreak c = false ∧ c ≠ '#' ∧ c ≠ '\uFEFF'

theorem Starts.solid {r : List Char} (h : Starts r) : Solid r := fun c hc =>
  ⟨(h c hc).1, (h c hc).2.1⟩

namespace Scanner

/-! ## Skipping to a token -/

theorem span_pad (b : Bool) (m : Mark) (k : Nat) {r : List Char} (hr : Starts r) :
    (Cursor.span ⟨m, pad k ++ r⟩ fun d => d == ' ' || ((false || !b) && d == '\t')).2 =
      ⟨m.advance k, r⟩ := by
  rw [Cursor.span_append (w := pad k)]
  · simp [pad]
  · intro c hc
    rw [List.eq_of_mem_replicate hc]
    rfl
  · intro c hc
    have hgap := (hr c hc).1
    rw [isGap, Bool.or_eq_false_iff] at hgap
    simp [hgap.1, hgap.2]

theorem skipFrom_pad (b : Bool) (m : Mark) (k : Nat) {r : List Char} (hr : Starts r) (fuel : Nat) :
    skipFrom false b ⟨m, pad k ++ r⟩ (fuel + 1) = (b, ⟨m.advance k, r⟩) := by
  have hmark : (pad k ++ r).head? ≠ some '\uFEFF' := by
    cases k with
    | zero => exact fun h => (hr _ h).2.2.2 rfl
    | succ k => simp [pad, List.replicate_succ]
  have hcomment : r.head? ≠ some '#' := fun h => (hr _ h).2.2.1 rfl
  have hbreak : r.head?.any isBreak = false := by
    cases r with
    | nil => rfl
    | cons c r => exact (hr c rfl).2.1
  rw [skipFrom]
  simp only [hmark, and_false, ↓reduceIte, span_pad b m k hr, hcomment, hbreak, Bool.false_eq_true]

theorem skipFrom_feed (b : Bool) (m : Mark) (k : Nat) {r : List Char} (hr : Starts r) (fuel : Nat) :
    skipFrom false b ⟨m, '\n' :: (pad k ++ r)⟩ (fuel + 2) =
      (true, ⟨(m.nextLine 1).advance k, r⟩) := by
  have hspan : (Cursor.span ⟨m, '\n' :: (pad k ++ r)⟩
      fun d => d == ' ' || ((false || !b) && d == '\t')).2 = ⟨m, '\n' :: (pad k ++ r)⟩ := by
    have hspace : ('\n' == ' ') = false := by decide
    have htab : ('\n' == '\t') = false := by decide
    simp [Cursor.span, hspace, htab]
  have hmark : ¬ (m.column = 0 ∧ ('\n' :: (pad k ++ r)).head? = some '\uFEFF') := by
    simp
  have hcomment : ¬ ('\n' :: (pad k ++ r)).head? = some '#' := by
    simp
  have hbreak : ('\n' :: (pad k ++ r)).head?.any isBreak = true := rfl
  rw [skipFrom]
  simp only [hmark, ↓reduceIte, hspan, hcomment, hbreak]
  rw [Cursor.readBreak_of_isSoftBreak (.inl rfl), skipFrom_pad _ _ k hr]
  simp

/-- Behind a value: before the end of its line, or already at the next token. -/
inductive LineEnd (line column : Nat) (r : List Char) : Bool → Cursor → Prop
  | before {m : Mark} (b : Bool) (h : line ≤ m.line) :
      LineEnd line column r b ⟨m, '\n' :: (pad column ++ r)⟩
  | behind {m : Mark} (h : line < m.line) (hm : m.column = column) :
      LineEnd line column r true ⟨m, r⟩

theorem LineEnd.of_rest {line column : Nat} {r : List Char} {c : Cursor}
    (hc : c.rest = '\n' :: (pad column ++ r)) (h : line ≤ c.mark.line) (b : Bool) :
    LineEnd line column r b c := by
  obtain ⟨m, rest⟩ := c
  obtain rfl : rest = '\n' :: (pad column ++ r) := hc
  exact .before b h

theorem LineEnd.skipFrom {line column : Nat} {r : List Char} {b : Bool} {c : Cursor}
    (h : LineEnd line column r b c) (hr : Starts r) :
    ∃ m, Scanner.skipFrom false b c (c.rest.length + 1) = (true, ⟨m, r⟩) ∧ m.column = column ∧
      line < m.line := by
  cases h with
  | @before m b h =>
    refine ⟨_, skipFrom_feed b m column hr _, ?_, Nat.lt_succ_of_le h⟩
    simp [Mark.nextLine, Mark.advance]
  | @behind m h hm => exact ⟨m, skipFrom_pad true m 0 hr r.length, hm, h⟩

/-! ## Stands -/

/-- The scanner outside flow collections, where no key is open. -/
structure Stands (s : Scanner) (allowed : Bool) (column : Nat) (rest : List Char) (stack : List Int)
    (out : List TokenKind) : Prop where
  finished : s.finished = false
  allowed : s.keyAllowed = allowed
  column : s.mark.column = column
  rest : s.cursor.rest = rest
  keyPlace : s.keyPlace = none
  outer : s.outer = []
  stack : s.indent :: s.indents = stack
  out : s.held.map Token.kind = out

/-- The scanner before a token, where the blocks that lie deeper than the token still have to end. -/
def At (s : Scanner) (allowed : Bool) (column : Nat) (rest : List Char) (stack : List Int)
    (out : List TokenKind) : Prop :=
  s.finished = false ∧ ∃ u deep kinds, s.skipToToken.dropStaleKeys = some u ∧
    Stands u allowed column rest (deep ++ stack) kinds ∧ (∀ d ∈ deep, (column : Int) < d) ∧
    out = kinds ++ deep.map fun _ => .blockEnd

theorem Stands.inFlow {s : Scanner} {b : Bool} {column : Nat} {rest : List Char} {stack : List Int}
    {out : List TokenKind} (h : Stands s b column rest stack out) : s.inFlow = false := by
  rw [Scanner.inFlow, h.outer]
  rfl

variable {s : Scanner} {b : Bool} {column n : Nat} {r : List Char} {stack : List Int}
  {out : List TokenKind}

theorem Stands.cursor (h : Stands s b column r stack out) : s.cursor = ⟨s.mark, r⟩ := by
  rw [← h.rest]
  rfl

theorem skipToToken_eq (hflow : s.inFlow = false) {b' : Bool} {c : Cursor}
    (h : skipFrom false s.keyAllowed s.cursor (s.cursor.rest.length + 1) = (b', c)) :
    s.skipToToken = { s with cursor := c, keyAllowed := b' } := by
  unfold skipToToken
  rw [hflow, h]

theorem dropStale_fresh {m : Mark} {k : Option KeyPlace} (h : ∀ p, some p = k → isStale m p = false) :
    dropStale m k = some k := by
  cases k with
  | none => rfl
  | some p =>
    rw [dropStale_some, h p rfl]
    rfl

theorem mapM_dropStale_fresh {m : Mark} {ks : List (Option KeyPlace)}
    (h : ∀ k, some k ∈ ks → isStale m k = false) : ks.mapM (dropStale m) = some ks := by
  induction ks with
  | nil => rfl
  | cons k ks ih =>
    rw [List.mapM_cons, dropStale_fresh fun p hp => h p (hp ▸ List.mem_cons_self),
      ih fun k hk => h k (List.mem_cons_of_mem _ hk)]
    rfl

/-- Keys that have not run too far are kept. -/
theorem dropStaleKeys_fresh (h : ∀ k, some k ∈ s.keys → isStale s.mark k = false) :
    s.dropStaleKeys = some s :=
  dropStaleKeys_eq_some.2 ⟨s.outer, s.keyPlace,
    mapM_dropStale_fresh fun k hk => h k (List.mem_cons_of_mem _ hk),
    dropStale_fresh fun k hk => h k (hk ▸ List.mem_cons_self), rfl⟩

/-- A key that is not needed is given up on the next line. -/
theorem dropStaleKeys_idle (houter : s.outer = [])
    (hkey : ∀ k ∈ s.keyPlace, k.required = false ∧ k.mark.line < s.mark.line) :
    s.dropStaleKeys = some { s with keyPlace := none } := by
  have hdrop : dropStale s.mark s.keyPlace = some none := by
    cases hk : s.keyPlace with
    | none => rfl
    | some k =>
      obtain ⟨hrequired, hline⟩ := hkey k hk
      rw [dropStale_some, hrequired, if_pos (by simp [isStale, hline])]
      rfl
  refine dropStaleKeys_eq_some.2 ⟨[], none, by rw [houter]; rfl, hdrop, ?_⟩
  rw [← houter]

/-- A token at its end of the line leads to the next token. -/
theorem at_of_lineEnd {line : Nat} (hfinished : s.finished = false) (houter : s.outer = [])
    (hkey : ∀ k ∈ s.keyPlace, k.required = false ∧ k.mark.line ≤ line)
    (hcursor : LineEnd line column r s.keyAllowed s.cursor) (hr : Starts r)
    (hstack : s.indent :: s.indents = stack) (hout : s.held.map Token.kind = out) :
    At s true column r stack out := by
  obtain ⟨m, hskip, hcolumn, hline⟩ := hcursor.skipFrom hr
  have hflow : s.inFlow = false := by
    rw [inFlow, houter]
    rfl
  have hdrop := dropStaleKeys_idle (s := { s with cursor := ⟨m, r⟩, keyAllowed := true }) houter
    fun k hk => ⟨(hkey k hk).1, Nat.lt_of_le_of_lt (hkey k hk).2 hline⟩
  refine ⟨hfinished, { s with cursor := ⟨m, r⟩, keyAllowed := true, keyPlace := none }, [], out, ?_,
    ⟨hfinished, rfl, hcolumn, rfl, rfl, houter, hstack, hout⟩, nofun, by simp⟩
  rw [skipToToken_eq hflow hskip, hdrop]

theorem Stands.at_feed (h : Stands s b n ('\n' :: (pad column ++ r)) stack out) (hr : Starts r) :
    At s true column r stack out := by
  have hend : LineEnd s.mark.line column r s.keyAllowed s.cursor :=
    .of_rest h.rest (Nat.le_refl _) _
  exact at_of_lineEnd h.finished h.outer (by simp [h.keyPlace]) hend hr h.stack h.out

/-- Spaces may lie before the token. -/
theorem Stands.at_pad {k : Nat} (h : Stands s b n (pad k ++ r) stack out) (hr : Starts r) :
    At s b (n + k) r stack out := by
  have hskip : skipFrom false s.keyAllowed s.cursor (s.cursor.rest.length + 1) =
      (b, ⟨s.mark.advance k, r⟩) := by
    rw [h.allowed, h.cursor]
    exact skipFrom_pad b s.mark k hr _
  have hdrop := dropStaleKeys_idle (s := { s with cursor := ⟨s.mark.advance k, r⟩, keyAllowed := b })
    h.outer (by simp [h.keyPlace])
  refine ⟨h.finished, { s with cursor := ⟨s.mark.advance k, r⟩, keyAllowed := b, keyPlace := none },
    [], out, ?_, ⟨h.finished, rfl, ?_, rfl, rfl, h.outer, h.stack, h.out⟩, nofun, by simp⟩
  · rw [skipToToken_eq h.inFlow hskip, hdrop]
  · rw [← h.column]
    rfl

theorem at_start {text : List Char} (h : Starts text) : At (.start text) true 0 text [-1] [] :=
  Stands.at_pad (k := 0) (b := true) (n := 0) ⟨rfl, rfl, rfl, rfl, rfl, rfl, rfl, rfl⟩ h

/-! ## Blocks that end -/

theorem closeDeeper_eq (column : Int) (m : Mark) {deep : List Int} (hdeep : ∀ d ∈ deep, column < d)
    {top : Int} (htop : top ≤ column) (stack : List Int) {indent : Int} {indents : List Int}
    (h : indent :: indents = deep ++ top :: stack) :
    closeDeeper column m indent indents = (deep.map fun _ => ⟨.blockEnd, m, m⟩, top, stack) := by
  induction deep generalizing indent indents with
  | nil =>
    obtain ⟨rfl, rfl⟩ := List.cons.inj h
    cases indents with
    | nil => rfl
    | cons i r => rw [closeDeeper, if_neg (Int.not_lt.2 htop)]; rfl
  | cons d deep ih =>
    obtain ⟨hd, hindents⟩ := List.cons.inj h
    subst hd
    have hlt := hdeep indent List.mem_cons_self
    obtain ⟨i, r, rfl⟩ := List.exists_cons_of_ne_nil (show indents ≠ [] by simp [hindents])
    have hrest := ih (fun e he => hdeep e (List.mem_cons_of_mem _ he)) hindents
    rw [closeDeeper, if_pos hlt, hrest]
    rfl

theorem closeBlocks_of_le (hflow : s.inFlow = false) {n : Int} (h : s.indent ≤ n) :
    s.closeBlocks n = s := by
  have hclose : closeDeeper n s.mark s.indent s.indents = ([], s.indent, s.indents) := by
    cases hindents : s.indents with
    | nil => rfl
    | cons i r => rw [closeDeeper, if_neg (Int.not_lt.2 h)]
  unfold Scanner.closeBlocks
  rw [hflow, if_neg Bool.false_ne_true, hclose]
  show { s with held := s.held ++ [] } = s
  rw [List.append_nil]

theorem Stands.closeBlocks {deep : List Int} {top : Int}
    (h : Stands s b column r (deep ++ top :: stack) out) (n : Int) (hdeep : ∀ d ∈ deep, n < d) (htop : top ≤ n) :
    Stands (s.closeBlocks n) b column r (top :: stack) (out ++ deep.map fun _ => .blockEnd) := by
  have hclose := closeDeeper_eq n s.mark hdeep htop stack h.stack
  unfold Scanner.closeBlocks
  rw [h.inFlow, if_neg Bool.false_ne_true, hclose]
  exact ⟨h.finished, h.allowed, h.column, h.rest, h.keyPlace, h.outer, rfl, by simp [h.out]⟩

/-- Scans the token that starts here, or ends the text. -/
def scanNext (s : Scanner) : Option Scanner :=
  match s.cursor.rest with
  | [] => s.endText
  | c :: r => s.scanToken c r

theorem Stands.scanNext_cons {c : Char} (h : Stands s b column (c :: r) stack out) :
    s.scanNext = s.scanToken c r := by
  rw [scanNext, h.rest]

/-- Where nothing is left to do before the next token, it is scanned at once. -/
theorem fetch_eq_scanNext (hskip : s.skipToToken = s) (hdrop : s.dropStaleKeys = some s)
    (hclose : s.closeBlocks s.mark.column = s) : s.fetch = s.scanNext := by
  unfold Scanner.fetch
  rw [hskip, hdrop]
  show (s.closeBlocks s.mark.column).scanNext = _
  rw [hclose]

/-- A step to the next token ends the blocks that lie deeper. -/
theorem At.fetch {top : Int} (h : At s b column r (top :: stack) out) (htop : top ≤ column) :
    ∃ u, Stands u b column r (top :: stack) out ∧ s.fetch = u.scanNext := by
  obtain ⟨-, u, deep, kinds, hu, hstands, hdeep, rfl⟩ := h
  have hclosed := hstands.closeBlocks (column : Int) hdeep htop
  refine ⟨u.closeBlocks column, hclosed, ?_⟩
  unfold Scanner.fetch
  rw [hu, ← hstands.column]
  rfl

/-- A block that the next token does not lie in ends before it. -/
theorem At.pop {top : Int} (h : At s b column r (top :: stack) out) (htop : (column : Int) < top) :
    At s b column r stack (out ++ [.blockEnd]) := by
  obtain ⟨hfinished, u, deep, kinds, hu, hstands, hdeep, rfl⟩ := h
  refine ⟨hfinished, u, deep ++ [top], kinds, hu, by simpa using hstands, ?_, by simp⟩
  intro d hd
  rcases List.mem_append.1 hd with hd | hd
  · exact hdeep d hd
  · rwa [List.mem_singleton.1 hd]

/-! ## Blocks that start -/

/-- The open blocks with one at a column, which may be open already. -/
def nest (column : Nat) : List Int → List Int
  | [] => []
  | top :: stack => if (column : Int) ≤ top then top :: stack else (column : Int) :: top :: stack

/-- The token of a block at a column that is not open yet. -/
def opening (kind : TokenKind) (column : Nat) : List Int → List TokenKind
  | [] => []
  | top :: _ => if (column : Int) ≤ top then [] else [kind]

@[simp] theorem nest_same (n : Nat) (stack : List Int) : nest n ((n : Int) :: stack) = (n : Int) :: stack := by
  simp [nest]

@[simp] theorem opening_same (kind : TokenKind) (n : Nat) (stack : List Int) :
    opening kind n ((n : Int) :: stack) = [] := by
  simp [opening]

theorem nest_deeper {n : Nat} {top : Int} (h : top < n) (stack : List Int) :
    nest n (top :: stack) = (n : Int) :: top :: stack := by
  simp [nest, h]

theorem opening_deeper {n : Nat} {top : Int} (h : top < n) (kind : TokenKind) (stack : List Int) :
    opening kind n (top :: stack) = [kind] := by
  simp [opening, h]

theorem Stands.startBlock (h : Stands s true column r stack out) (kind : TokenKind) :
    ∃ u, s.startBlock kind = some u ∧
      Stands u true column r (nest column stack) (out ++ opening kind column stack) := by
  have hstart : s.startBlock kind = some (s.openBlock column none kind s.mark) := by
    unfold Scanner.startBlock
    rw [h.inFlow, h.allowed, h.column]
    rfl
  refine ⟨_, hstart, ?_⟩
  unfold openBlock
  rw [h.inFlow, Bool.false_or, ← h.stack]
  simp only [nest, opening, decide_eq_true_eq]
  split
  · exact ⟨h.finished, h.allowed, h.column, h.rest, h.keyPlace, h.outer, rfl, by simp [h.out]⟩
  · exact ⟨h.finished, h.allowed, h.column, h.rest, h.keyPlace, h.outer, rfl, by
      simp [push, h.out]⟩

theorem Stands.removeKey (h : Stands s b column r stack out) : s.removeKey = some s := by
  unfold Scanner.removeKey
  rw [h.keyPlace]

theorem Stands.indicator {c : Char} (h : Stands s b column (c :: r) stack out) (allowed : Bool)
    (kind : TokenKind) : Stands (Scanner.indicator { s with keyAllowed := allowed } kind 1) allowed
      (column + 1) r stack (out ++ [kind]) where
  finished := h.finished
  allowed := rfl
  column := by
    rw [← h.column]
    rfl
  rest := by simp [Scanner.indicator, Cursor.skip, h.rest]
  keyPlace := h.keyPlace
  outer := h.outer
  stack := h.stack
  out := by simp [Scanner.indicator, push, h.out]

/-! ## Indicators -/

/-- No line starts with a document marker where a space follows the first character. -/
theorem Stands.not_atDocumentMarker {c : Char} {x : List Char}
    (h : Stands s b column (c :: ' ' :: x) stack out) : s.cursor.atDocumentMarker = false := by
  unfold Cursor.atDocumentMarker
  rw [h.rest]
  split
  · rename_i heq
    simp at heq
  · rename_i heq
    simp at heq
  · simp

theorem Stands.scanToken_dash {x : List Char} (h : Stands s b column ('-' :: ' ' :: x) stack out) :
    s.scanToken '-' (' ' :: x) = s.scanBlockEntry := by
  unfold scanToken
  simp [h.not_atDocumentMarker, endsWord, isGap]

theorem Stands.scanToken_question {x : List Char}
    (h : Stands s b column ('?' :: ' ' :: x) stack out) :
    s.scanToken '?' (' ' :: x) = s.scanKey := by
  unfold scanToken
  simp [h.not_atDocumentMarker, endsWord, isGap]

theorem scanToken_colon {x : List Char} (hrest : s.cursor.rest = ':' :: x)
    (hx : endsWord x = true) : s.scanToken ':' x = s.scanValue := by
  have hmarker : s.cursor.atDocumentMarker = false := by
    unfold Cursor.atDocumentMarker
    rw [hrest]
    simp
  unfold scanToken
  simp [hmarker, hx]

variable {x : List Char} {top : Int}

/-- An item starts; its sequence starts with it unless it is open. -/
theorem At.item (h : At s true column ('-' :: ' ' :: x) (top :: stack) out) (htop : top ≤ column) :
    ∃ u, Steps s 1 u ∧ Stands u true (column + 1) (' ' :: x) (nest column (top :: stack))
      (out ++ opening .blockSequenceStart column (top :: stack) ++ [.blockEntry]) := by
  obtain ⟨u, hu, hfetch⟩ := h.fetch htop
  obtain ⟨v, hv, hstands⟩ := hu.startBlock .blockSequenceStart
  refine ⟨_, .single h.1 ?_, hstands.indicator true .blockEntry⟩
  rw [hfetch, hu.scanNext_cons, hu.scanToken_dash, scanBlockEntry_eq, hv, Option.bind_some,
    hstands.removeKey, Option.bind_some]

/-- A marked key starts; its mapping starts with it unless it is open. -/
theorem At.markedKey (h : At s true column ('?' :: ' ' :: x) (top :: stack) out)
    (htop : top ≤ column) :
    ∃ u, Steps s 1 u ∧ Stands u true (column + 1) (' ' :: x) (nest column (top :: stack))
      (out ++ opening .blockMappingStart column (top :: stack) ++ [.key]) := by
  obtain ⟨u, hu, hfetch⟩ := h.fetch htop
  obtain ⟨v, hv, hstands⟩ := hu.startBlock .blockMappingStart
  refine ⟨_, .single h.1 ?_, hstands.indicator true .key⟩
  rw [hfetch, hu.scanNext_cons, hu.scanToken_question, scanKey_eq, hv, Option.bind_some,
    hstands.removeKey, Option.bind_some, hstands.inFlow]
  rfl

/-- The value of a marked key starts. -/
theorem At.markedValue (h : At s true column (':' :: ' ' :: x) ((column : Int) :: stack) out) :
    ∃ u, Steps s 1 u ∧
      Stands u true (column + 1) (' ' :: x) ((column : Int) :: stack) (out ++ [.value]) := by
  obtain ⟨u, hu, hfetch⟩ := h.fetch (Int.le_refl _)
  obtain ⟨v, hv, hstands⟩ := hu.startBlock .blockMappingStart
  rw [nest_same, opening_same, List.append_nil] at hstands
  refine ⟨_, .single h.1 ?_, hstands.indicator true .value⟩
  rw [hfetch, hu.scanNext_cons, scanToken_colon hu.rest rfl, scanValue_of_no_key hu.keyPlace, hv,
    Option.bind_some, hstands.inFlow]
  rfl

/-- The text ends, and with it the last block. -/
theorem At.finish (h : At s true 0 [] [0, -1] out) : ∃ u, Steps s 1 u ∧ u.finished = true ∧
    u.keyPlace = none ∧ u.outer = [] ∧
      u.held.map Token.kind = out ++ [.blockEnd, .streamEnd] := by
  obtain ⟨u, hu, hfetch⟩ := h.fetch (Int.le_refl _)
  have hnext : u.scanNext = u.endText := by
    rw [scanNext, hu.rest]
  have hcursor : Stands { u with cursor := ⟨u.mark, []⟩ } true 0 [] [0, -1] out :=
    ⟨hu.finished, hu.allowed, hu.column, rfl, hu.keyPlace, hu.outer, hu.stack, hu.out⟩
  have hstack : ([0, -1] : List Int) = [0] ++ -1 :: [] := rfl
  rw [hstack] at hcursor
  have hclosed := hcursor.closeBlocks (-1) (by decide) (by decide)
  refine ⟨{ Scanner.push (Scanner.closeBlocks { u with cursor := ⟨u.mark, []⟩ } (-1)) .streamEnd
    u.mark u.mark with keyAllowed := false, finished := true }, .single h.1 ?_, rfl,
    hclosed.keyPlace, hclosed.outer, ?_⟩
  · rw [hfetch, hnext, endText, if_pos hu.column, hclosed.removeKey]
    rfl
  · simp [push, hclosed.out]

/-! ## Tokens at the end of a line -/

/-- The place of a key that is not needed. -/
def freePlace (s : Scanner) : KeyPlace := ⟨s.released + s.held.length, s.mark, false⟩

/-- No key is needed at a token that lies deeper than the current block. -/
theorem Stands.saveKey (h : Stands s b column r ((n : Int) :: stack) out) (hn : n < column) :
    ∃ k, s.saveKey = some { s with keyPlace := k } ∧ ∀ p ∈ k, p = s.freePlace := by
  cases b with
  | false =>
    have hsame : { s with keyPlace := none } = s := by rw [← h.keyPlace]
    refine ⟨none, ?_, nofun⟩
    rw [hsame, Scanner.saveKey, if_neg (by simp [h.allowed])]
  | true =>
    have hrequired : (!s.inFlow && s.indent == (s.mark.column : Int)) = false := by
      have hindent : s.indent = n := (List.cons.inj h.stack).1
      rw [hindent, h.column, h.inFlow, Bool.not_false, Bool.true_and, beq_eq_false_iff_ne]
      omega
    refine ⟨some s.freePlace, ?_, fun p hp => (Option.some.inj hp).symm⟩
    rw [Scanner.saveKey, if_pos h.allowed, hrequired, h.removeKey]
    rfl

variable {column' : Nat} {x : List Char}

/-- A token has been read up to the end of its line. -/
theorem Stands.at_scanned (h : Stands s b column r ((n : Int) :: stack) out)
    {k : Option KeyPlace} (hk : ∀ p ∈ k, p = s.freePlace) {c : Cursor} {allowed : Bool}
    (hend : LineEnd s.mark.line column' x allowed c) (hx : Starts x) (kind : TokenKind) (stop : Mark) :
    At { Scanner.push { s with keyPlace := k } kind s.mark stop with
      cursor := c, keyAllowed := allowed } true column' x ((n : Int) :: stack) (out ++ [kind]) := by
  refine at_of_lineEnd h.finished h.outer (fun p hp => ?_) hend hx h.stack ?_
  · rw [hk p hp]
    exact ⟨rfl, Nat.le_refl _⟩
  · simp [push, h.out]

/-- The scanner behind the opening bracket of a flow collection. -/
def inBrackets (s : Scanner) (kind : TokenKind) (k : Option KeyPlace) : Scanner :=
  { Scanner.indicator { s with keyPlace := k } kind 1 with
    outer := [k], keyPlace := none, keyAllowed := true }

theorem fetch_inBrackets {k : Option KeyPlace} (hk : ∀ p ∈ k, p = s.freePlace) (kind : TokenKind)
    {o c : Char} (hrest : s.cursor.rest = o :: c :: x) (hc : c = ']' ∨ c = '\x7d') :
    (s.inBrackets kind k).fetch = (s.inBrackets kind k).scanToken c x := by
  have hcursor : (s.inBrackets kind k).cursor = ⟨s.mark.advance 1, c :: x⟩ := by
    simp [inBrackets, Scanner.indicator, Cursor.skip, hrest, mark]
  have hskip : skipFrom true true ⟨s.mark.advance 1, c :: x⟩ ((c :: x).length + 1) =
      (true, ⟨s.mark.advance 1, c :: x⟩) := by
    have hcolumn : (s.mark.advance 1).column ≠ 0 := Nat.succ_ne_zero _
    rcases hc with rfl | rfl <;>
      simp [skipFrom, hcolumn, Cursor.span, isBreak]
  have hskipped : (s.inBrackets kind k).skipToToken = s.inBrackets kind k := by
    unfold skipToToken
    rw [hcursor]
    show { s.inBrackets kind k with
      cursor := (skipFrom true true ⟨s.mark.advance 1, c :: x⟩ ((c :: x).length + 1)).2,
      keyAllowed := (skipFrom true true ⟨s.mark.advance 1, c :: x⟩ ((c :: x).length + 1)).1 } = _
    rw [hskip, ← hcursor]
    rfl
  have hdrop : (s.inBrackets kind k).dropStaleKeys = some (s.inBrackets kind k) := by
    refine dropStaleKeys_fresh fun p hp => ?_
    have hmem : some p ∈ [none, k] := hp
    obtain rfl : k = some p := by simpa [eq_comm] using hmem
    rw [hk p rfl]
    simp [isStale, freePlace, inBrackets, Scanner.indicator, mark, Cursor.skip, Mark.advance]
  rw [fetch_eq_scanNext hskipped hdrop rfl, scanNext, hcursor]

theorem closeFlow_inBrackets (k : Option KeyPlace) (first last : TokenKind) :
    (s.inBrackets first k).closeFlow last = some (Scanner.indicator
      { s.inBrackets first k with keyPlace := k, outer := [], keyAllowed := false } last 1) := rfl

theorem atDocumentMarker_of_column {c : Cursor} (h : 0 < c.mark.column) :
    c.atDocumentMarker = false := not_atDocumentMarker h

/-- An empty collection in brackets is read up to the end of its line. -/
theorem At.empty {o c : Char} {first last : TokenKind}
    (h : At s b column (o :: c :: '\n' :: (pad column' ++ x)) ((n : Int) :: stack) out)
    (hn : n < column) (hc : c = ']' ∨ c = '\x7d')
    (hfirst : ∀ u : Scanner, 0 < u.mark.column → ∀ t, u.scanToken o t = u.openFlow first)
    (hlast : ∀ u : Scanner, 0 < u.mark.column → ∀ t, u.scanToken c t = u.closeFlow last)
    (hx : Starts x) :
    ∃ u, Steps s 2 u ∧ At u true column' x ((n : Int) :: stack) (out ++ [first, last]) := by
  obtain ⟨u, hu, hfetch⟩ := h.fetch (Int.le_of_lt (Int.ofNat_lt.2 hn))
  obtain ⟨k, hk, hplace⟩ := hu.saveKey hn
  have hcolumn : 0 < u.mark.column := by
    rw [hu.column]
    omega
  have hopen : u.openFlow first = some (u.inBrackets first k) := by
    unfold openFlow
    rw [hk]
    show some { Scanner.indicator { u with keyPlace := k } first 1 with
      outer := k :: u.outer, keyPlace := none, keyAllowed := true } = _
    rw [hu.outer]
    rfl
  have hstep : s.fetch = some (u.inBrackets first k) := by
    rw [hfetch, hu.scanNext_cons, hfirst u hcolumn, hopen]
  have hstep' : (u.inBrackets first k).fetch = some (Scanner.indicator
      { u.inBrackets first k with keyPlace := k, outer := [], keyAllowed := false } last 1) := by
    have hinside : 0 < (u.inBrackets first k).mark.column := Nat.succ_pos _
    rw [fetch_inBrackets hplace first hu.rest hc, hlast _ hinside, closeFlow_inBrackets]
  refine ⟨_, .step h.1 hstep (.single hu.finished hstep'), ?_⟩
  have hend : LineEnd u.mark.line column' x false
      (Scanner.indicator { u.inBrackets first k with
        keyPlace := k, outer := [], keyAllowed := false } last 1).cursor := by
    refine .of_rest ?_ ?_ false
    · simp [inBrackets, Scanner.indicator, Cursor.skip, hu.rest]
    · exact Nat.le_refl u.mark.line
  refine at_of_lineEnd hu.finished rfl (fun p hp => ?_) hend hx hu.stack ?_
  · rw [hplace p hp]
    exact ⟨rfl, Nat.le_refl _⟩
  · simp [inBrackets, Scanner.indicator, push, hu.out]

theorem At.emptySequence
    (h : At s b column ('[' :: ']' :: '\n' :: (pad column' ++ x)) ((n : Int) :: stack) out)
    (hn : n < column) (hx : Starts x) : ∃ u, Steps s 2 u ∧
      At u true column' x ((n : Int) :: stack) (out ++ [.flowSequenceStart, .flowSequenceEnd]) := by
  refine h.empty hn (.inl rfl) (fun u hu t => ?_) (fun u hu t => ?_) hx
  · simp [scanToken, atDocumentMarker_of_column hu]
  · simp [scanToken, atDocumentMarker_of_column hu]

theorem At.emptyMapping
    (h : At s b column ('\x7b' :: '\x7d' :: '\n' :: (pad column' ++ x)) ((n : Int) :: stack) out)
    (hn : n < column) (hx : Starts x) : ∃ u, Steps s 2 u ∧
      At u true column' x ((n : Int) :: stack) (out ++ [.flowMappingStart, .flowMappingEnd]) := by
  refine h.empty hn (.inr rfl) (fun u hu t => ?_) (fun u hu t => ?_) hx
  · simp [scanToken, atDocumentMarker_of_column hu]
  · simp [scanToken, atDocumentMarker_of_column hu]

end Scanner

end MarketingForm.Yaml
