import MarketingForm.Proofs.Yaml.Indicators
import MarketingForm.Proofs.Yaml.Literal
import MarketingForm.Proofs.Yaml.Quoted

/-!
# Scalars in their places

A text is written in a style that it allows (`styleOf_plain`, `styleOf_single`, `styleOf_literal`). As a
value it is read up to the end of its last line (`At.text`), and as a key up to its colon (`At.key`).
-/

namespace MarketingForm.Yaml

open Block (pad endLine)

/-! ## Styles -/

theorem all_isPrintable {s : List Char} (h : needsEscapes s = false) :
    (∀ c ∈ s, isPrintable c = true) ∧ hasSpaceBeforeBreak s = false := by
  rw [needsEscapes, Bool.or_eq_false_iff] at h
  refine ⟨fun c hc => ?_, h.2⟩
  exact List.all_eq_true.1 (by simpa using h.1) c hc

theorem allowsPlain_iff {s : List Char} : allowsPlain s = true ↔ needsEscapes s = false ∧
    s.any isBreak = false ∧ isEdged isSpace s = false ∧ hasIndicator s = false := by
  simp only [allowsPlain, Bool.not_eq_true', Bool.or_eq_false_iff, and_assoc]

theorem isPlain_of_allowsPlain {s : List Char} (h : allowsPlain s = true) : IsPlain s := by
  obtain ⟨hescapes, hbreaks, hedged, hindicator⟩ := allowsPlain_iff.1 h
  rw [isEdged, Bool.or_eq_false_iff] at hedged
  simp only [hasIndicator, Bool.or_eq_false_iff] at hindicator
  obtain ⟨⟨-, hcolons⟩, hcomments⟩ := hindicator
  refine ⟨(all_isPrintable hescapes).1, fun c hc => ?_, hcolons, hcomments, hedged.2⟩
  exact Bool.eq_false_iff.2 fun hbreak =>
    Bool.eq_false_iff.1 hbreaks (List.any_eq_true.2 ⟨c, hc, hbreak⟩)

/-- How a plain scalar may start. -/
structure PlainHead (c : Char) (r : List Char) : Prop where
  chars : "#,[]\x7b\x7d&*!|>'\"%@`".toList.contains c = false
  words : c = '?' ∨ c = '-' ∨ c = ':' → endsWord r = false
  space : isSpace c = false
  dashes : ∀ t, c = '-' → r ≠ '-' :: '-' :: t
  dots : ∀ t, c = '.' → r ≠ '.' :: '.' :: t

theorem plainHead_of_allowsPlain {c : Char} {r : List Char} (h : allowsPlain (c :: r) = true) :
    PlainHead c r := by
  obtain ⟨-, -, hedged, hindicator⟩ := allowsPlain_iff.1 h
  rw [isEdged, Bool.or_eq_false_iff] at hedged
  simp only [hasIndicator, Bool.or_eq_false_iff] at hindicator
  obtain ⟨⟨hstart, hcolons⟩, -⟩ := hindicator
  split at hstart
  · cases hstart
  · cases hstart
  · rename_i d t hdashes hdots heq
    obtain ⟨rfl, rfl⟩ := List.cons.inj heq
    rw [Bool.or_eq_false_iff] at hstart
    refine ⟨hstart.1, ?_, hedged.1, hdashes, hdots⟩
    rintro (rfl | rfl | rfl)
    · simpa using hstart.2
    · simpa using hstart.2
    · exact endsWord_of_hasKeyMark (a := []) hcolons rfl
  · rename_i heq
    cases heq

theorem head_ne_comment {t : List Char} (h : allowsPlain t = true) :
    ∀ c ∈ t.head?, isSpace c = false ∧ c ≠ '#' := by
  intro c hc
  obtain ⟨r, rfl⟩ := List.head?_eq_some_iff.1 hc
  have hhead := plainHead_of_allowsPlain h
  refine ⟨hhead.space, ?_⟩
  rintro rfl
  exact absurd hhead.chars (by decide)

theorem styleOf_plain {s : List Char} (h : styleOf s = .plain) :
    readsAsText s = true ∧ allowsPlain s = true := by
  unfold styleOf at h
  split at h
  · split at h <;> cases h
  · split at h
    · rename_i hplain
      exact (Bool.and_eq_true _ _).mp hplain
    · split at h <;> cases h

theorem styleOf_single {s : List Char} (h : styleOf s = .single) : IsSingle s := by
  unfold styleOf at h
  split at h
  · split at h <;> cases h
  · rename_i hfeeds
    split at h
    · cases h
    · split at h
      · rename_i hsingle
        rw [allowsSingle, Bool.not_eq_true', Bool.or_eq_false_iff] at hsingle
        obtain ⟨hprintable, hbefore⟩ := all_isPrintable hsingle.1
        exact ⟨hprintable, by simpa using hfeeds, hbefore, hsingle.2⟩
      · cases h

theorem styleOf_literal {s : List Char} (h : styleOf s = .literal) :
    (∀ c ∈ s, isPrintable c = true) ∧ s ≠ [] := by
  unfold styleOf at h
  split at h
  · split at h
    · rename_i hliteral
      simp only [allowsLiteral, Bool.not_eq_true', Bool.or_eq_false_iff] at hliteral
      exact ⟨(all_isPrintable hliteral.1.2).1, by simpa using hliteral.1.1⟩
    · cases h
  · split at h
    · cases h
    · split at h <;> cases h

theorem styleOf_ne_folded (s : List Char) : styleOf s ≠ .folded := by
  unfold styleOf
  split
  · split <;> nofun
  · split
    · nofun
    · split <;> nofun

theorem ne_nil_of_readsAsText {s : List Char} (h : readsAsText s = true) : s ≠ [] := by
  rintro rfl
  exact absurd h (by decide)

/-! ## The end of a line -/

theorem endLine_of_last {w : List Char} {c : Char} (hc : isBreak c = false) :
    endLine (w ++ [c]) = w ++ [c] ++ ['\n'] := by
  simp [endLine, hc]

theorem endLine_of_unbroken {w : List Char} (hw : ∀ c ∈ w, isBreak c = false) :
    endLine w = w ++ ['\n'] := by
  rw [endLine_eq, closing_of_line hw]

theorem endLine_quoted (single : Bool) (w : List Char) :
    endLine (quoteMark single :: (w ++ [quoteMark single])) =
      quoteMark single :: (w ++ quoteMark single :: ['\n']) := by
  have hmark : isBreak (quoteMark single) = false := by
    cases single <;> decide
  have := endLine_of_last (w := quoteMark single :: w) hmark
  simpa using this

theorem exists_last_indentLines (indent : Nat) (fresh : Bool) (s : List Char) (d : Char) :
    ∃ x, indentLines indent fresh (s ++ [d]) = x ++ [d] := by
  induction s generalizing fresh with
  | nil =>
    rw [List.nil_append, indentLines]
    split
    · exact ⟨[], rfl⟩
    · exact ⟨_, rfl⟩
  | cons c s ih =>
    obtain ⟨x, hx⟩ := ih true
    obtain ⟨y, hy⟩ := ih false
    rw [List.cons_append, indentLines]
    split
    · exact ⟨c :: x, by rw [hx]; rfl⟩
    · exact ⟨(if fresh then List.replicate indent ' ' else []) ++ c :: y, by rw [hy]; simp⟩

theorem endLine_literal (indent : Nat) {s : List Char} (hs : s ≠ []) :
    endLine (literalHeader s ++ '\n' :: indentLines indent true s) =
      literalHeader s ++ '\n' :: (indentLines indent true s ++ closing s) := by
  obtain ⟨s, d, rfl⟩ := exists_concat hs
  obtain ⟨x, hx⟩ := exists_last_indentLines indent true s d
  have hclosing : closing (literalHeader (s ++ [d]) ++ '\n' :: indentLines indent true (s ++ [d])) =
      closing (s ++ [d]) := by
    have hsplit : literalHeader (s ++ [d]) ++ '\n' :: (x ++ [d]) =
        (literalHeader (s ++ [d]) ++ '\n' :: x) ++ [d] := by simp
    rw [hx, hsplit, closing_append (List.cons_ne_nil d []), closing_append (List.cons_ne_nil d [])]
  rw [endLine_eq, hclosing]
  simp

/-- How a text is spelled in its style. -/
inductive Spelled (indent : Nat) (s : List Char) : List Char → Prop
  | plain (hstyle : styleOf s = .plain) : Spelled indent s s
  | quoted (single : Bool) (hstyle : styleOf s = if single then .single else .double)
      {b : List Char} (hb : Body single s b) :
      Spelled indent s (quoteMark single :: (b ++ [quoteMark single]))
  | literal (hstyle : styleOf s = .literal) :
      Spelled indent s (literalHeader s ++ '\n' :: indentLines (indent + 2) true s)

theorem spelled (indent : Nat) (s : List Char) : Spelled indent s (spell indent s) := by
  unfold spell
  cases hstyle : styleOf s with
  | plain => exact .plain hstyle
  | single =>
    exact .quoted true hstyle (body_single (styleOf_single hstyle) (Nat.succ_pos _))
  | double => exact .quoted false hstyle (body_double s)
  | literal => exact .literal hstyle
  | folded => exact absurd hstyle (styleOf_ne_folded s)

/-- A key without a mark is on one line. -/
theorem spell_key (indent : Nat) {k : List Char} (h : ∀ c ∈ k, isBreak c = false) :
    (styleOf k = .plain ∧ spell indent k = k) ∨
      ∃ single, styleOf k = (if single then .single else .double) ∧
        Body single k (k.flatMap (quoteChar single)) ∧
        spell indent k = quoteMark single :: (k.flatMap (quoteChar single) ++ [quoteMark single]) := by
  unfold spell
  cases hstyle : styleOf k with
  | plain => exact .inl ⟨rfl, rfl⟩
  | single =>
    have hbody := singleBody_unbroken (indent + 2) h []
    simp only [List.append_nil, singleBody, Bool.false_eq_true, ↓reduceIte] at hbody
    refine .inr ⟨true, rfl, ?_, ?_⟩
    · have := body_single (styleOf_single hstyle) (Nat.succ_pos (indent + 1))
      rwa [hbody] at this
    · rw [hbody]
      rfl
  | double => exact .inr ⟨false, rfl, body_double k, rfl⟩
  | literal =>
    have hfeed : '\n' ∈ k := by
      unfold styleOf at hstyle
      split at hstyle
      · rename_i hfeed
        simpa using hfeed
      · split at hstyle
        · cases hstyle
        · split at hstyle <;> cases hstyle
    exact absurd (h '\n' hfeed) (by decide)
  | folded => exact absurd hstyle (styleOf_ne_folded k)

theorem isSimpleKey_iff {k : List Char} : isSimpleKey k = true ↔
    (∀ c ∈ k, isBreak c = false) ∧ Text.utf8Length k ≤ simpleKeyLimit := by
  simp [isSimpleKey]

theorem length_le_utf8Length (s : List Char) : s.length ≤ Text.utf8Length s := by
  induction s with
  | nil => exact Nat.le_refl _
  | cons c s ih =>
    have := c.utf8Size_pos
    rw [List.length_cons, Text.utf8Length]
    omega

namespace Scanner

variable {s : Scanner} {b : Bool} {column n : Nat} {r : List Char} {stack : List Int}
  {out : List TokenKind}

/-! ## Where a scalar starts -/

theorem scanToken_plain (hflow : s.inFlow = false) (hmarker : s.cursor.atDocumentMarker = false)
    {c : Char} (h : PlainHead c r) (hc : isGap c = false ∧ isBreak c = false) (t : List Char) :
    s.scanToken c (r ++ t) = s.scanPlain := by
  have hchars := h.chars
  simp at hchars
  by_cases hword : c = '?' ∨ c = '-' ∨ c = ':'
  · have hend : endsWord (r ++ t) = false := endsWord_append (h.words hword)
    have hgap : (r ++ t).head?.any isGap = false := by
      cases hrt : r ++ t with
      | nil => rfl
      | cons d x =>
        rw [hrt, endsWord, Bool.or_eq_false_iff] at hend
        exact hend.1
    rw [List.head?_append] at hgap
    rcases hword with rfl | rfl | rfl
    · unfold scanToken
      simp [hmarker, hflow, hend]
    · unfold scanToken
      simp [hmarker, hflow, hend, hgap]
    · unfold scanToken
      simp [hmarker, hflow, hend]
  · simp only [not_or] at hword
    have hstarts : startsPlain c = true := by
      simp [startsPlain, hc, hword, hchars]
    unfold scanToken
    simp [hmarker, hflow, hword, hchars, hstarts]

theorem scanToken_quote (hmarker : s.cursor.atDocumentMarker = false) (single : Bool)
    (t : List Char) : s.scanToken (quoteMark single) t =
      s.scanInline fun c => (quotedScalar single c).map fun p =>
        (.scalar p.1 (if single then .single else .double), p.2) := by
  cases single with
  | true =>
    unfold scanToken
    simp [quoteMark, hmarker]
  | false =>
    unfold scanToken
    simp [quoteMark, hmarker]

theorem scanToken_literal (hflow : s.inFlow = false) (hmarker : s.cursor.atDocumentMarker = false)
    (t : List Char) : s.scanToken '|' t = s.scanBlockScalar true := by
  unfold scanToken
  simp [hmarker, hflow]

theorem scanPlain_eq {k : Option KeyPlace} {p : PlainScalar}
    (hk : s.saveKey = some { s with keyPlace := k })
    (hp : plainScalar s.inFlow (s.indent + 1).toNat s.cursor = some p) :
    s.scanPlain = some { Scanner.push { s with keyPlace := k } (.scalar p.text .plain) s.mark p.stop with
      cursor := p.cursor, keyAllowed := p.broken } := by
  unfold scanPlain
  rw [hk]
  show (plainScalar s.inFlow (s.indent + 1).toNat s.cursor).bind _ = _
  rw [hp]
  rfl

theorem scanInline_eq (read : Cursor → Option (TokenKind × Cursor)) {k : Option KeyPlace}
    {kind : TokenKind} {c : Cursor} (hk : s.saveKey = some { s with keyPlace := k })
    (hp : read s.cursor = some (kind, c)) :
    s.scanInline read = some { Scanner.push { s with keyPlace := k } kind s.mark c.mark with
      cursor := c, keyAllowed := false } := by
  unfold scanInline
  rw [hk]
  show (read s.cursor).bind _ = _
  rw [hp]
  rfl

theorem scanBlockScalar_eq {text : List Char} {c : Cursor} (hk : s.keyPlace = none)
    (hp : blockScalar true s.indent s.cursor = some (text, c)) :
    s.scanBlockScalar true = some { Scanner.push s (.scalar text .literal) s.mark c.mark with
      cursor := c, keyAllowed := true } := by
  unfold scanBlockScalar removeKey
  rw [hk]
  show (blockScalar true s.indent s.cursor).bind _ = _
  rw [hp]
  rfl

/-! ## Values -/

theorem Stands.indent_eq {top : Int} (h : Stands s b column r (top :: stack) out) :
    s.indent = top := (List.cons.inj h.stack).1

theorem Stands.not_atDocumentMarker_of_pos (h : Stands s b column r stack out) (hn : 0 < column) :
    s.cursor.atDocumentMarker = false :=
  atDocumentMarker_of_column (Nat.lt_of_lt_of_eq hn h.column.symm)

theorem Stands.scanNext_plain {t x : List Char} (h : Stands s b column (t ++ x) stack out)
    (ht : allowsPlain t = true) (hne : t ≠ []) (hmarker : s.cursor.atDocumentMarker = false) :
    s.scanNext = s.scanPlain := by
  have hsolid := (isPlain_of_allowsPlain ht).solid hne (fun c hc => (head_ne_comment ht c hc).1) []
  obtain ⟨c, r, rfl⟩ := List.exists_cons_of_ne_nil hne
  rw [h.scanNext_cons]
  exact scanToken_plain h.inFlow hmarker (plainHead_of_allowsPlain ht) (hsolid c rfl) x

variable {column' : Nat} {x : List Char}

/-- A plain scalar as a value. -/
theorem Stands.plain {t : List Char} (h : Stands s b column (t ++ '\n' :: (pad column' ++ x))
      ((n : Int) :: stack) out) (ht : allowsPlain t = true) (hne : t ≠ []) (hn : n < column)
    (hcolumn : column' ≤ n) (hx : Starts x) : ∃ u, s.scanNext = some u ∧
      At u true column' x ((n : Int) :: stack) (out ++ [.scalar t .plain]) := by
  have hmarker := h.not_atDocumentMarker_of_pos (Nat.zero_lt_of_lt hn)
  have hindent : (s.indent + 1).toNat = n + 1 := by
    rw [h.indent_eq]
    omega
  have hread := plainScalar_line (isPlain_of_allowsPlain ht) hne (head_ne_comment ht) hx.solid
    (Nat.lt_succ_of_le hcolumn) (h.cursor ▸ hmarker) (by rw [h.column]; omega)
  obtain ⟨k, hk, hplace⟩ := h.saveKey hn
  have hscan := scanPlain_eq hk (by
    rw [h.inFlow, hindent, h.cursor]
    exact hread)
  refine ⟨_, (h.scanNext_plain ht hne hmarker).trans hscan, ?_⟩
  refine h.at_scanned hplace (.behind (Nat.lt_succ_self _) ?_) hx _ _
  simp [Mark.nextLine, Mark.advance]

/-- A scalar in quotes as a value. -/
theorem Stands.quoted {single : Bool} {t w : List Char} (hw : Body single t w)
    (h : Stands s b column (quoteMark single :: (w ++ quoteMark single :: '\n' :: (pad column' ++ x)))
      ((n : Int) :: stack) out) (hn : n < column) (hx : Starts x) : ∃ u, s.scanNext = some u ∧
      At u true column' x ((n : Int) :: stack)
        (out ++ [.scalar t (if single then .single else .double)]) := by
  have hmarker := h.not_atDocumentMarker_of_pos (Nat.zero_lt_of_lt hn)
  obtain ⟨m, hread, hline, -⟩ := quotedScalar_body (m := s.mark) hw
    (t := '\n' :: (pad column' ++ x)) (by simp)
  obtain ⟨k, hk, hplace⟩ := h.saveKey hn
  have hscan := scanInline_eq (fun c => (quotedScalar single c).map fun p =>
    (.scalar p.1 (if single then .single else .double), p.2)) hk (by
      rw [h.cursor, hread]
      rfl)
  refine ⟨_, (h.scanNext_cons.trans (scanToken_quote hmarker single _)).trans hscan, ?_⟩
  exact h.at_scanned hplace (.before false hline) hx _ _

/-- A literal block as a value. -/
theorem Stands.literal {t : List Char} (ht : (∀ c ∈ t, isPrintable c = true) ∧ t ≠ [])
    (h : Stands s b column (literalHeader t ++ '\n' :: (indentLines (n + 2) true t ++
      (closing t ++ (pad column' ++ x)))) ((n : Int) :: stack) out) (hn : n < column)
    (hcolumn : column' ≤ n) (hx : Starts x) : ∃ u, s.scanNext = some u ∧
      At u true column' x ((n : Int) :: stack) (out ++ [.scalar t .literal]) := by
  have hmarker := h.not_atDocumentMarker_of_pos (Nat.zero_lt_of_lt hn)
  obtain ⟨m, hread, hcolumn', hline⟩ := blockScalar_literal hcolumn ht.1 ht.2 hx.solid s.mark
  have hscan := scanBlockScalar_eq h.keyPlace (by
    rw [h.indent_eq, h.cursor]
    exact hread)
  have hnext : s.scanNext = s.scanBlockScalar true := by
    rw [literalHeader_eq, List.cons_append] at h
    rw [h.scanNext_cons]
    exact scanToken_literal h.inFlow hmarker _
  refine ⟨_, hnext.trans hscan, ?_⟩
  have hsame : { s with keyPlace := none } = s := by rw [← h.keyPlace]
  have hat := h.at_scanned (k := none) nofun (.behind hline hcolumn') hx (.scalar t .literal) m
  rwa [hsame] at hat

/-- A word that stands for itself is read up to the end of its line. -/
theorem At.word {t : List Char}
    (h : At s b column (endLine t ++ (pad column' ++ x)) ((n : Int) :: stack) out)
    (ht : allowsPlain t = true) (hne : t ≠ []) (hn : n < column) (hcolumn : column' ≤ n)
    (hx : Starts x) : ∃ u, Steps s 1 u ∧
      At u true column' x ((n : Int) :: stack) (out ++ [.scalar t .plain]) := by
  rw [endLine_of_unbroken (isPlain_of_allowsPlain ht).unbroken, List.append_assoc] at h
  obtain ⟨u, hu, hfetch⟩ := h.fetch (Int.le_of_lt (Int.ofNat_lt.2 hn))
  obtain ⟨v, hv, hat⟩ := hu.plain ht hne hn hcolumn hx
  exact ⟨v, .single h.1 (hfetch.trans hv), hat⟩

/-- A text is read up to the end of its last line. -/
theorem At.text {t : List Char}
    (h : At s b column (endLine (spell n t) ++ (pad column' ++ x)) ((n : Int) :: stack) out)
    (hn : n < column) (hcolumn : column' ≤ n) (hx : Starts x) : ∃ u, Steps s 1 u ∧
      At u true column' x ((n : Int) :: stack) (out ++ [.scalar t (styleOf t)]) := by
  have hspelled := spelled n t
  generalize spell n t = w at h hspelled
  cases hspelled with
  | plain hstyle =>
    obtain ⟨htext, hplain⟩ := styleOf_plain hstyle
    rw [hstyle]
    exact h.word hplain (ne_nil_of_readsAsText htext) hn hcolumn hx
  | @quoted single hstyle w hw =>
    rw [endLine_quoted, List.cons_append, List.append_assoc] at h
    obtain ⟨u, hu, hfetch⟩ := h.fetch (Int.le_of_lt (Int.ofNat_lt.2 hn))
    obtain ⟨v, hv, hat⟩ := hu.quoted hw hn hx
    rw [hstyle]
    exact ⟨v, .single h.1 (hfetch.trans hv), hat⟩
  | literal hstyle =>
    have hliteral := styleOf_literal hstyle
    rw [endLine_literal _ hliteral.2, List.append_assoc, List.cons_append, List.append_assoc] at h
    obtain ⟨u, hu, hfetch⟩ := h.fetch (Int.le_of_lt (Int.ofNat_lt.2 hn))
    obtain ⟨v, hv, hat⟩ := hu.literal hliteral hn hcolumn hx
    rw [hstyle]
    exact ⟨v, .single h.1 (hfetch.trans hv), hat⟩

/-! ## Keys -/

theorem Stands.saveKey_allowed (h : Stands s true column r stack out) : ∃ required,
    s.saveKey = some
      { s with keyPlace := some ⟨s.released + s.held.length, s.mark, required⟩ } := by
  refine ⟨!s.inFlow && s.indent == (s.mark.column : Int), ?_⟩
  rw [Scanner.saveKey, if_pos h.allowed, h.removeKey]
  rfl

/-- The scanner behind a scalar that may be a key. -/
def behindKey (s : Scanner) (required : Bool) (kind : TokenKind) (stop : Mark) (c : Cursor) :
    Scanner :=
  { Scanner.push { s with keyPlace := some ⟨s.released + s.held.length, s.mark, required⟩ } kind s.mark
    stop with cursor := c, keyAllowed := false }

theorem fetch_behindKey {top : Int} (h : Stands s true column r (top :: stack) out)
    (htop : top ≤ column) (required : Bool) (kind : TokenKind) (stop : Mark) {length : Nat}
    (hlength : length ≤ 1024) {x : List Char} (hx : endsWord x = true) :
    (s.behindKey required kind stop ⟨s.mark.advance length, ':' :: x⟩).fetch =
      (s.behindKey required kind stop ⟨s.mark.advance length, ':' :: x⟩).scanValue := by
  generalize hv : s.behindKey required kind stop ⟨s.mark.advance length, ':' :: x⟩ = v
  obtain ⟨hcursor, hallowed, hkeys, hflow, hindent⟩ :
      v.cursor = ⟨s.mark.advance length, ':' :: x⟩ ∧ v.keyAllowed = false ∧
        v.keys = some ⟨s.released + s.held.length, s.mark, required⟩ :: s.outer ∧
        v.inFlow = s.inFlow ∧ v.indent = s.indent := by
    rw [← hv]
    exact ⟨rfl, rfl, rfl, rfl, rfl⟩
  rw [h.outer] at hkeys
  rw [h.inFlow] at hflow
  rw [h.indent_eq] at hindent
  have hskip : v.skipToToken = v := by
    have hcolon : Starts (':' :: x) := by
      intro c hc
      cases hc
      decide
    have hskip : skipFrom false v.keyAllowed v.cursor (v.cursor.rest.length + 1) =
        (false, v.cursor) := by
      rw [hallowed, hcursor]
      exact skipFrom_pad false (s.mark.advance length) 0 hcolon (':' :: x).length
    rw [skipToToken_eq hflow hskip, ← hallowed]
  have hdrop : v.dropStaleKeys = some v := by
    refine dropStaleKeys_fresh fun k hk => ?_
    rw [hkeys, List.mem_singleton, Option.some.injEq] at hk
    simp only [hk, isStale, mark, hcursor, Mark.advance, Bool.or_eq_false_iff,
      decide_eq_false_iff_not]
    omega
  have hclose : v.closeBlocks v.mark.column = v := by
    refine closeBlocks_of_le hflow ?_
    have hcolumn : v.mark.column = column + length := by
      rw [← h.column, mark, hcursor]
      rfl
    omega
  rw [fetch_eq_scanNext hskip hdrop hclose, scanNext, hcursor]
  exact scanToken_colon (by rw [hcursor]) hx

theorem insertAt_behind {held ts : List Token} (hheld : s.held = held ++ ts) (t : Token) :
    (s.insertAt (s.released + held.length) t).held = held ++ t :: ts := by
  simp [insertAt, hheld]

/-- A colon behind a scalar on the same line makes it a key; its mapping starts before it unless it is
open. -/
theorem Stands.colon {top : Int} (h : Stands s true column r (top :: stack) out)
    (htop : top ≤ column) (required : Bool) (kind : TokenKind) (stop : Mark) (length : Nat)
    (hlength : length ≤ 1024) {x : List Char} (hx : endsWord x = true) :
    ∃ u, (s.behindKey required kind stop ⟨s.mark.advance length, ':' :: x⟩).fetch = some u ∧
      Stands u false (column + length + 1) x (nest column (top :: stack))
        (out ++ opening .blockMappingStart column (top :: stack) ++ [.key, kind, .value]) := by
  have hfetch := fetch_behindKey h htop required kind stop hlength hx
  generalize hv : s.behindKey required kind stop ⟨s.mark.advance length, ':' :: x⟩ = v at hfetch
  refine ⟨_, hfetch.trans (scanValue_of_key (k := ⟨s.released + s.held.length, s.mark, required⟩)
    (by rw [← hv]; rfl)), ?_⟩
  subst hv
  -- the state behind the scalar, with the key's token in front
  let w := (s.behindKey required kind stop ⟨s.mark.advance length, ':' :: x⟩).insertAt
    (s.released + s.held.length) ⟨.key, s.mark, s.mark⟩
  have hheld : w.held = s.held ++ [⟨.key, s.mark, s.mark⟩, ⟨kind, s.mark, stop⟩] :=
    insertAt_behind rfl _
  have hindent : w.indent = top := h.indent_eq
  have hflow : w.inFlow = false := h.inFlow
  have hcolumn : s.mark.column = column := h.column
  have hcursor : ∀ v : Scanner, v.cursor = w.cursor →
      v.endKey.mark.column = column + length + 1 ∧ v.endKey.cursor.rest = x := by
    intro v hv
    refine ⟨?_, ?_⟩
    · rw [← hcolumn]
      simp [endKey, Scanner.indicator, mark, hv, w, insertAt, behindKey, Cursor.skip, Mark.advance]
    · simp [endKey, Scanner.indicator, hv, w, insertAt, behindKey, Cursor.skip]
  show Stands ((w.openBlock s.mark.column (some (s.released + s.held.length)) .blockMappingStart
    s.mark).endKey) _ _ _ _ _
  rw [openBlock_some, hflow, hindent, hcolumn, Bool.false_or]
  by_cases hopen : (column : Int) ≤ top
  · rw [if_pos (by simpa using hopen)]
    obtain ⟨hmark, hrest⟩ := hcursor w rfl
    refine ⟨h.finished, rfl, hmark, hrest, rfl, h.outer, ?_, ?_⟩
    · simp only [nest, hopen, ↓reduceIte]
      exact h.stack
    · simp [opening, hopen, endKey, Scanner.indicator, push, hheld, ← h.out]
  · rw [if_neg (by simpa using hopen)]
    let w' : Scanner := { w with indents := top :: w.indents, indent := (column : Int) }
    have hheld' : (w'.insertAt (s.released + s.held.length) ⟨.blockMappingStart, s.mark, s.mark⟩).held =
        s.held ++ [⟨.blockMappingStart, s.mark, s.mark⟩, ⟨.key, s.mark, s.mark⟩,
          ⟨kind, s.mark, stop⟩] := insertAt_behind hheld _
    obtain ⟨hmark, hrest⟩ := hcursor (w'.insertAt (s.released + s.held.length)
      ⟨.blockMappingStart, s.mark, s.mark⟩) rfl
    refine ⟨h.finished, rfl, hmark, hrest, rfl, h.outer, ?_, ?_⟩
    · simp only [nest, hopen, ↓reduceIte]
      exact congrArg ((column : Int) :: ·) (congrArg (top :: ·) (List.cons.inj h.stack).2)
    · simp [opening, hopen, endKey, Scanner.indicator, push, w', hheld', ← h.out]

/-- A plain key is no document marker, in the first column either. -/
theorem Stands.not_atDocumentMarker_plain {k x : List Char}
    (h : Stands s b column (k ++ ':' :: x) stack out) (hk : allowsPlain k = true) (hne : k ≠ []) :
    s.cursor.atDocumentMarker = false := by
  obtain ⟨c, r, rfl⟩ := List.exists_cons_of_ne_nil hne
  have hhead := plainHead_of_allowsPlain hk
  have htriple : ∀ {d : Char} {t : List Char}, d ≠ ':' → c :: r ++ ':' :: x = d :: d :: d :: t →
      c = d ∧ ∃ t', r = d :: d :: t' := by
    intro d t hd heq
    obtain ⟨hc, heq⟩ := List.cons.inj heq
    match r, heq with
    | [], heq => exact absurd (List.cons.inj heq).1.symm hd
    | [e], heq => exact absurd (List.cons.inj (List.cons.inj heq).2).1.symm hd
    | e :: f :: t', heq =>
      obtain ⟨rfl, heq⟩ := List.cons.inj heq
      obtain ⟨rfl, -⟩ := List.cons.inj heq
      exact ⟨hc, t', rfl⟩
  unfold Cursor.atDocumentMarker
  rw [h.rest]
  split
  · rename_i heq
    obtain ⟨hc, t, hr⟩ := htriple (by decide) heq
    exact absurd hr (hhead.dashes t hc)
  · rename_i heq
    obtain ⟨hc, t, hr⟩ := htriple (by decide) heq
    exact absurd hr (hhead.dots t hc)
  · exact Bool.and_false _

/-- A quoted key is no document marker. -/
theorem Stands.not_atDocumentMarker_quoted {single : Bool}
    (h : Stands s b column (quoteMark single :: r) stack out) :
    s.cursor.atDocumentMarker = false := by
  unfold Cursor.atDocumentMarker
  rw [h.rest]
  cases single <;> simp [quoteMark]

/-- A plain key is read with its colon. -/
theorem Stands.plainKey {k x : List Char} {top : Int}
    (h : Stands s true column (k ++ ':' :: x) (top :: stack) out) (htop : top ≤ column)
    (hplain : allowsPlain k = true) (hne : k ≠ []) (hlength : k.length ≤ 1024)
    (hx : endsWord x = true) : ∃ u v, s.scanNext = some u ∧ Steps u 1 v ∧
      Stands v false (column + k.length + 1) x (nest column (top :: stack))
        (out ++ opening .blockMappingStart column (top :: stack) ++
          [.key, .scalar k .plain, .value]) := by
  obtain ⟨required, hsave⟩ := h.saveKey_allowed
  have hmarker := h.not_atDocumentMarker_plain hplain hne
  have hcolumn : (s.indent + 1).toNat ≤ s.mark.column + 1 := by
    rw [h.indent_eq, h.column]
    omega
  have hread := plainScalar_key (isPlain_of_allowsPlain hplain) hne (head_ne_comment hplain) hx
    (h.cursor ▸ hmarker) hcolumn
  have hscan := scanPlain_eq hsave (by rw [h.inFlow, h.cursor]; exact hread)
  obtain ⟨v, hv, hstands⟩ := h.colon htop required (.scalar k .plain) (s.mark.advance k.length)
    k.length hlength hx
  exact ⟨_, v, (h.scanNext_plain hplain hne hmarker).trans hscan, .single h.finished hv, hstands⟩

/-- A quoted key is read with its colon. -/
theorem Stands.quotedKey {single : Bool} {k x : List Char} {top : Int}
    (h : Stands s true column
      (quoteMark single :: (k.flatMap (quoteChar single) ++ quoteMark single :: ':' :: x))
      (top :: stack) out) (htop : top ≤ column)
    (hbody : Body single k (k.flatMap (quoteChar single))) (hunbroken : ∀ c ∈ k, isBreak c = false)
    (hlength : (k.flatMap (quoteChar single)).length + 2 ≤ 1024) (hx : endsWord x = true) :
    ∃ u v, s.scanNext = some u ∧ Steps u 1 v ∧
      Stands v false (column + ((k.flatMap (quoteChar single)).length + 2) + 1) x
        (nest column (top :: stack)) (out ++ opening .blockMappingStart column (top :: stack) ++
          [.key, .scalar k (if single then .single else .double), .value]) := by
  obtain ⟨required, hsave⟩ := h.saveKey_allowed
  have hmarker := h.not_atDocumentMarker_quoted
  obtain ⟨m, hread, -, hm⟩ := quotedScalar_body (m := s.mark) hbody (t := ':' :: x) (by simp)
  obtain rfl := hm fun c hc => by
    obtain ⟨d, hd, hc⟩ := List.mem_flatMap.1 hc
    exact isBreak_of_mem_quoteChar (hunbroken d hd) hc
  have hscan := scanInline_eq (fun c => (quotedScalar single c).map fun p =>
    (.scalar p.1 (if single then .single else .double), p.2)) hsave (by
      rw [h.cursor]
      exact congrArg (Option.map _) hread)
  have hnext := h.scanNext_cons.trans (scanToken_quote hmarker single _)
  obtain ⟨v, hv, hstands⟩ := h.colon htop required
    (.scalar k (if single then .single else .double))
    (s.mark.advance ((k.flatMap (quoteChar single)).length + 2)) _ hlength hx
  exact ⟨_, v, hnext.trans hscan, .single h.finished hv, hstands⟩

/-- A key without a mark is read with its colon. -/
theorem At.key {indent : Nat} {k x : List Char} {top : Int}
    (h : At s true column (spell indent k ++ ':' :: x) (top :: stack) out) (htop : top ≤ column)
    (hk : isSimpleKey k = true) (hx : endsWord x = true) : ∃ u, Steps s 2 u ∧
      Stands u false (column + (spell indent k).length + 1) x (nest column (top :: stack))
        (out ++ opening .blockMappingStart column (top :: stack) ++
          [.key, .scalar k (styleOf k), .value]) := by
  obtain ⟨hunbroken, hlength⟩ := isSimpleKey_iff.1 hk
  have hlimit : simpleKeyLimit = 128 := rfl
  obtain ⟨u, hu, hfetch⟩ := h.fetch htop
  rcases spell_key indent hunbroken with ⟨hstyle, hspell⟩ | ⟨single, hstyle, hbody, hspell⟩
  · rw [hspell] at hu ⊢
    rw [hstyle]
    obtain ⟨htext, hplain⟩ := styleOf_plain hstyle
    have hle := length_le_utf8Length k
    obtain ⟨v, w, hnext, hw, hstands⟩ :=
      hu.plainKey htop hplain (ne_nil_of_readsAsText htext) (by omega) hx
    exact ⟨w, .step h.1 (hfetch.trans hnext) hw, hstands⟩
  · rw [hspell, List.cons_append, List.append_assoc] at hu
    have hspelled : (spell indent k).length = (k.flatMap (quoteChar single)).length + 2 := by
      rw [hspell, List.length_cons, List.length_append, List.length_singleton]
    have hle := length_flatMap_quoteChar_le single k
    obtain ⟨v, w, hnext, hw, hstands⟩ := hu.quotedKey htop hbody hunbroken (by omega) hx
    rw [hspelled, hstyle]
    exact ⟨w, .step h.1 (hfetch.trans hnext) hw, hstands⟩

end Scanner

end MarketingForm.Yaml
