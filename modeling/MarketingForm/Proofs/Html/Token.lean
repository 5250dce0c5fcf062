import MarketingForm.Markup.Layout
import MarketingForm.Text.Blank

/-!
# Tokens of HTML

A reader of tags and quoted attributes that takes one character at a time. `next` is one step,
`run` a whole text; `Spells s ts` says that `s`, met between tags, reads as `ts` and ends between
tags again. The written forms of texts and tags spell what they were written from: the quotes of a
value are chosen so that nothing in the value ends it, and no encoded text holds a `<`.
-/

namespace MarketingForm.Html

/-! ## Character references -/

/-- Resolves the references `&amp;`, `&lt;`, `&gt;`, `&quot;`, `&#x27;` and `&nbsp;`. -/
def decode : List Char → List Char
  | '&' :: 'a' :: 'm' :: 'p' :: ';' :: r => '&' :: decode r
  | '&' :: 'l' :: 't' :: ';' :: r => '<' :: decode r
  | '&' :: 'g' :: 't' :: ';' :: r => '>' :: decode r
  | '&' :: 'q' :: 'u' :: 'o' :: 't' :: ';' :: r => '"' :: decode r
  | '&' :: '#' :: 'x' :: '2' :: '7' :: ';' :: r => '\'' :: decode r
  | '&' :: 'n' :: 'b' :: 's' :: 'p' :: ';' :: r => '\u00a0' :: decode r
  | c :: r => c :: decode r
  | [] => []

theorem decode_cons {c : Char} (hc : c ≠ '&') (r : List Char) :
    decode (c :: r) = c :: decode r := by
  simp [decode, hc]

theorem decode_encodeChar_append (p : Position) (c : Char) (r : List Char) :
    decode (p.encodeChar c ++ r) = c :: decode r := by
  unfold Position.encodeChar
  by_cases ha : c = '&'
  · simp [ha, decode]
  by_cases hl : c = '<'
  · simp [hl, decode]
  by_cases hg : c = '>'
  · simp [hg, decode]
  by_cases hd : c = '"' ∧ p.guardsDouble = true
  · simp [hd, decode]
  by_cases hs : c = '\'' ∧ p.guardsSingle = true
  · simp [hs, decode]
  simp only [ha, hl, hg, hd, hs, ↓reduceIte, List.singleton_append]
  exact decode_cons ha r

theorem decode_encode_append (p : Position) (s r : List Char) :
    decode (p.encode s ++ r) = s ++ decode r := by
  induction s with
  | nil => rfl
  | cons c s ih => rw [Position.encode_cons, List.append_assoc, decode_encodeChar_append, ih]; rfl

theorem decode_encode (p : Position) (s : List Char) : decode (p.encode s) = s := by
  simpa [decode] using decode_encode_append p s []

/-- A character that a position replaces does not occur in what is written there. -/
theorem not_mem_encode {p : Position} {x : Char} (hx : ∀ c, x ∉ p.encodeChar c) (s : List Char) :
    x ∉ p.encode s := by
  simp only [Position.encode, List.mem_flatMap, not_exists, not_and]
  exact fun c _ => hx c

theorem lt_not_mem_encode (p : Position) (s : List Char) : '<' ∉ p.encode s := by
  refine not_mem_encode (fun c => ?_) s
  by_cases hc : '<' = c
  · simp [← hc, Position.encodeChar]
  · unfold Position.encodeChar
    repeat' split
    all_goals simp [hc]

theorem doubleQuote_not_mem_encode (s : List Char) : '"' ∉ Position.doubleQuoted.encode s := by
  refine not_mem_encode (fun c => ?_) s
  by_cases hc : '"' = c
  · simp [← hc, Position.encodeChar, Position.guardsDouble]
  · unfold Position.encodeChar
    repeat' split
    all_goals simp [hc]

theorem singleQuote_not_mem_encode (s : List Char) : '\'' ∉ Position.singleQuoted.encode s := by
  refine not_mem_encode (fun c => ?_) s
  by_cases hc : '\'' = c
  · simp [← hc, Position.encodeChar, Position.guardsSingle]
  · unfold Position.encodeChar
    repeat' split
    all_goals simp [hc]

/-! ## The reader -/

/-- A character of a tag name or an attribute name. -/
def isNameChar (c : Char) : Bool :=
  !(Text.isBlank c || c == '"' || c == '\'' || c == '=' || c == '<' || c == '>' || c == '/')

/-- A name that an attribute can have. -/
def isAttributeName (name : String) : Bool := !name.toList.isEmpty && name.toList.all isNameChar

/-- What the reader has recognised. -/
inductive Token where
  /-- A character between tags, before references are resolved. -/
  | char (c : Char)
  | opening (tag : String) (attributes : List Attribute)
  | closing (tag : String)
deriving DecidableEq

/-- Where the reader stands, with what it has of the current tag. -/
inductive Mode where
  | text
  /-- Behind the `<` of a tag. -/
  | tag
  | opening (name : List Char)
  | closing (name : List Char)
  /-- Between the attributes of an opening tag. -/
  | gap (tag : String) (attributes : List Attribute)
  | attribute (tag : String) (attributes : List Attribute) (name : List Char)
  /-- Behind the `=` of an attribute. -/
  | equals (tag : String) (attributes : List Attribute) (name : List Char)
  | value (tag : String) (attributes : List Attribute) (name : List Char) (quote : Char)
      (raw : List Char)
deriving DecidableEq

/-- A step between the attributes of an opening tag. -/
def nextInGap (tag : String) (attributes : List Attribute) (c : Char) :
    Option (Mode × List Token) :=
  if c = '>' then some (.text, [.opening tag attributes])
  else if Text.isBlank c then some (.gap tag attributes, [])
  else if isNameChar c then some (.attribute tag attributes [c], [])
  else none

/-- One step of the reader. -/
def next : Mode → Char → Option (Mode × List Token)
  | .text, c => some (if c = '<' then (.tag, []) else (.text, [.char c]))
  | .tag, c =>
    if c = '/' then some (.closing [], [])
    else if isNameChar c then some (.opening [c], [])
    else none
  | .opening name, c =>
    if isNameChar c then some (.opening (name ++ [c]), [])
    else nextInGap (String.ofList name) [] c
  | .closing name, c =>
    if isNameChar c then some (.closing (name ++ [c]), [])
    else if c = '>' then some (.text, [.closing (String.ofList name)])
    else none
  | .gap tag as, c => nextInGap tag as c
  | .attribute tag as name, c =>
    if isNameChar c then some (.attribute tag as (name ++ [c]), [])
    else if c = '=' then some (.equals tag as name, [])
    else nextInGap tag (as ++ [⟨String.ofList name, none⟩]) c
  | .equals tag as name, c =>
    if c = '"' ∨ c = '\'' then some (.value tag as name c [], []) else none
  | .value tag as name quote raw, c =>
    if c = quote then
      some (.gap tag (as ++ [⟨String.ofList name, some (String.ofList (decode raw))⟩]), [])
    else some (.value tag as name quote (raw ++ [c]), [])

/-- Reads a text from a mode on: the mode at its end and the tokens met. -/
def run : Mode → List Char → Option (Mode × List Token)
  | m, [] => some (m, [])
  | m, c :: r =>
    (next m c).bind fun (n, ts) => (run n r).map fun (o, us) => (o, ts ++ us)

/-- `s`, met between tags, reads as `ts`. -/
def Spells (s : List Char) (ts : List Token) : Prop := run .text s = some (.text, ts)

@[simp] theorem run_nil (m : Mode) : run m [] = some (m, []) := rfl

theorem run_cons {m n : Mode} {c : Char} {ts : List Token} (h : next m c = some (n, ts))
    (r : List Char) : run m (c :: r) = (run n r).map fun (o, us) => (o, ts ++ us) := by
  simp [run, h]

/-- A step without a token. -/
theorem run_step {m n : Mode} {c : Char} (h : next m c = some (n, [])) (r : List Char) :
    run m (c :: r) = run n r := by
  rw [run_cons h]
  cases run n r <;> simp

theorem run_append {m n o : Mode} {s t : List Char} {ts us : List Token}
    (hs : run m s = some (n, ts)) (ht : run n t = some (o, us)) :
    run m (s ++ t) = some (o, ts ++ us) := by
  induction s generalizing m ts with
  | nil =>
    simp only [run_nil, Option.some.injEq, Prod.mk.injEq] at hs
    obtain ⟨rfl, rfl⟩ := hs
    exact ht
  | cons c s ih =>
    simp only [run, Option.bind_eq_some_iff, Option.map_eq_some_iff] at hs
    obtain ⟨⟨m', vs⟩, hnext, ⟨n', ws⟩, hrun, heq⟩ := hs
    simp only [Prod.mk.injEq] at heq
    obtain ⟨rfl, rfl⟩ := heq
    rw [List.cons_append, run_cons hnext, ih hrun]
    simp

theorem Spells.append {s t : List Char} {ts us : List Token} (hs : Spells s ts) (ht : Spells t us) :
    Spells (s ++ t) (ts ++ us) := run_append hs ht

/-! ## Texts -/

theorem spells_text {s : List Char} (h : '<' ∉ s) : Spells s (s.map .char) := by
  induction s with
  | nil => rfl
  | cons c s ih =>
    simp only [List.mem_cons, not_or] at h
    have hc : ¬ c = '<' := fun e => h.1 e.symm
    have hnext : next .text c = some (.text, [.char c]) := by simp [next, hc]
    rw [Spells, run_cons hnext, ih h.2]
    rfl

/-! ## Tags -/

theorem isNameChar_of_range {c : Char} (h : c.toNat = 0x2D ∨ (0x30 ≤ c.toNat ∧ c.toNat ≤ 0x39) ∨
    (0x41 ≤ c.toNat ∧ c.toNat ≤ 0x5A) ∨ (0x61 ≤ c.toNat ∧ c.toNat ≤ 0x7A)) :
    isNameChar c = true := by
  have hne : ∀ d ∈ ['"', '\'', '=', '<', '>', '/'], c ≠ d := by
    rintro d hd rfl
    simp only [List.mem_cons, List.not_mem_nil, or_false] at hd
    rcases hd with rfl | rfl | rfl | rfl | rfl | rfl <;> simp at h
  have hblank : Text.isBlank c = false := by
    simp only [Text.isBlank, Bool.or_eq_false_iff, Bool.and_eq_false_iff, decide_eq_false_iff_not,
      beq_eq_false_iff_ne]
    omega
  simp only [List.mem_cons, List.not_mem_nil, or_false, forall_eq_or_imp, forall_eq] at hne
  simp [isNameChar, hblank, hne]

theorem isNameChar_of_isAlphanum {c : Char} (h : c.isAlphanum = true) : isNameChar c = true := by
  have hcases : (decide (65 ≤ c.val ∧ c.val ≤ 90) ||
      (decide (97 ≤ c.val) && decide (c.val ≤ 122)) ||
      (decide (48 ≤ c.val) && decide (c.val ≤ 57))) = true := h
  simp only [Bool.or_eq_true, Bool.and_eq_true, decide_eq_true_eq, UInt32.le_iff_toNat_le,
    UInt32.reduceToNat] at hcases
  have hval : c.toNat = c.val.toNat := rfl
  refine isNameChar_of_range (.inr ?_)
  omega

theorem all_isNameChar_of_isTagName {tag : String} (h : isTagName tag = true) :
    tag.toList.all isNameChar = true := by
  unfold isTagName at h
  split at h
  · cases h
  · rename_i c r hcr
    simp only [Bool.and_eq_true, List.all_eq_true, Bool.or_eq_true, beq_iff_eq] at h
    simp only [hcr, List.all_cons, Bool.and_eq_true, List.all_eq_true]
    refine ⟨isNameChar_of_isAlphanum ?_, fun d hd => ?_⟩
    · rw [Char.isAlphanum, h.1, Bool.true_or]
    · rcases h.2 d hd with hd | rfl
      · exact isNameChar_of_isAlphanum hd
      · decide

theorem toList_ne_nil_of_isTagName {tag : String} (h : isTagName tag = true) : tag.toList ≠ [] := by
  rintro hnil
  simp [isTagName, hnil] at h

/-- Name characters are gathered in every mode that gathers them. -/
theorem run_name {mode : List Char → Mode}
    (hmode : ∀ pre c, isNameChar c = true → next (mode pre) c = some (mode (pre ++ [c]), []))
    {name : List Char} (h : name.all isNameChar = true) (pre r : List Char) :
    run (mode pre) (name ++ r) = run (mode (pre ++ name)) r := by
  induction name generalizing pre with
  | nil => simp
  | cons c name ih =>
    simp only [List.all_cons, Bool.and_eq_true] at h
    rw [List.cons_append, run_step (hmode pre c h.1), ih h.2]
    simp

theorem run_value {quote : Char} {v : List Char} (h : quote ∉ v) (tag : String)
    (as : List Attribute) (name pre r : List Char) :
    run (.value tag as name quote pre) (v ++ quote :: r) =
      run (.gap tag (as ++ [⟨String.ofList name, some (String.ofList (decode (pre ++ v)))⟩]))
        r := by
  induction v generalizing pre with
  | nil => rw [List.nil_append, run_step (by simp [next]; rfl)]; simp
  | cons c v ih =>
    simp only [List.mem_cons, not_or] at h
    have hc : ¬ c = quote := fun e => h.1 e.symm
    have hstep : next (.value tag as name quote pre) c =
        some (.value tag as name quote (pre ++ [c]), []) := by simp [next, hc]
    rw [List.cons_append, run_step hstep, ih h.2]
    simp

/-- A quoted value is read as it was. -/
theorem run_quote (tag : String) (as : List Attribute) (name : List Char) (v : String)
    (r : List Char) :
    run (.equals tag as name) (Attribute.quote v.toList ++ r) =
      run (.gap tag (as ++ [⟨String.ofList name, some v⟩])) r := by
  have hstep : ∀ q, q = '"' ∨ q = '\'' →
      next (.equals tag as name) q = some (.value tag as name q [], []) := by
    intro q hq
    simp [next, hq]
  unfold Attribute.quote
  split
  · rw [List.append_assoc, List.cons_append, run_step (hstep '\'' (.inr rfl))]
    simpa [decode_encode] using run_value (singleQuote_not_mem_encode v.toList) tag as name [] r
  · rw [List.append_assoc, List.cons_append, run_step (hstep '"' (.inl rfl))]
    simpa [decode_encode] using run_value (doubleQuote_not_mem_encode v.toList) tag as name [] r

/-- What follows an attribute starts with a blank or ends the tag. -/
theorem attributes_append_cases (as : List Attribute) (r : List Char) :
    ∃ c t, (c = '>' ∨ c = ' ') ∧ as.flatMap Attribute.write ++ '>' :: r = c :: t := by
  cases as with
  | nil => exact ⟨'>', r, .inl rfl, rfl⟩
  | cons a as =>
    obtain ⟨name, value⟩ := a
    cases value with
    | none => exact ⟨' ', _, .inr rfl, rfl⟩
    | some v => exact ⟨' ', _, .inr rfl, rfl⟩

theorem next_attribute_end {c : Char} (hc : c = '>' ∨ c = ' ') (tag : String) (as : List Attribute)
    (name : List Char) :
    next (.attribute tag as name) c = next (.gap tag (as ++ [⟨String.ofList name, none⟩])) c := by
  rcases hc with rfl | rfl <;> rfl

theorem next_opening_end {c : Char} (hc : c = '>' ∨ c = ' ') (name : List Char) :
    next (.opening name) c = next (.gap (String.ofList name) []) c := by
  rcases hc with rfl | rfl <;> rfl

/-- An attribute is read together with the blank before it. -/
theorem run_write {a : Attribute} (ha : isAttributeName a.name = true) (tag : String)
    (as bs : List Attribute) (r : List Char) :
    run (.gap tag as) (a.write ++ (bs.flatMap Attribute.write ++ '>' :: r)) =
      run (.gap tag (as ++ [a])) (bs.flatMap Attribute.write ++ '>' :: r) := by
  obtain ⟨name, value⟩ := a
  simp only [isAttributeName, Bool.and_eq_true, Bool.not_eq_true', List.isEmpty_eq_false_iff] at ha
  obtain ⟨c, cs, hname⟩ := List.exists_cons_of_ne_nil ha.1
  rw [hname, List.all_cons, Bool.and_eq_true] at ha
  have hc : c ≠ '>' ∧ Text.isBlank c = false := by
    have := ha.2.1
    simp only [isNameChar, Bool.not_eq_true', Bool.or_eq_false_iff, beq_eq_false_iff_ne] at this
    exact ⟨this.1.2, this.1.1.1.1.1.1⟩
  -- up to the end of the name
  have hstart : ∀ t, run (.gap tag as) (' ' :: name.toList ++ t) =
      run (.attribute tag as name.toList) t := by
    intro t
    rw [hname, List.cons_append, run_step (n := .gap tag as) rfl, List.cons_append,
      run_step (n := .attribute tag as [c]) (by simp [next, nextInGap, hc, ha.2.1]),
      run_name (fun pre d hd => by simp [next, hd]) ha.2.2]
    rfl
  cases value with
  | none =>
    obtain ⟨d, t, hd, ht⟩ := attributes_append_cases bs r
    simp only [Attribute.write]
    rw [hstart, ht, run, next_attribute_end hd]
    simp [run]
  | some v =>
    simp only [Attribute.write, List.append_assoc, List.cons_append]
    rw [← List.cons_append, hstart, run_step (n := .equals tag as name.toList) rfl, run_quote]
    simp

theorem run_attributes {bs : List Attribute} (h : ∀ a ∈ bs, isAttributeName a.name = true)
    (tag : String) (as : List Attribute) (r : List Char) :
    run (.gap tag as) (bs.flatMap Attribute.write ++ '>' :: r) =
      run (.gap tag (as ++ bs)) ('>' :: r) := by
  induction bs generalizing as with
  | nil => simp
  | cons b bs ih =>
    rw [List.flatMap_cons, List.append_assoc, run_write (h b List.mem_cons_self),
      ih fun a ha => h a (List.mem_cons_of_mem b ha)]
    simp

theorem spells_openingTag {tag : String} (ht : isTagName tag = true) {as : List Attribute}
    (has : ∀ a ∈ as, isAttributeName a.name = true) :
    Spells (openingTag tag as) [.opening tag as] := by
  obtain ⟨c, cs, htag⟩ := List.exists_cons_of_ne_nil (toList_ne_nil_of_isTagName ht)
  have hall := all_isNameChar_of_isTagName ht
  rw [htag, List.all_cons, Bool.and_eq_true] at hall
  have hslash : c ≠ '/' := by
    have := hall.1
    simp only [isNameChar, Bool.not_eq_true', Bool.or_eq_false_iff, beq_eq_false_iff_ne] at this
    exact this.2
  have hname : run .text ('<' :: tag.toList ++ (as.flatMap Attribute.write ++ ['>'])) =
      run (.opening tag.toList) (as.flatMap Attribute.write ++ ['>']) := by
    rw [htag, List.cons_append, run_step (n := .tag) rfl, List.cons_append,
      run_step (n := .opening [c]) (by simp [next, hslash, hall.1]),
      run_name (fun pre d hd => by simp [next, hd]) hall.2]
    rfl
  obtain ⟨d, t, hd, htail⟩ := attributes_append_cases as []
  rw [Spells, openingTag, List.append_assoc, hname, htail, run, next_opening_end hd,
    String.ofList_toList, ← run, ← htail, run_attributes has]
  rfl

theorem spells_closingTag {tag : String} (ht : isTagName tag = true) :
    Spells (closingTag tag) [.closing tag] := by
  rw [Spells, closingTag, List.cons_append, run_step (n := .tag) rfl, List.cons_append,
    run_step (n := .closing []) rfl,
    run_name (fun pre d hd => by simp [next, hd]) (all_isNameChar_of_isTagName ht)]
  simp [run, next, isNameChar]

end MarketingForm.Html
