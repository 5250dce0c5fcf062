import MarketingForm.Proofs.Html.Token

/-!
# Outlines

The outline of a text is what its tags say: tags and attribute names, in order, without values and
texts. `Child.outline` is computed from an element tree alone, and a readable tree is written with
that outline at any level, whatever its values and texts are (`outline?_write`). Embedded markup
counts with the outline of its own text.
-/

namespace MarketingForm

namespace Html

/-- A tag without attribute values. -/
inductive Mark where
  | opening (tag : String) (names : List String)
  | closing (tag : String)
deriving DecidableEq

def Token.mark? : Token → Option Mark
  | .char _ => none
  | .opening tag as => some (.opening tag (as.map Attribute.name))
  | .closing tag => some (.closing tag)

/-- The marks of a text that ends between tags. -/
def outline? (s : List Char) : Option (List Mark) :=
  match run .text s with
  | some (.text, ts) => some (ts.filterMap Token.mark?)
  | _ => none

theorem outline?_eq_some {s : List Char} {ms : List Mark} :
    outline? s = some ms ↔ ∃ ts, Spells s ts ∧ ts.filterMap Token.mark? = ms := by
  unfold outline? Spells
  constructor
  · intro h
    split at h
    · rename_i ts hrun
      exact ⟨ts, hrun, Option.some.inj h⟩
    · cases h
  · rintro ⟨ts, hrun, rfl⟩
    rw [hrun]

theorem Spells.outline {s : List Char} {ts : List Token} (h : Spells s ts) :
    outline? s = some (ts.filterMap Token.mark?) := outline?_eq_some.2 ⟨ts, h, rfl⟩

theorem outline?_append {s t : List Char} {ms ns : List Mark} (hs : outline? s = some ms)
    (ht : outline? t = some ns) : outline? (s ++ t) = some (ms ++ ns) := by
  obtain ⟨ts, hspell, rfl⟩ := outline?_eq_some.1 hs
  obtain ⟨us, hspell', rfl⟩ := outline?_eq_some.1 ht
  rw [(hspell.append hspell').outline, List.filterMap_append]

theorem outline?_text {s : List Char} (h : '<' ∉ s) : outline? s = some [] := by
  rw [(spells_text h).outline, List.filterMap_map]
  exact congrArg some (List.filterMap_eq_nil_iff.2 fun _ _ => rfl)

theorem outline?_openingTag {tag : String} (ht : isTagName tag = true) {as : List Attribute}
    (has : ∀ a ∈ as, isAttributeName a.name = true) :
    outline? (openingTag tag as) = some [.opening tag (as.map Attribute.name)] :=
  (spells_openingTag ht has).outline

theorem outline?_closingTag {tag : String} (ht : isTagName tag = true) :
    outline? (closingTag tag) = some [.closing tag] := (spells_closingTag ht).outline

end Html

open Html

namespace Child

mutual

def outline : Child → List Mark
  | element tag as cs =>
    .opening tag (as.map Attribute.name) ::
      if isVoidTag tag then [] else outlineAll cs ++ [.closing tag]
  | embedded m => (outline? m.text.toList).getD []
  | text _ | literal _ => []

def outlineAll : List Child → List Mark
  | [] => []
  | c :: r => c.outline ++ outlineAll r

end

mutual

/-- The tags and attributes have names, fixed markup has no tags, and embedded markup has whole
ones. -/
def readable : Child → Bool
  | element tag as cs =>
    isTagName tag && as.all (fun a => isAttributeName a.name) && allReadable cs
  | text _ => true
  | literal s => !s.toList.contains '<'
  | embedded m => (outline? m.text.toList).isSome

def allReadable : List Child → Bool
  | [] => true
  | c :: r => c.readable && allReadable r

end

theorem outlineAll_append (cs ds : List Child) :
    outlineAll (cs ++ ds) = outlineAll cs ++ outlineAll ds := by
  induction cs with
  | nil => rfl
  | cons c cs ih => rw [List.cons_append, outlineAll, outlineAll, ih, List.append_assoc]

theorem allReadable_append (cs ds : List Child) :
    allReadable (cs ++ ds) = (allReadable cs && allReadable ds) := by
  induction cs with
  | nil => rfl
  | cons c cs ih => rw [List.cons_append, allReadable, allReadable, ih, Bool.and_assoc]

theorem outline?_indentation (n : Nat) : outline? (indentation n) = some [] :=
  outline?_text (by simp [indentation])

theorem outline?_feed : outline? ['\n'] = some [] := outline?_text (by decide)

theorem outline?_writeEmbedded {m : Markup} (h : (embedded m).readable = true) :
    outline? (writeEmbedded m) = some (embedded m).outline := by
  rw [readable, Option.isSome_iff_exists] at h
  obtain ⟨ms, hms⟩ := h
  rw [outline, hms]
  unfold writeEmbedded
  split
  · exact hms
  · simpa using outline?_append hms outline?_feed

/-- Children that stay on their element's line add no tags. -/
theorem outline?_inlines {cs : List Child} (h : allReadable cs = true)
    (hin : cs.all isInline = true) :
    outline? (cs.flatMap writeInline) = some [] ∧ outlineAll cs = [] := by
  induction cs with
  | nil => exact ⟨rfl, rfl⟩
  | cons c cs ih =>
    simp only [allReadable, Bool.and_eq_true] at h
    simp only [List.all_cons, Bool.and_eq_true] at hin
    obtain ⟨htext, houtline⟩ := ih h.2 hin.2
    have hc : outline? c.writeInline = some [] ∧ c.outline = [] := by
      cases c with
      | element | embedded => cases hin.1
      | text s => exact ⟨outline?_text (lt_not_mem_encode _ _), rfl⟩
      | literal s =>
        have hlt : '<' ∉ s.toList := by simpa [readable] using h.1
        exact ⟨outline?_text hlt, rfl⟩
    rw [List.flatMap_cons, outlineAll, hc.2, houtline]
    exact ⟨outline?_append hc.1 htext, rfl⟩

mutual

/-- A readable tree is written with its outline. -/
theorem outline?_write : ∀ c : Child, c.readable = true → ∀ n,
    outline? (c.write n) = some c.outline
  | element tag as cs, h, n => by
    simp only [readable, Bool.and_eq_true, List.all_eq_true] at h
    obtain ⟨⟨ht, has⟩, hcs⟩ := h
    have hstart := outline?_append (outline?_indentation n) (outline?_openingTag ht has)
    rw [write, outline]
    by_cases hv : isVoidTag tag = true
    · rw [if_pos hv, if_pos hv]
      simpa using outline?_append hstart outline?_feed
    rw [if_neg hv, if_neg hv]
    by_cases hin : cs.all isInline = true
    · obtain ⟨htext, houtline⟩ := outline?_inlines hcs hin
      have hend := outline?_append htext (outline?_closingTag ht)
      rw [if_pos hin, houtline]
      simpa using outline?_append (outline?_append hstart hend) outline?_feed
    · have hbody := outline?_append outline?_feed (outline?_writeAll cs hcs (n + 1))
      have hend := outline?_append (outline?_append hbody (outline?_indentation n))
        (outline?_closingTag ht)
      rw [if_neg hin]
      simpa using outline?_append (outline?_append hstart hend) outline?_feed
  | embedded m, h, _ => by
    rw [write]
    exact outline?_writeEmbedded h
  | text s, _, n => by
    have htext := outline?_text (lt_not_mem_encode .content s.toList)
    exact outline?_append (outline?_append (outline?_indentation n) htext) outline?_feed
  | literal s, h, n => by
    have htext := outline?_text (s := s.toList) (by simpa [readable] using h)
    exact outline?_append (outline?_append (outline?_indentation n) htext) outline?_feed

theorem outline?_writeAll : ∀ cs : List Child, allReadable cs = true → ∀ n,
    outline? (writeAll n cs) = some (outlineAll cs)
  | [], _, _ => rfl
  | c :: r, h, n => by
    simp only [allReadable, Bool.and_eq_true] at h
    exact outline?_append (outline?_write c h.1 n) (outline?_writeAll r h.2 n)

end

end Child

/-! ## Shapes of built elements -/

/-- What the outline of an element depends on. -/
structure Shape where
  tag : String
  names : List String
  /-- The outline of the children. -/
  inner : List Mark
  /-- Whether the children are readable. -/
  sound : Bool
deriving DecidableEq

namespace Shape

def outline (σ : Shape) : List Mark :=
  .opening σ.tag σ.names :: if isVoidTag σ.tag then [] else σ.inner ++ [.closing σ.tag]

def readable (σ : Shape) : Bool :=
  isTagName σ.tag && σ.names.all isAttributeName && σ.sound

def addNames (σ : Shape) (names : List String) : Shape := { σ with names := σ.names ++ names }

def addNamesIf (σ : Shape) (cond : Bool) (names : List String) : Shape :=
  if cond then σ.addNames names else σ

def addInner (σ : Shape) (marks : List Mark) (sound : Bool) : Shape :=
  { σ with inner := σ.inner ++ marks, sound := σ.sound && sound }

theorem addNames_nil (σ : Shape) : σ.addNames [] = σ := by
  simp [addNames]

theorem addNames_addNames (σ : Shape) (ns ms : List String) :
    (σ.addNames ns).addNames ms = σ.addNames (ns ++ ms) := by
  simp [addNames]

@[simp] theorem readable_mk {tag : String} {names : List String} (ht : isTagName tag = true)
    (hn : names.all isAttributeName = true) (marks : List Mark) :
    (Shape.mk tag names marks true).readable = true := by
  simp [readable, ht, hn]

@[simp] theorem readable_addNames (σ : Shape) {ns : List String}
    (h : ns.all isAttributeName = true) : (σ.addNames ns).readable = σ.readable := by
  simp only [readable, addNames, List.all_append, h, Bool.and_true]

@[simp] theorem readable_addNamesIf (σ : Shape) (cond : Bool) {ns : List String}
    (h : ns.all isAttributeName = true) : (σ.addNamesIf cond ns).readable = σ.readable := by
  cases cond
  · rfl
  · exact σ.readable_addNames h

@[simp] theorem readable_addInner (σ : Shape) (marks : List Mark) :
    (σ.addInner marks true).readable = σ.readable := by
  simp only [readable, addInner, Bool.and_true]

end Shape

namespace Element

def shape (e : Element) : Shape :=
  ⟨e.tag, e.attributes.map Attribute.name, Child.outlineAll e.children,
    Child.allReadable e.children⟩

theorem outline_toChild (e : Element) : e.toChild.outline = e.shape.outline := by
  rw [toChild, Child.outline]
  rfl

theorem readable_toChild (e : Element) : e.toChild.readable = e.shape.readable := by
  rw [toChild, Child.readable, Shape.readable, shape, List.all_map]
  rfl

theorem outline?_render {e : Element} (h : e.shape.readable = true) :
    outline? e.render.text.toList = some e.shape.outline := by
  rw [render, String.toList_ofList, ← outline_toChild]
  exact Child.outline?_write e.toChild (e.readable_toChild.trans h) 0

variable (e c : Element) (cond : Bool) (name value : String)

@[simp] theorem shape_new : (new name).shape = ⟨name, [], [], true⟩ := rfl

@[simp] theorem shape_attr : (e.attr name value).shape = e.shape.addNames [name] := by
  simp [shape, attr, Shape.addNames]

@[simp] theorem shape_attrIf :
    (e.attrIf cond name value).shape = e.shape.addNamesIf cond [name] := by
  cases cond
  · rfl
  · exact e.shape_attr name value

@[simp] theorem shape_cls : (e.cls name).shape = e.shape.addNamesIf (!name.isEmpty) ["class"] :=
  e.shape_attrIf _ "class" name

@[simp] theorem shape_flag : (e.flag name).shape = e.shape.addNames [name] := by
  simp [shape, flag, Shape.addNames]

@[simp] theorem shape_flagIf : (e.flagIf cond name).shape = e.shape.addNamesIf cond [name] := by
  cases cond
  · rfl
  · exact e.shape_flag name

theorem shape_append (d : Child) : (e.append d).shape = e.shape.addInner d.outline d.readable := by
  simp [shape, append, Shape.addInner, Child.outlineAll_append, Child.allReadable_append,
    Child.outlineAll, Child.allReadable]

@[simp] theorem shape_child :
    (e.child c).shape = e.shape.addInner c.shape.outline c.shape.readable := by
  rw [child, shape_append, outline_toChild, readable_toChild]

@[simp] theorem shape_text (s : String) : (e.text s).shape = e.shape := by
  rw [text, shape_append]
  simp [Shape.addInner, Child.outline, Child.readable]

theorem shape_literal {s : String} (h : '<' ∉ s.toList) : (e.literal s).shape = e.shape := by
  rw [literal, shape_append]
  simp [Shape.addInner, Child.outline, Child.readable, h]

theorem shape_embed {m : Markup} {ms : List Mark} (h : outline? m.text.toList = some ms) :
    (e.embed m).shape = e.shape.addInner ms true := by
  rw [embed, shape_append, Child.outline, Child.readable, h]
  rfl

theorem shape_childList (cs : List Element) :
    (e.childList cs).shape = e.shape.addInner (cs.flatMap fun c => c.shape.outline)
      (cs.all fun c => c.shape.readable) := by
  rw [childList_eq_foldl]
  induction cs generalizing e with
  | nil => simp [Shape.addInner]
  | cons c cs ih =>
    rw [List.foldl_cons, ih, shape_child]
    simp [Shape.addInner, Bool.and_assoc]

end Element

end MarketingForm
