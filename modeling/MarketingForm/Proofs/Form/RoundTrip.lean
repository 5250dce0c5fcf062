import MarketingForm.Form.File
import MarketingForm.Proofs.Files.Run
import MarketingForm.Proofs.Yaml.Decode
import MarketingForm.Proofs.Yaml.Nodes

/-!
# Forms are read back

The text of a form file is read as the form that it was written for (`ofYaml_toYaml`): the nodes of the
text show the blocks of the form, and whatever shows the block of a value, of a field or of a form is
decoded as that value, field or form. So a form that has been saved is loaded again.
-/

namespace MarketingForm

open Yaml
open Yaml.Block (ItemsShow EntriesShow ItemsHavePlainWords EntriesHavePlainWords)

/-! ## Words -/

theorem itemsHavePlainWords_map {α : Type} {f : α → Block} (h : ∀ x, (f x).HasPlainWords)
    (xs : List α) : ItemsHavePlainWords (xs.map f) := by
  induction xs with
  | nil => simp only [List.map_nil, ItemsHavePlainWords]
  | cons x xs ih => simp only [List.map_cons, ItemsHavePlainWords, h x, ih, and_self]

theorem hasPlainWords_choice (c : Choice) : c.toBlock.HasPlainWords := by
  simp only [Choice.toBlock, Block.HasPlainWords, EntriesHavePlainWords, and_self]

theorem hasPlainWords_value (v : Value) : v.toBlock.HasPlainWords := by
  cases v with
  | flag b =>
    rw [Value.toBlock, Block.HasPlainWords]
    exact allowsPlain_boolean b
  | integer n =>
    rw [Value.toBlock, Block.HasPlainWords]
    exact allowsPlain_decimal n.toInt
  | text s => simp only [Value.toBlock, Block.HasPlainWords]
  | choices cs =>
    rw [Value.toBlock, Block.HasPlainWords]
    exact itemsHavePlainWords_map hasPlainWords_choice cs

theorem hasPlainWords_properties (ps : Properties) : (Properties.toBlock ps).HasPlainWords := by
  rw [Properties.toBlock, Block.HasPlainWords]
  induction ps.entries with
  | nil => simp only [List.map_nil, EntriesHavePlainWords]
  | cons e es ih => simp only [List.map_cons, EntriesHavePlainWords, hasPlainWords_value, ih, and_self]

theorem hasPlainWords_field (f : Field) : f.toBlock.HasPlainWords := by
  simp only [Field.toBlock, Block.HasPlainWords, EntriesHavePlainWords, hasPlainWords_properties,
    and_self]

theorem Form.entriesHavePlainWords (form : Form) : EntriesHavePlainWords form.members := by
  simp only [Form.members, Block.HasPlainWords, EntriesHavePlainWords,
    itemsHavePlainWords_map hasPlainWords_field, and_self]

/-! ## Nodes -/

theorem forall₂_of_itemsShow {α : Type} {f : α → Block} {P : Node → α → Prop}
    (h : ∀ x n, (f x).Shows n → P n x) {xs : List α} {ns : List Node} (hshow : ItemsShow (xs.map f) ns) :
    List.Forall₂ P ns xs := by
  induction xs generalizing ns with
  | nil =>
    rw [List.map_nil, ItemsShow] at hshow
    subst hshow
    exact .nil
  | cons x xs ih =>
    rw [List.map_cons, ItemsShow] at hshow
    obtain ⟨n, r, rfl, hx, hr⟩ := hshow
    exact .cons (h x n hx) (ih hr)

theorem forall₂_map_right {α β : Type} {R : Node → β → Prop} {f : α → β} {ns : List Node}
    {xs : List α} (h : List.Forall₂ (fun n x => R n (f x)) ns xs) : List.Forall₂ R ns (xs.map f) := by
  induction h with
  | nil => exact .nil
  | cons hx _ ih => exact .cons hx ih

theorem decodes_text {n : Node} {s : String} (expected : String) (h : (Block.text s.toList).Shows n) :
    Decodes (textOf expected) 0 n s := by
  rw [Block.Shows] at h
  obtain ⟨m, rfl⟩ := h
  have := decodes_textOf expected m .bare (styleOf s.toList) s.toList
  rwa [String.ofList_toList] at this

/-! ## Values -/

/-- The content of a choice. -/
def Choice.content (c : Choice) : Content :=
  .mapping [(.text "value", .text c.value), (.text "label", .text c.label)]

/-- The content of a value. -/
def Value.content : Value → Content
  | flag b => .boolean b
  | integer n => .integer (n.toInt < 0) n.toInt
  | text s => .text s
  | choices cs => .sequence (cs.map Choice.content)

theorem Choice.ofContent?_content (c : Choice) : Choice.ofContent? c.content = some c := rfl

theorem Value.ofContent?_content (v : Value) : Value.ofContent? v.content = some v := by
  cases v with
  | flag b => rfl
  | integer n =>
    have hmin : Int64.minValue.toInt ≤ n.toInt := Int64.minValue_le_toInt n
    have hmax : n.toInt ≤ Int64.maxValue.toInt := Int64.toInt_le n
    simp only [content, ofContent?, hmin, hmax, and_self, ↓reduceIte, Int64.ofInt_toInt]
  | text s => rfl
  | choices cs =>
    have hitems : (cs.map Choice.content).mapM Choice.ofContent? = some cs := by
      induction cs with
      | nil => rfl
      | cons c cs ih => simp [Choice.ofContent?_content, ih]
    simp only [content, ofContent?, hitems, Option.map_some]

theorem decodes_content_text {n : Node} {s : String} (h : (Block.text s.toList).Shows n) (depth : Nat) :
    Decodes (Content.decodeTo depth) 0 n (.text s) := by
  rw [Block.Shows] at h
  obtain ⟨m, rfl⟩ := h
  have := Content.decodes_text s.toList depth m
  rwa [String.ofList_toList] at this

theorem decodes_content_key (k : String) (m : Mark) (depth : Nat) :
    Decodes (Content.decodeTo depth) 0 (.scalar m .bare (styleOf k.toList) k.toList) (.text k) := by
  refine decodes_content_text ?_ depth
  rw [Block.Shows]
  exact ⟨m, rfl⟩

theorem decodes_choice (c : Choice) (n : Node) (h : c.toBlock.Shows n) (depth : Nat) :
    Decodes (Content.decodeTo (depth + 1)) 0 n c.content := by
  simp only [Choice.toBlock, Block.Shows, EntriesShow] at h
  obtain ⟨m, _, rfl, m₁, n₁, _, rfl, h₁, m₂, n₂, _, rfl, h₂, rfl⟩ := h
  have hvalue : Decodes (Content.decodeTo depth) 0 n₁ (.text c.value) :=
    decodes_content_text (by rwa [Block.Shows]) depth
  have hlabel : Decodes (Content.decodeTo depth) 0 n₂ (.text c.label) :=
    decodes_content_text (by rwa [Block.Shows]) depth
  exact Content.decodes_mapping (Content.gathers_cons (decodes_content_key "value" m₁ depth) hvalue
    (Content.gathers_cons (decodes_content_key "label" m₂ depth) hlabel (.nil _))) m

theorem decodes_value_content (v : Value) (n : Node) (h : v.toBlock.Shows n) :
    Decodes Content.decode 2 n v.content := by
  refine Content.decodes_of_depth fun more => ?_
  cases v with
  | flag b =>
    rw [Value.toBlock, Block.Shows] at h
    obtain ⟨m, rfl⟩ := h
    refine Content.decodes_scalar ?_ (2 + more) m
    rw [if_pos rfl, meaning_boolean]
    exact yields_pure _
  | integer i =>
    rw [Value.toBlock, Block.Shows] at h
    obtain ⟨m, rfl⟩ := h
    refine Content.decodes_scalar ?_ (2 + more) m
    rw [if_pos rfl, meaning_decimal ⟨Int64.le_toInt i, Int64.toInt_lt i⟩]
    exact yields_pure _
  | text s => exact decodes_content_text h (2 + more)
  | choices cs =>
    rw [Value.toBlock, Block.Shows] at h
    obtain ⟨m, ns, rfl, hshow⟩ := h
    have hdepth : 2 + more = more + 1 + 1 := by omega
    rw [hdepth]
    exact Content.decodes_sequence
      (forall₂_map_right (forall₂_of_itemsShow (fun c n hc => decodes_choice c n hc more) hshow)) m

theorem decodes_value (v : Value) (n : Node) (h : v.toBlock.Shows n) : Decodes Value.decode 2 n v := by
  intro s hs
  refine (decodes_value_content v n h s hs).bind ?_
  rw [Value.ofContent?_content]
  exact yields_pure v

/-! ## Bags -/

/-- The entries of a mapping are assigned behind those that a bag holds already. -/
theorem gathers_bag {α : Type} {decode : Decoder α} {depth : Nat} {f : α → Block}
    (h : ∀ x n, (f x).Shows n → Decodes decode depth n x) (es : List (String × α)) (acc b : Bag α)
    (hb : b.entries = acc.entries ++ es) {ns : List Node}
    (hshow : EntriesShow (es.map fun e => (e.1.toList, f e.2)) ns) :
    Gathers ⟨fun _ => text, fun name (b : Bag α) s n => do
      let v ← decode s n
      pure (b.insert name v)⟩ depth acc ns b := by
  induction es generalizing acc ns with
  | nil =>
    rw [List.map_nil, EntriesShow] at hshow
    rw [List.append_nil] at hb
    subst hshow
    rw [Bag.ext hb]
    exact .nil acc
  | cons e es ih =>
    obtain ⟨name, v⟩ := e
    rw [List.map_cons, EntriesShow] at hshow
    obtain ⟨m, n, r, rfl, hv, hr⟩ := hshow
    have hnew : name ∉ acc.entries.map Prod.fst := by
      have hnodup := b.nodup
      rw [hb, List.map_append, List.nodup_append] at hnodup
      intro hmem
      exact hnodup.2.2 name hmem name (by simp) rfl
    have hassign : (acc.insert name v).entries = acc.entries ++ [(name, v)] := by
      rw [Bag.entries_insert, assign_of_not_mem v hnew]
    have hkey : (Block.text name.toList).Shows
        (.scalar m .bare (styleOf name.toList) name.toList) := by
      rw [Block.Shows]
      exact ⟨m, rfl⟩
    refine .cons ((decodes_text "a string" hkey).mono (Nat.zero_le depth))
      (fun s hs => (h v n hv s hs).bind (yields_pure (acc.insert name v)))
      (ih (acc.insert name v) ?_ hr)
    rw [hassign, hb, List.append_assoc]
    rfl

theorem decodes_properties (ps : Properties) (n : Node) (h : (Properties.toBlock ps).Shows n) :
    Decodes (Bag.decode Value.decode) 3 n ps := by
  rw [Properties.toBlock, Block.Shows] at h
  obtain ⟨m, ns, rfl, hshow⟩ := h
  exact decodes_mappingOf (gathers_bag decodes_value ps.entries .empty ps rfl hshow) (yields_pure ps)
    "a map" m .bare

/-! ## Fields and forms -/

/-- The next member of a record is read by the name of its key. -/
theorem gathers_member {σ : Type} {given : σ → String → Bool} {read : String → σ → Decoder σ}
    {depth : Nat} {acc acc' acc'' : σ} {name : String} {n : Node} {ns : List Node} (m : Mark)
    (hname : given acc name = false) (hn : Decodes (read name acc) depth n acc')
    (hr : Gathers ⟨fieldName given, read⟩ depth acc' ns acc'') :
    Gathers ⟨fieldName given, read⟩ depth acc
      (.scalar m .bare (styleOf name.toList) name.toList :: n :: ns) acc'' := by
  have hkey : Decodes (fieldName given acc) 0 (.scalar m .bare (styleOf name.toList) name.toList)
      (String.ofList name.toList) :=
    decodes_fieldName m .bare (styleOf name.toList) (by rwa [String.ofList_toList])
  rw [String.ofList_toList] at hkey
  exact .cons (hkey.mono (Nat.zero_le depth)) hn hr

theorem decodes_field (f : Field) (n : Node) (h : f.toBlock.Shows n) : Decodes Field.decode 4 n f := by
  simp only [Field.toBlock, Block.Shows, EntriesShow] at h
  obtain ⟨m, _, rfl, m₁, n₁, _, rfl, h₁, m₂, n₂, _, rfl, h₂, m₃, n₃, _, rfl, h₃, rfl⟩ := h
  have hid : Decodes (FieldDraft.readMember "id" .empty) 3 n₁ ⟨some f.id, none, none⟩ := by
    intro s hs
    exact (decodes_text "a string" (by rwa [Block.Shows]) s (Nat.zero_le _)).bind (yields_pure _)
  have htype : Decodes (FieldDraft.readMember "type" ⟨some f.id, none, none⟩) 3 n₂
      ⟨some f.id, some f.typeKey, none⟩ := by
    intro s hs
    exact (decodes_text "a string" (by rwa [Block.Shows]) s (Nat.zero_le _)).bind (yields_pure _)
  have hprops : Decodes (FieldDraft.readMember "props" ⟨some f.id, some f.typeKey, none⟩) 3 n₃
      ⟨some f.id, some f.typeKey, some f.props⟩ := by
    intro s hs
    exact (decodes_properties f.props n₃ h₃ s hs).bind (yields_pure _)
  exact decodes_mappingOf (gathers_member m₁ rfl hid (gathers_member m₂ rfl htype
    (gathers_member m₃ rfl hprops (.nil _)))) (yields_pure f) "struct FieldInstance" m .bare

theorem decodes_audience (a : Audience) (n : Node) (h : (Block.text a.name.toList).Shows n) :
    Decodes Audience.decode 0 n a := by
  rw [Block.Shows] at h
  obtain ⟨m, rfl⟩ := h
  have hword : Audience.ofWord a.name.toList = pure a := by cases a <;> rfl
  intro s _
  refine (yields_pure _).bind ?_
  have hread : Yields (Audience.ofWord a.name.toList) a := hword ▸ yields_pure a
  exact hread.placedAt s m

theorem decodes_form (form : Form) (n : Node) (h : (Block.mapping form.members).Shows n) :
    Decodes Form.decode 6 n form := by
  simp only [Form.members, Block.Shows, EntriesShow] at h
  obtain ⟨m, _, rfl, m₁, n₁, _, rfl, h₁, m₂, n₂, _, rfl, h₂, m₃, n₃, _, rfl, h₃, rfl⟩ := h
  obtain ⟨m₄, ns, rfl, hshow⟩ := h₃
  have htitle : Decodes (FormDraft.readMember "title" .empty) 5 n₁ ⟨some form.title, none, none⟩ := by
    intro s hs
    exact (decodes_text "a string" (by rwa [Block.Shows]) s (Nat.zero_le _)).bind (yields_pure _)
  have haudience : Decodes (FormDraft.readMember "audience" ⟨some form.title, none, none⟩) 5 n₂
      ⟨some form.title, some form.audience, none⟩ := by
    intro s hs
    exact (decodes_audience form.audience n₂ (by rwa [Block.Shows]) s (Nat.zero_le _)).bind
      (yields_pure _)
  have hfields : Decodes (FormDraft.readMember "fields" ⟨some form.title, some form.audience, none⟩)
      5 (.sequence m₄ .bare ns true) ⟨some form.title, some form.audience, some form.fields⟩ := by
    intro s hs
    exact (decodes_sequenceOf (forall₂_of_itemsShow decodes_field hshow) m₄ .bare s hs).bind
      (yields_pure _)
  exact decodes_mappingOf (gathers_member m₁ rfl htitle (gathers_member m₂ rfl haudience
    (gathers_member m₃ rfl hfields (.nil _)))) (yields_pure form) "struct FormDocument" m .bare

namespace Form

/-- The text of a form file is read as the form that it was written for. -/
theorem ofYaml_toYaml (form : Form) : ofYaml form.toYaml = .ok form := by
  have hne : form.members ≠ [] := List.cons_ne_nil _ _
  obtain ⟨n, hparse, hshow⟩ := parse_writeDocument hne form.entriesHavePlainWords
  have hread : Form.decode .root n ⟨some n, true⟩ 0 = .ok (form, 0) :=
    decodes_form form n hshow .root (by decide) ⟨some n, true⟩ 0
  rw [ofYaml, toYaml, decodeText, hparse, Document.decode]
  simp only [hread, ↓reduceIte]

end Form

end MarketingForm
