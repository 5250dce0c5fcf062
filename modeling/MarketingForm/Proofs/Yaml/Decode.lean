import Mathlib.Data.List.Forall2
import MarketingForm.Proofs.Yaml.Scalars
import MarketingForm.Proofs.Yaml.Words
import MarketingForm.Yaml.Content

/-!
# What decoders yield

A decoder that meets the nodes it was made for yields a value whatever document they stand in, and
follows no alias (`Yields`, `Decodes`). Collections are decoded as their children are: items one by one
(`decodes_sequenceOf`), entries by a state that is handed on (`Gathers`, `decodes_mappingOf`). Untyped
content keeps texts apart from everything else (`Content.decodes_text`).
-/

namespace MarketingForm.Yaml

variable {α β σ κ : Type}

/-- A reading gives a value in every document and follows no alias. -/
def Yields (read : Decode α) (x : α) : Prop := ∀ d count, read d count = .ok (x, count)

theorem yields_pure (x : α) : Yields (pure x) x := fun _ _ => rfl

theorem Yields.bind {read : Decode α} {f : α → Decode β} {x : α} {y : β} (h : Yields read x)
    (h' : Yields (f x) y) : Yields (read >>= f) y := by
  intro d count
  show (read d count >>= fun p => f p.1 d p.2) = _
  rw [h d count]
  exact h' d count

theorem Yields.placedAt {read : Decode α} {x : α} (h : Yields read x) (s : Spot) (m : Mark) :
    Yields (placedAt s m read) x := by
  intro d count
  show (read d count).mapError _ = _
  rw [h d count]
  rfl

/-- A decoder reads a value from a node wherever some more collections may nest. -/
def Decodes (decode : Decoder α) (depth : Nat) (n : Node) (x : α) : Prop :=
  ∀ s : Spot, depth ≤ s.depth → Yields (decode s n) x

theorem Decodes.mono {decode : Decoder α} {depth depth' : Nat} {n : Node} {x : α}
    (h : Decodes decode depth n x) (hle : depth ≤ depth') : Decodes decode depth' n x :=
  fun s hs => h s (Nat.le_trans hle hs)

/-! ## Texts -/

theorem decodes_textOf (expected : String) (m : Mark) (p : Props) (style : Style) (text : List Char) :
    Decodes (textOf expected) 0 (.scalar m p style text) (String.ofList text) := by
  intro s _
  exact (yields_pure (Node.scalar m p style text)).bind ((yields_pure _).placedAt s m)

/-- The name of a field that has not been given. -/
theorem decodes_fieldName {given : σ → String → Bool} {acc : σ} {name : List Char} (m : Mark)
    (p : Props) (style : Style) (h : given acc (String.ofList name) = false) :
    Decodes (fieldName given acc) 0 (.scalar m p style name) (String.ofList name) := by
  intro s hs
  refine (decodes_textOf "field identifier" m p style name s hs).bind ?_
  rw [h, if_neg Bool.false_ne_true]
  exact yields_pure _

/-! ## Collections -/

theorem yields_nested {depth : Nat} {s : Spot} (m : Mark) {read : Spot → Decode α} {x : α}
    (hs : depth + 1 ≤ s.depth) (h : ∀ s : Spot, depth ≤ s.depth → Yields (read s) x) :
    Yields (nested s m read) x := by
  unfold nested
  split
  · omega
  · rename_i inner hinner
    exact h { s with depth := inner } (Nat.le_of_succ_le_succ (hinner ▸ hs))

theorem yields_itemsFrom {decode : Decoder α} {depth : Nat} {ns : List Node} {xs : List α}
    (h : List.Forall₂ (Decodes decode depth) ns xs) {s : Spot} (hs : depth ≤ s.depth) (i : Nat) :
    Yields (itemsFrom decode s true i ns) xs := by
  induction h generalizing i with
  | nil => exact yields_pure []
  | cons hx _ ih => exact (hx (s.item i) hs).bind ((ih (i + 1)).bind (yields_pure _))

theorem decodes_sequenceOf {decode : Decoder α} {depth : Nat} {ns : List Node} {xs : List α}
    (h : List.Forall₂ (Decodes decode depth) ns xs) (m : Mark) (p : Props) :
    Decodes (sequenceOf decode) (depth + 1) (.sequence m p ns true) xs := by
  intro s hs
  have hitems := yields_nested m hs fun _ hs => yields_itemsFrom h hs 0
  exact (yields_pure (Node.sequence m p ns true)).bind (hitems.placedAt s m)

/-- The entries among some nodes take a state to another one. -/
inductive Gathers (decode : EntryDecoder σ κ) (depth : Nat) : σ → List Node → σ → Prop
  | nil (acc : σ) : Gathers decode depth acc [] acc
  | cons {acc acc' acc'' : σ} {key : κ} {k v : Node} {r : List Node}
      (hk : Decodes (decode.key acc) depth k key) (hv : Decodes (decode.value key acc) depth v acc')
      (hr : Gathers decode depth acc' r acc'') : Gathers decode depth acc (k :: v :: r) acc''

theorem Gathers.yields_entriesFrom {decode : EntryDecoder σ κ} {depth : Nat} {acc acc' : σ}
    {ns : List Node} (h : Gathers decode depth acc ns acc') {s : Spot} (hs : depth ≤ s.depth) :
    Yields (entriesFrom decode s true acc ns) acc' := by
  induction h with
  | nil acc => exact yields_pure acc
  | cons hk hv _ ih => exact (hk s hs).bind ((hv (s.child _) hs).bind ih)

theorem decodes_mappingOf {decode : EntryDecoder σ κ} {depth : Nat} {initial acc : σ}
    {finish : σ → Decode α} {x : α} {ns : List Node} (h : Gathers decode depth initial ns acc)
    (hfinish : Yields (finish acc) x) (expected : String) (m : Mark) (p : Props) :
    Decodes (mappingOf expected decode initial finish) (depth + 1) (.mapping m p ns true) x := by
  intro s hs
  have hentries := yields_nested m hs fun _ hs => (h.yields_entriesFrom hs).bind hfinish
  exact (yields_pure (Node.mapping m p ns true)).bind (hentries.placedAt s m)

/-! ## Untyped content -/

namespace Content

theorem scalarMeaning_bare (style : Style) (text : List Char) :
    scalarMeaning .bare style text = .ok (if style = .plain then meaning text else .text text) := by
  have hplain : (style = .plain ∧ (Props.bare.tag.isNone || Props.bare.localTag?.isSome) = true) ↔
      style = .plain := and_iff_left rfl
  unfold scalarMeaning
  rw [if_neg (by nofun), if_neg (by nofun), if_neg (by nofun), if_neg (by nofun)]
  simp only [hplain]
  split <;> rfl

theorem decodes_scalar {c : Content} {style : Style} {text : List Char}
    (h : Yields (ofMeaning (if style = .plain then meaning text else .text text)) c) (depth : Nat)
    (m : Mark) : Decodes (decodeTo depth) 0 (.scalar m .bare style text) c := by
  have hread : ∀ inner s, Yields (decodeWith inner s (.scalar m .bare style text)) c := by
    intro inner s
    refine (yields_pure (Node.scalar m .bare style text)).bind (Yields.placedAt ?_ s m)
    rw [if_neg (show ¬ ((Node.scalar m .bare style text).localTag?.isSome = true) from nofun)]
    simp only [scalarMeaning_bare]
    exact h
  intro s _
  cases depth with
  | zero => exact hread none s
  | succ depth => exact hread (some (decodeTo depth)) s

/-- A text stays a text in the style in which it is written. -/
theorem decodes_text (s : List Char) (depth : Nat) (m : Mark) :
    Decodes (decodeTo depth) 0 (.scalar m .bare (styleOf s) s) (.text (String.ofList s)) := by
  have hmeaning : (if styleOf s = .plain then meaning s else .text s) = .text s := by
    split
    · rename_i hplain
      exact meaning_of_readsAsText (styleOf_plain hplain).1
    · rfl
  refine decodes_scalar ?_ depth m
  rw [hmeaning]
  exact yields_pure _

theorem decodes_sequence {depth : Nat} {ns : List Node} {cs : List Content}
    (h : List.Forall₂ (Decodes (decodeTo depth) 0) ns cs) (m : Mark) :
    Decodes (decodeTo (depth + 1)) 0 (.sequence m .bare ns true) (.sequence cs) := by
  intro s hs
  have hitems : Yields (itemsFrom (decodeTo depth) s true 0 ns >>= fun xs => pure (sequence xs))
      (.sequence cs) := (yields_itemsFrom h hs 0).bind (yields_pure _)
  exact (yields_pure (Node.sequence m .bare ns true)).bind (hitems.placedAt s m)

theorem decodes_mapping {depth : Nat} {ns : List Node} {es : List (Content × Content)}
    (h : Gathers (entryDecoder (decodeTo depth)) 0 [] ns es) (m : Mark) :
    Decodes (decodeTo (depth + 1)) 0 (.mapping m .bare ns true) (.mapping es.reverse) := by
  intro s hs
  have hentries : Yields (entriesFrom (entryDecoder (decodeTo depth)) s true [] ns >>=
      fun es => pure (mapping es.reverse)) (.mapping es.reverse) :=
    (h.yields_entriesFrom hs).bind (yields_pure _)
  exact (yields_pure (Node.mapping m .bare ns true)).bind (hentries.placedAt s m)

/-- The next entry is put before those that have been read. -/
theorem gathers_cons {depth : Nat} {k v : Node} {c d : Content} {es es' : List (Content × Content)}
    {ns : List Node} (hk : Decodes (decodeTo depth) 0 k c) (hv : Decodes (decodeTo depth) 0 v d)
    (hr : Gathers (entryDecoder (decodeTo depth)) 0 ((c, d) :: es) ns es') :
    Gathers (entryDecoder (decodeTo depth)) 0 es (k :: v :: ns) es' :=
  .cons hk (fun s hs => (hv s hs).bind (yields_pure _)) hr

theorem decodes_of_depth {depth : Nat} {n : Node} {c : Content}
    (h : ∀ more, Decodes (decodeTo (depth + more)) 0 n c) : Decodes decode depth n c := by
  intro s hs
  obtain ⟨more, hmore⟩ := Nat.le.dest hs
  have hread := h more s (Nat.zero_le _)
  rwa [hmore] at hread

end Content

end MarketingForm.Yaml
