import Mathlib.Data.List.Induction
import Mathlib.Data.List.Nodup
import MarketingForm.Form.Bag

/-!
# Bags as ordered maps

A bag is determined by its names in order and by their values (`Bag.ext_get?`). A name has the place of
its first assignment and the value of its last one (`Bag.names_assignAll`, `Bag.get?_assignAll`), so
overlays are a monoid: the names of the lower bag keep their places, the new ones of the upper bag come
behind them, and the values of the upper bag win (`Bag.entries_overlay`). Filling adds only what is
missing (`Bag.entries_fill`).
-/

namespace MarketingForm

theorem lookup_of_mem {α : Type} {es : List (String × α)} (hes : (es.map Prod.fst).Nodup)
    {e : String × α} (h : e ∈ es) : es.lookup e.1 = some e.2 := by
  induction es with
  | nil => cases h
  | cons d es ih =>
    rw [List.map_cons, List.nodup_cons] at hes
    rw [lookup_entry]
    rcases List.mem_cons.1 h with rfl | h
    · exact if_pos rfl
    · have hne : e.1 ≠ d.1 := fun heq => hes.1 (heq ▸ List.mem_map_of_mem h)
      rw [if_neg hne, ih hes.2 h]

theorem lookup_reverse {α : Type} {es : List (String × α)} (hes : (es.map Prod.fst).Nodup)
    (name : String) : es.reverse.lookup name = es.lookup name := by
  have hreverse : (es.reverse.map Prod.fst).Nodup := by
    rw [List.map_reverse]
    exact List.nodup_reverse.2 hes
  cases h : es.lookup name with
  | none =>
    rw [List.lookup_eq_none_iff] at h ⊢
    simpa using h
  | some v =>
    obtain ⟨before, after, rfl, -⟩ := List.lookup_eq_some_iff.1 h
    exact lookup_of_mem (e := (name, v)) hreverse (by simp)

theorem eraseDups_of_nodup {names : List String} (h : names.Nodup) : names.eraseDups = names := by
  induction names with
  | nil => rfl
  | cons name names ih =>
    rw [List.nodup_cons] at h
    have hkept : (names.filter fun n => !n == name) = names := by
      refine List.filter_eq_self.2 fun n hn => ?_
      simpa using fun heq : n = name => h.1 (heq ▸ hn)
    rw [List.eraseDups_cons, hkept, ih h.2]

namespace Bag

variable {α : Type}

/-! ## Names and values -/

theorem contains_iff (b : Bag α) (name : String) : b.contains name = true ↔ name ∈ b.names := by
  unfold contains get? names
  induction b.entries with
  | nil => simp
  | cons e es ih =>
    obtain ⟨k, v⟩ := e
    rw [lookup_entry, List.map_cons, List.mem_cons, ← ih]
    split
    · rename_i h
      simp [h]
    · rename_i h
      simp [h]

theorem get?_of_mem {b : Bag α} {e : String × α} (h : e ∈ b.entries) : b.get? e.1 = some e.2 :=
  lookup_of_mem b.nodup h

/-- The entries are the names with their values. -/
theorem entries_eq (b : Bag α) :
    b.entries = b.names.filterMap fun name => (b.get? name).map fun v => (name, v) := by
  have hentry : ∀ e ∈ b.entries, (b.get? e.1).map (fun v => (e.1, v)) = some e := by
    intro e he
    rw [get?_of_mem he, Option.map_some]
  rw [names, List.filterMap_map]
  exact ((List.filterMap_congr hentry).trans List.filterMap_some).symm

/-- Bags with the same names in the same order and with the same values are equal. -/
theorem ext_get? {b c : Bag α} (hnames : b.names = c.names) (hget : ∀ name, b.get? name = c.get? name) :
    b = c := by
  refine Bag.ext ?_
  rw [b.entries_eq, c.entries_eq, hnames]
  simp only [hget]

theorem contains_insert (b : Bag α) (name key : String) (v : α) :
    (b.insert name v).contains key = (key == name || b.contains key) := by
  unfold contains
  rw [get?_insert]
  by_cases h : key = name <;> simp [h]

theorem entries_insert_new {b : Bag α} {name : String} (h : b.contains name = false) (v : α) :
    (b.insert name v).entries = b.entries ++ [(name, v)] := by
  refine assign_of_not_mem v fun hmem => ?_
  rw [(b.contains_iff name).2 hmem] at h
  cases h

theorem get?_insert_comm {name name' : String} (hne : name ≠ name') (b : Bag α) (v v' : α)
    (key : String) :
    ((b.insert name v).insert name' v').get? key = ((b.insert name' v').insert name v).get? key := by
  simp only [get?_insert]
  by_cases hkey : key = name
  · have hkey' : key ≠ name' := hkey ▸ hne
    simp [hkey, hne]
  · simp [hkey]

/-! ## Filling -/

/-- Only the entries whose names are missing are added, in their order. -/
theorem entries_fill (b defaults : Bag α) :
    (b.fill defaults).entries = b.entries ++ defaults.entries.filter fun e => !b.contains e.1 := by
  obtain ⟨es, hes⟩ := defaults
  unfold fill
  simp only
  induction es generalizing b with
  | nil => simp
  | cons e es ih =>
    rw [List.map_cons, List.nodup_cons] at hes
    rw [List.foldl_cons, ih _ hes.2]
    by_cases he : b.contains e.1 = true
    · simp [he]
    · rw [Bool.not_eq_true] at he
      -- the names of the entries to come differ from the one that has just been added
      have hrest : (es.filter fun x => !(b.insert e.1 e.2).contains x.1) =
          es.filter fun x => !b.contains x.1 := by
        refine List.filter_congr fun x hx => ?_
        have hne : x.1 ≠ e.1 := fun h => hes.1 (h ▸ List.mem_map_of_mem hx)
        rw [contains_insert, beq_eq_false_iff_ne.2 hne, Bool.false_or]
      rw [he, if_neg Bool.false_ne_true, hrest, entries_insert_new he]
      simp [he]

theorem contains_fill (b : Bag α) {defaults : Bag α} {e : String × α} (h : e ∈ defaults.entries) :
    (b.fill defaults).contains e.1 = true := by
  rw [contains_iff, names, entries_fill, List.map_append, List.mem_append]
  by_cases he : b.contains e.1 = true
  · exact .inl ((b.contains_iff e.1).1 he)
  · exact .inr (List.mem_map_of_mem (List.mem_filter.2 ⟨h, by simpa using he⟩))

theorem fill_fill (b defaults : Bag α) : (b.fill defaults).fill defaults = b.fill defaults := by
  have hnone : (defaults.entries.filter fun e => !(b.fill defaults).contains e.1) = [] := by
    refine List.filter_eq_nil_iff.2 fun e he => ?_
    simp [contains_fill b he]
  exact Bag.ext (by rw [entries_fill, hnone, List.append_nil])

theorem get?_insert_missing (b : Bag α) (e : String × α) (name : String) :
    (if b.contains e.1 then b else b.insert e.1 e.2).get? name =
      (b.get? name).or (if name = e.1 then some e.2 else none) := by
  by_cases hname : name = e.1
  · subst hname
    cases hvalue : b.get? e.1 <;> simp [contains, hvalue, get?_insert]
  · rw [if_neg hname, Option.or_none]
    split
    · rfl
    · rw [get?_insert, if_neg hname]

/-- A name that is missing holds its default. -/
theorem get?_fill (b defaults : Bag α) (name : String) :
    (b.fill defaults).get? name = (b.get? name).or (defaults.get? name) := by
  unfold fill
  rw [get?.eq_def defaults]
  induction defaults.entries generalizing b with
  | nil => simp
  | cons e es ih =>
    rw [List.foldl_cons, ih, get?_insert_missing, lookup_entry, Option.or_assoc]
    split <;> rfl

/-! ## Assignments in turn -/

/-- The bag after some assignments. -/
def assignAll (b : Bag α) (es : List (String × α)) : Bag α := es.foldl (fun b e => b.insert e.1 e.2) b

theorem assignAll_concat (b : Bag α) (es : List (String × α)) (e : String × α) :
    b.assignAll (es ++ [e]) = (b.assignAll es).insert e.1 e.2 :=
  List.foldl_concat ..

/-- A name holds what was assigned to it last. -/
theorem get?_assignAll (b : Bag α) (es : List (String × α)) (name : String) :
    (b.assignAll es).get? name = (es.reverse.lookup name).or (b.get? name) := by
  induction es using List.reverseRecOn with
  | nil => rfl
  | append_singleton es e ih =>
    obtain ⟨k, v⟩ := e
    rw [assignAll_concat, get?_insert, ih, List.reverse_concat, lookup_entry]
    split <;> rfl

/-- New names come behind the old ones, in the order of their first assignments. -/
theorem names_assignAll (b : Bag α) (es : List (String × α)) :
    (b.assignAll es).names = b.names ++ (es.map Prod.fst).eraseDups.filter (· ∉ b.names) := by
  induction es using List.reverseRecOn with
  | nil => simp [assignAll]
  | append_singleton es e ih =>
    have hinsert (c : Bag α) : (c.insert e.1 e.2).names =
        if e.1 ∈ c.names then c.names else c.names ++ [e.1] := map_fst_assign e.1 e.2 c.entries
    have hlast : ([e.1].removeAll (es.map Prod.fst)).eraseDups =
        if e.1 ∈ es.map Prod.fst then [] else [e.1] := by
      by_cases h : e.1 ∈ es.map Prod.fst <;> simp [List.removeAll, h, List.eraseDups_cons]
    rw [assignAll_concat, hinsert, ih, List.map_append, List.map_singleton, List.eraseDups_append, hlast]
    by_cases hold : e.1 ∈ b.names <;> by_cases hassigned : e.1 ∈ es.map Prod.fst
    all_goals simp only [List.mem_append, List.mem_filter, List.mem_eraseDups, List.filter_append, hold,
      hassigned]
    all_goals simp [hold]

/-! ## Overlays -/

theorem overlay_eq_assignAll (b upper : Bag α) : b.overlay upper = b.assignAll upper.entries := rfl

/-- The names of the lower bag keep their places; the new ones of the upper bag come behind them. -/
theorem names_overlay (b upper : Bag α) :
    (b.overlay upper).names = b.names ++ upper.names.filter (· ∉ b.names) := by
  rw [overlay_eq_assignAll, names_assignAll, eraseDups_of_nodup upper.nodup]
  rfl

/-- The values of the upper bag win. -/
theorem get?_overlay (b upper : Bag α) (name : String) :
    (b.overlay upper).get? name = (upper.get? name).or (b.get? name) := by
  rw [overlay_eq_assignAll, get?_assignAll, lookup_reverse upper.nodup]
  rfl

theorem mem_names_overlay {b upper : Bag α} {name : String} :
    name ∈ (b.overlay upper).names ↔ name ∈ b.names ∨ name ∈ upper.names := by
  rw [names_overlay, List.mem_append, List.mem_filter]
  by_cases h : name ∈ b.names <;> simp [h]

theorem overlay_assoc (a b c : Bag α) : (a.overlay b).overlay c = a.overlay (b.overlay c) := by
  refine ext_get? ?_ fun name => ?_
  · have hnew : (c.names.filter fun name => name ∉ (a.overlay b).names) =
        (c.names.filter (· ∉ b.names)).filter (· ∉ a.names) := by
      rw [List.filter_filter]
      refine List.filter_congr fun name _ => ?_
      simp [mem_names_overlay]
    rw [names_overlay _ c, hnew, names_overlay a, names_overlay a, names_overlay b, List.filter_append,
      List.append_assoc]
  · rw [get?_overlay, get?_overlay, get?_overlay, get?_overlay, Option.or_assoc]

theorem empty_overlay (b : Bag α) : empty.overlay b = b := by
  refine ext_get? ?_ fun name => ?_
  · rw [names_overlay]
    simp [names]
  · rw [get?_overlay]
    exact Option.or_none

theorem overlay_empty (b : Bag α) : b.overlay empty = b := rfl

theorem overlay_self (b : Bag α) : b.overlay b = b := by
  refine ext_get? ?_ fun name => ?_
  · rw [names_overlay]
    simp
  · rw [get?_overlay, Option.or_self]

/-- The bag with the values of another one where that has the name. -/
def revalue (b upper : Bag α) : Bag α where
  entries := b.entries.map fun e => (e.1, (upper.get? e.1).getD e.2)
  nodup := by
    rw [List.map_map]
    exact b.nodup

/-- The entries whose names another bag lacks. -/
def without (b lower : Bag α) : Bag α where
  entries := b.entries.filter fun e => !lower.contains e.1
  nodup := b.nodup.sublist (List.filter_sublist.map Prod.fst)

/-- An overlay is the lower bag with the values of the upper one, and behind it what is new. -/
theorem entries_overlay (b upper : Bag α) :
    (b.overlay upper).entries = (b.revalue upper).entries ++ (upper.without b).entries := by
  have hlower : ∀ e ∈ b.entries, ((b.overlay upper).get? e.1).map (fun v => (e.1, v)) =
      some (e.1, (upper.get? e.1).getD e.2) := by
    intro e he
    rw [get?_overlay, get?_of_mem he, Option.or_some, Option.map_some]
  have hupper : ∀ e ∈ upper.entries, ((b.overlay upper).get? e.1).map (fun v => (e.1, v)) = some e := by
    intro e he
    rw [get?_overlay, get?_of_mem he, Option.some_or, Option.map_some]
  have hnew : (fun name => decide (name ∉ b.names)) ∘ Prod.fst =
      fun e : String × α => !b.contains e.1 := by
    funext e
    rw [Bool.eq_iff_iff]
    simp [← contains_iff]
  rw [entries_eq, names_overlay, List.filterMap_append, names, names, List.filterMap_map, List.filter_map,
    List.filterMap_map]
  congr 1
  · refine (List.filterMap_congr hlower).trans ?_
    exact congrFun List.filterMap_eq_map b.entries
  · refine (List.filterMap_congr fun e he => hupper e (List.mem_of_mem_filter he)).trans ?_
    rw [List.filterMap_some]
    exact congrArg (List.filter · upper.entries) hnew

end Bag

end MarketingForm
