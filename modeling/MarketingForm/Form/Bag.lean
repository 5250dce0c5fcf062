/-!
# Bags

An ordered map from names to values. A name keeps the position of its first assignment and holds
the value of its last one.

- `Bag.insert` assigns one name, `Bag.ofList` assigns in turn;
- `Bag.overlay` assigns every entry of a second bag over a first one;
- `Bag.fill` assigns only the names that are missing.
-/

namespace MarketingForm

/-- Assigns `v` to `name` in place, or at the end if the name is new. -/
def assign {α : Type} (name : String) (v : α) : List (String × α) → List (String × α)
  | [] => [(name, v)]
  | (k, w) :: r => if k = name then (k, v) :: r else (k, w) :: assign name v r

theorem map_fst_assign {α : Type} (name : String) (v : α) (es : List (String × α)) :
    (assign name v es).map Prod.fst =
      if name ∈ es.map Prod.fst then es.map Prod.fst else es.map Prod.fst ++ [name] := by
  induction es with
  | nil => simp [assign]
  | cons e r ih =>
    obtain ⟨k, w⟩ := e
    by_cases hk : k = name
    · simp [assign, hk]
    · have hk' : ¬ name = k := fun h => hk h.symm
      simp only [assign, hk, ↓reduceIte, List.map_cons, ih, List.mem_cons, hk', false_or]
      split <;> simp

theorem nodup_assign {α : Type} (name : String) (v : α) {es : List (String × α)}
    (h : (es.map Prod.fst).Nodup) : ((assign name v es).map Prod.fst).Nodup := by
  rw [map_fst_assign]
  split
  · exact h
  · rename_i hn
    rw [List.nodup_append]
    refine ⟨h, by simp, ?_⟩
    intro a ha b hb
    simp only [List.mem_singleton] at hb
    rintro rfl
    exact hn (hb ▸ ha)

theorem assign_of_not_mem {α : Type} {name : String} (v : α) {es : List (String × α)}
    (h : name ∉ es.map Prod.fst) : assign name v es = es ++ [(name, v)] := by
  induction es with
  | nil => rfl
  | cons e es ih =>
    obtain ⟨k, w⟩ := e
    simp only [List.map_cons, List.mem_cons, not_or] at h
    rw [assign, if_neg (Ne.symm h.1), ih h.2]
    rfl

theorem lookup_entry {α : Type} (key k : String) (v : α) (es : List (String × α)) :
    ((k, v) :: es).lookup key = if key = k then some v else es.lookup key := by
  rw [List.lookup_cons]
  by_cases h : key = k
  · rw [if_pos h, beq_iff_eq.2 h]
  · rw [if_neg h, beq_eq_false_iff_ne.2 h]

theorem lookup_assign {α : Type} (name key : String) (v : α) (es : List (String × α)) :
    (assign name v es).lookup key = if key = name then some v else es.lookup key := by
  induction es with
  | nil => exact lookup_entry key name v []
  | cons e r ih =>
    obtain ⟨k, w⟩ := e
    rw [assign]
    by_cases hk : k = name
    · rw [if_pos hk, lookup_entry, lookup_entry, hk]
      split <;> rfl
    · rw [if_neg hk, lookup_entry, lookup_entry, ih]
      by_cases hkey : key = k
      · rw [if_pos hkey, if_pos hkey, if_neg (hkey ▸ hk)]
      · rw [if_neg hkey, if_neg hkey]

/-- Names with values, in the order in which the names were first assigned. -/
structure Bag (α : Type) where
  entries : List (String × α)
  nodup : (entries.map Prod.fst).Nodup

namespace Bag

variable {α : Type}

@[ext] theorem ext {b c : Bag α} (h : b.entries = c.entries) : b = c := by
  cases b; cases c; simp_all

instance [DecidableEq α] : DecidableEq (Bag α) := fun b c =>
  decidable_of_iff (b.entries = c.entries) ⟨ext, fun h => h ▸ rfl⟩

/-- The bag without names. -/
def empty : Bag α := ⟨[], by simp⟩

instance : Inhabited (Bag α) := ⟨empty⟩

/-- The assigned names, in order. -/
def names (b : Bag α) : List String := b.entries.map Prod.fst

def size (b : Bag α) : Nat := b.entries.length

def isEmpty (b : Bag α) : Bool := b.entries.isEmpty

/-- The value of a name. -/
def get? (b : Bag α) (name : String) : Option α := b.entries.lookup name

def contains (b : Bag α) (name : String) : Bool := (b.get? name).isSome

/-- Assigns one name. -/
def insert (b : Bag α) (name : String) (v : α) : Bag α :=
  ⟨assign name v b.entries, nodup_assign name v b.nodup⟩

/-- Assigns the pairs of a list in turn. -/
def ofList (es : List (String × α)) : Bag α := es.foldl (fun b e => b.insert e.1 e.2) empty

/-- Assigns every entry of `upper` on top of `b`. -/
def overlay (b upper : Bag α) : Bag α := upper.entries.foldl (fun b e => b.insert e.1 e.2) b

/-- Assigns the entries of `defaults` whose names `b` lacks. -/
def fill (b defaults : Bag α) : Bag α :=
  defaults.entries.foldl (fun b e => if b.contains e.1 then b else b.insert e.1 e.2) b

@[simp] theorem entries_empty : (empty : Bag α).entries = [] := rfl

@[simp] theorem entries_insert (b : Bag α) (name : String) (v : α) :
    (b.insert name v).entries = assign name v b.entries := rfl

theorem get?_insert (b : Bag α) (name key : String) (v : α) :
    (b.insert name v).get? key = if key = name then some v else b.get? key :=
  lookup_assign name key v b.entries

end Bag

end MarketingForm
