/-!
# Edit scripts

An edit script leads from an old sequence to a new one in runs of items that are kept, removed or
added. `oldSide` and `newSide` are the two sequences of a script. A run of removed or added items
also notes where in the other sequence it was found.
-/

namespace MarketingForm.LineDiff

variable {α : Type}

/-- What a run does. -/
inductive RunKind where
  | keep
  | remove
  | add
deriving DecidableEq

/-- Items that are treated alike. -/
structure Run (α : Type) where
  kind : RunKind
  items : List α
  /-- How many items of the other sequence came before the run when it was found. -/
  found : Nat
deriving DecidableEq

/-- A way from an old sequence to a new one. -/
abbrev Script (α : Type) := List (Run α)

namespace Run

/-- The items of the old sequence in a run. -/
def oldItems (r : Run α) : List α := if r.kind = .add then [] else r.items

/-- The items of the new sequence in a run. -/
def newItems (r : Run α) : List α := if r.kind = .remove then [] else r.items

end Run

namespace Script

/-- The old sequence. -/
def oldSide (s : Script α) : List α := s.flatMap Run.oldItems

/-- The new sequence. -/
def newSide (s : Script α) : List α := s.flatMap Run.newItems

end Script

/-- A run of items, or nothing if there are none. -/
def runOf (kind : RunKind) (items : List α) (found : Nat) : Script α :=
  if items.isEmpty then [] else [⟨kind, items, found⟩]

/-! ### Common ends -/

variable [DecidableEq α]

/-- The longest common start of two sequences. -/
def commonPrefix : List α → List α → List α
  | a :: as, b :: bs => if a = b then a :: commonPrefix as bs else []
  | _, _ => []

/-- The longest common end of two sequences. -/
def commonSuffix (as bs : List α) : List α := (commonPrefix as.reverse bs.reverse).reverse

end MarketingForm.LineDiff
