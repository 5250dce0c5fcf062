import MarketingForm.LineDiff.Script

/-!
# Searching a short script

Common ends are kept. What lies between is searched from both corners of the edit grid at once, with
one more edit in each round; where the two searches meet, the sequences are divided, and both halves
are treated in the same way.

In the grid, `x` counts items of the old sequence and `y` items of the new one. On diagonal `k` they
differ by `k`.
-/

namespace MarketingForm.LineDiff

variable {α : Type} [DecidableEq α]

/-- How far a search has come on each diagonal. -/
structure Frontier where
  offset : Nat
  reach : Array Nat

namespace Frontier

/-- The frontier before the first round, for some number of rounds. -/
def start (rounds : Nat) : Frontier := ⟨rounds, Array.replicate (2 * rounds + 2) 0⟩

def get (f : Frontier) (k : Int) : Nat := f.reach.getD (k + f.offset).toNat 0

def set (f : Frontier) (k : Int) (x : Nat) : Frontier :=
  { f with reach := f.reach.setIfInBounds (k + f.offset).toNat x }

/-- Where a search enters diagonal `k` in round `d`: from the neighbour that has come further. -/
def enter (f : Frontier) (d : Nat) (k : Int) : Nat :=
  if k = -d ∨ (k ≠ d ∧ f.get (k - 1) < f.get (k + 1)) then f.get (k + 1) else f.get (k - 1) + 1

end Frontier

/-- How many items agree from two places on. -/
def agreeing (as bs : Array α) (i j : Nat) : Nat → Nat
  | 0 => 0
  | fuel + 1 =>
    match as[i]?, bs[j]? with
    | some a, some b => if a = b then agreeing as bs (i + 1) (j + 1) fuel + 1 else 0
    | _, _ => 0

/-- Two sequences that are searched. The reversed ones serve the search from the far corner. -/
structure Grid (α : Type) where
  old : Array α
  new : Array α
  oldReversed : Array α
  newReversed : Array α

namespace Grid

def ofLists (old new : List α) : Grid α :=
  ⟨old.toArray, new.toArray, old.reverse.toArray, new.reverse.toArray⟩

/-- The diagonal of the far corner. -/
def delta (g : Grid α) : Int := (g.old.size : Int) - g.new.size

/-- Rounds after which the two searches must have met. -/
def rounds (g : Grid α) : Nat := (g.old.size + g.new.size + 1) / 2 + 1

/-- A point on a diagonal, given by its `x`, with the number of items that agree from there on. -/
def slide (g : Grid α) (fromEnd : Bool) (x : Nat) (y : Int) : Nat :=
  if x < g.old.size ∧ 0 ≤ y ∧ y < g.new.size then
    if fromEnd then agreeing g.oldReversed g.newReversed x y.toNat g.old.size
    else agreeing g.old g.new x y.toNat g.old.size
  else 0

/-- The diagonals of a round, in the order in which they are searched. -/
def diagonals (d : Nat) : List Int := (List.range (d + 1)).map fun (i : Nat) => (d : Int) - 2 * i

/-- One round from the near corner: a meeting point, or the new frontier. -/
def forward (g : Grid α) (d : Nat) (far : Frontier) (near : Frontier) :
    List Int → (Nat × Nat) ⊕ Frontier
  | [] => .inr near
  | k :: ks =>
    let x₀ := near.enter d k
    let y₀ := (x₀ : Int) - k
    let x := x₀ + g.slide false x₀ y₀
    let near := near.set k x
    if g.delta % 2 ≠ 0 ∧ (k - g.delta).natAbs < d ∧ g.old.size ≤ x + far.get (g.delta - k) then
      .inl (x₀, y₀.toNat)
    else g.forward d far near ks

/-- One round from the far corner: a meeting point, or the new frontier. -/
def backward (g : Grid α) (d : Nat) (near : Frontier) (far : Frontier) :
    List Int → (Nat × Nat) ⊕ Frontier
  | [] => .inr far
  | k :: ks =>
    let x₀ := far.enter d k
    let y₀ := (x₀ : Int) - k
    let n := g.slide true x₀ y₀
    let far := far.set k (x₀ + n)
    if g.delta % 2 = 0 ∧ (k - g.delta).natAbs ≤ d ∧
        g.old.size ≤ x₀ + n + near.get (g.delta - k) then
      .inl (g.old.size - (x₀ + n), g.new.size - (y₀ + n).toNat)
    else g.backward d near far ks

/-- The point where the two searches meet, from round `d` on. -/
def meet (g : Grid α) (near far : Frontier) (d : Nat) : Nat → Option (Nat × Nat)
  | 0 => none
  | fuel + 1 =>
    match g.forward d far near (diagonals d) with
    | .inl p => some p
    | .inr near =>
      match g.backward d near far (diagonals d) with
      | .inl p => some p
      | .inr far => g.meet near far (d + 1) fuel

/-- The point at which to divide the sequences. -/
def divide (g : Grid α) : Option (Nat × Nat) :=
  g.meet (.start g.rounds) (.start g.rounds) 0 g.rounds

end Grid

/-! ### Scripts -/

/-- Two sequences that come after some items of larger ones. -/
structure Pair (α : Type) where
  old : List α
  new : List α
  oldBefore : Nat
  newBefore : Nat

namespace Pair

/-- The part from some items on. -/
def drop (p : Pair α) (x y : Nat) : Pair α :=
  ⟨p.old.drop x, p.new.drop y, p.oldBefore + x, p.newBefore + y⟩

/-- The part up to some items. -/
def take (p : Pair α) (x y : Nat) : Pair α :=
  ⟨p.old.take x, p.new.take y, p.oldBefore, p.newBefore⟩

/-- A script that removes the old items and adds the new ones. -/
def replaceAll (p : Pair α) : Script α :=
  runOf .remove p.old p.newBefore ++ runOf .add p.new p.oldBefore

/-- A script that keeps the common ends and does the rest by `middle`. -/
def withCommonEnds (middle : Pair α → Script α) (p : Pair α) : Script α :=
  let start := commonPrefix p.old p.new
  let q := p.drop start.length start.length
  let stop := commonSuffix q.old q.new
  runOf .keep start p.newBefore ++
    middle (q.take (q.old.length - stop.length) (q.new.length - stop.length)) ++
    runOf .keep stop (q.newBefore + q.new.length - stop.length)

/-- A script found by dividing the sequences some number of times. -/
def searchTo : Nat → Pair α → Script α
  | 0 => replaceAll
  | fuel + 1 =>
    withCommonEnds fun p =>
      if p.old.isEmpty || p.new.isEmpty then p.replaceAll
      else
        match (Grid.ofLists p.old p.new).divide with
        | some (x, y) => searchTo fuel (p.take x y) ++ searchTo fuel (p.drop x y)
        | none => p.replaceAll

end Pair

/-- A script from an old sequence to a new one. -/
def search (old new : List α) : Script α :=
  Pair.searchTo (old.length + new.length + 1) ⟨old, new, 0, 0⟩

end MarketingForm.LineDiff
