import MarketingForm.LineDiff.Script

/-!
# Compacting scripts

A run of added items can slide over a kept run next to it if the items agree: up over a common end,
down over a common start. Each such run slides up as far as it goes and then down as far as it goes.
A run of removed items stays where it is, but changes places with added ones. Runs of one kind that
meet become one. Sliding moves the note of where a run was found, changing places does not. Removed
runs settle first, added ones after them.
-/

namespace MarketingForm.LineDiff

variable {α : Type} [DecidableEq α]

/-- A script with a run in view; what stands before it is given backwards. -/
structure Focus (α : Type) where
  before : List (Run α)
  run : Run α
  after : List (Run α)

/-- Puts kept items before a script. -/
def keepBefore (items : List α) : List (Run α) → List (Run α)
  | ⟨.keep, xs, n⟩ :: r => ⟨.keep, items ++ xs, n⟩ :: r
  | r => ⟨.keep, items, 0⟩ :: r

/-- Puts kept items behind a script that is given backwards. -/
def keepBehind (items : List α) : List (Run α) → List (Run α)
  | ⟨.keep, xs, n⟩ :: r => ⟨.keep, xs ++ items, n⟩ :: r
  | r => ⟨.keep, items, 0⟩ :: r

/-- The number of runs and items. -/
def extent (rs : List (Run α)) : Nat := rs.foldl (fun n r => n + r.items.length + 1) 0

namespace Focus

/-- Slides the run up as far as it goes. -/
def up (f : Focus α) : Nat → Focus α
  | 0 => f
  | fuel + 1 =>
    match f.before with
    | [] => f
    | prev :: before =>
      if prev.kind = .keep then
        let common := if f.run.kind = .add then commonSuffix prev.items f.run.items else []
        if common.isEmpty then f
        else
          let left := prev.items.take (prev.items.length - common.length)
          let items := common ++ f.run.items.take (f.run.items.length - common.length)
          ({ before := if left.isEmpty then before else { prev with items := left } :: before
             run := ⟨f.run.kind, items, f.run.found - common.length⟩
             after := keepBefore common f.after } : Focus α).up fuel
      else if prev.kind = f.run.kind then
        ({ f with before := before, run := { prev with items := prev.items ++ f.run.items } } :
          Focus α).up fuel
      else ({ f with before := before, after := prev :: f.after } : Focus α).up fuel

/-- Slides the run down as far as it goes. -/
def down (f : Focus α) : Nat → Focus α
  | 0 => f
  | fuel + 1 =>
    match f.after with
    | [] => f
    | next :: after =>
      if next.kind = .keep then
        let common := if f.run.kind = .add then commonPrefix next.items f.run.items else []
        if common.isEmpty then f
        else
          let left := next.items.drop common.length
          let items := f.run.items.drop common.length ++ common
          ({ before := keepBehind common f.before
             run := ⟨f.run.kind, items, f.run.found + common.length⟩
             after := if left.isEmpty then after else { next with items := left } :: after } :
            Focus α).down fuel
      else if next.kind = f.run.kind then
        ({ f with after := after, run := { f.run with items := f.run.items ++ next.items } } :
          Focus α).down fuel
      else ({ f with after := after, before := next :: f.before } : Focus α).down fuel

/-- Slides the run up and then down. -/
def settle (f : Focus α) : Focus α :=
  let f := f.up (extent f.before)
  f.down (extent f.after)

end Focus

/-- Settles the runs of a kind one after another; what has been settled is given backwards. The fuel
bounds the number of runs. -/
def settleFrom (kind : RunKind) (before after : List (Run α)) : Nat → Script α
  | 0 => before.reverse ++ after
  | fuel + 1 =>
    match after with
    | [] => before.reverse
    | r :: after =>
      if r.kind = kind then
        let f := (Focus.mk before r after).settle
        settleFrom kind (f.run :: f.before) f.after fuel
      else settleFrom kind (r :: before) after fuel

/-- Settles the runs of a kind. -/
def settleAll (kind : RunKind) (s : Script α) : Script α :=
  settleFrom kind [] s ((extent s + 1) * (extent s + 1))

/-- Compacts a script. -/
def compact (s : Script α) : Script α := settleAll .add (settleAll .remove s)

end MarketingForm.LineDiff
