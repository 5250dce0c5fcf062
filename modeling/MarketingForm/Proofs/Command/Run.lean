import MarketingForm.Command.Run
import MarketingForm.Proofs.Files.Run

/-!
# Tasks on a tree

`workOn t p x` is what a piece of work comes to that starts on the tree `t` when `p` has been
printed: its result, all that is printed then, and the tree that it leaves. A command line on a tree
(`perform`) is the work of its task, and its code tells whether the work went well.
-/

namespace MarketingForm

open Files

variable {ε α β : Type}

/-- What a piece of work has come to. -/
structure Done (α : Type) where
  result : Except Failure α
  printed : Printed
  tree : Tree

/-- How the program ends after its work. -/
def Done.ending (d : Done Unit) : Ending :=
  match d.result with
  | .ok () => ⟨0, d.printed⟩
  | .error f => ⟨1, { d.printed with err := d.printed.err ++ f.report }⟩

/-- Does a piece of work on a tree. -/
def workOn (t : Tree) (p : Printed) (x : Work (StateM Tree) α) : Done α :=
  let r := ((ExceptT.run x).run p).run t
  ⟨r.1.1, r.1.2, r.2⟩

/-- Carries out a command line on a tree. -/
def perform (t : Tree) (newId : FieldId) (home : String) (words : List String) : Ending × Tree :=
  (runWords newId home words : StateM Tree Ending).run t

/-! ## Pieces of work -/

theorem workOn_pure (t : Tree) (p : Printed) (a : α) :
    workOn t p (pure a) = ⟨.ok a, p, t⟩ := rfl

theorem workOn_bind (t : Tree) (p : Printed) (x : Work (StateM Tree) α)
    (f : α → Work (StateM Tree) β) :
    workOn t p (x >>= f) =
      match workOn t p x with
      | ⟨.ok a, q, u⟩ => workOn u q (f a)
      | ⟨.error e, q, u⟩ => ⟨.error e, q, u⟩ := by
  unfold workOn
  rw [ExceptT.run_bind, StateT.run_bind, StateT.run_bind]
  generalize ((ExceptT.run x).run p).run t = r
  obtain ⟨⟨r, q⟩, u⟩ := r
  cases r <;> rfl

theorem workOn_expect (t : Tree) (p : Printed) (context : String) (causes : ε → List String)
    (r : Except ε α) :
    workOn t p (Work.expect context causes r) =
      ⟨r.mapError fun e => ⟨context, causes e⟩, p, t⟩ := by
  cases r <;> rfl

theorem workOn_attempt (t : Tree) (p : Printed) (context : String) (causes : ε → List String)
    (x : ExceptT ε (StateM Tree) α) :
    workOn t p (Work.attempt context causes x) =
      ⟨(runOn t x).1.mapError fun e => ⟨context, causes e⟩, p, (runOn t x).2⟩ := by
  have hwork : workOn t p (Work.attempt context causes x) =
      workOn (runOn t x).2 p (Work.expect context causes (runOn t x).1) := rfl
  rw [hwork, workOn_expect]

theorem workOn_print (t : Tree) (p : Printed) (text : String) :
    workOn t p (Work.print text) = ⟨.ok (), { p with out := p.out ++ text }, t⟩ := rfl

theorem workOn_warn (t : Tree) (p : Printed) (text : String) :
    workOn t p (Work.warn text) =
      ⟨.ok (), { p with err := p.err ++ "warning: " ++ text ++ "\n" }, t⟩ := rfl

/-! ## Command lines -/

theorem perform_task {words : List String} {task : Task}
    (h : Request.ofWords words = some (.task task)) (t : Tree) (newId : FieldId) (home : String) :
    perform t newId home words =
      ((workOn t ⟨"", ""⟩ (task.work newId home)).ending,
        (workOn t ⟨"", ""⟩ (task.work newId home)).tree) := by
  unfold perform runWords
  rw [h]
  show (task.run newId home : StateM Tree Ending).run t = _
  unfold Task.run workOn
  rw [StateT.run_bind]
  generalize ((ExceptT.run (task.work newId home : Work (StateM Tree) Unit)).run ⟨"", ""⟩).run t = r
  obtain ⟨⟨r, p⟩, u⟩ := r
  cases r <;> rfl

end MarketingForm
