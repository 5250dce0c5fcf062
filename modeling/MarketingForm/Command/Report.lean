/-!
# Reports of failures

A failure is what the program was about to do with the causes behind it, outermost first. In the
report the causes are indented; several of them are numbered.
-/

namespace MarketingForm

/-- Why a task failed. -/
structure Failure where
  context : String
  causes : List String
deriving DecidableEq

namespace Failure

/-- A text whose further lines are indented. -/
def hangingLines (indent : List Char) (s : List Char) : List Char :=
  s.flatMap fun c => if c = '\n' then '\n' :: indent else [c]

/-- A cause without a number. -/
def plainCause (cause : String) : String :=
  let indent := List.replicate 4 ' '
  String.ofList (indent ++ hangingLines indent cause.toList) ++ "\n"

/-- A cause with its number, set in five columns. -/
def numberedCause (n : Nat) (cause : String) : String :=
  let number := (toString n).toList
  let lead := List.replicate (5 - number.length) ' ' ++ number ++ [':', ' ']
  String.ofList (lead ++ hangingLines (List.replicate 7 ' ') cause.toList) ++ "\n"

/-- The causes as the report lists them. -/
def causeLines : List String → String
  | [] => ""
  | [cause] => "\nCaused by:\n" ++ plainCause cause
  | causes => "\nCaused by:\n" ++ String.join (causes.mapIdx numberedCause)

/-- The report of a failure. -/
def report (f : Failure) : String := "Error: " ++ f.context ++ "\n" ++ causeLines f.causes

end Failure

end MarketingForm
