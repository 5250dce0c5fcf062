/-!
# Arguments

The words of a command line are options and positional words. An option has a long name, written
after two hyphens, and perhaps a letter, written after one. Its value follows an equals sign or is
the next word, which must not look like an option. No option may be given twice. Two hyphens alone
make all words after them positional.
-/

namespace MarketingForm.Command

/-- An option that a command knows. -/
structure OptionSpec where
  name : String
  letter : Option Char
  takesValue : Bool

/-- The option that asks for help. -/
def helpOption : OptionSpec := ⟨"help", some 'h', false⟩

/-- An option that was given. -/
structure Given where
  name : String
  value : Option String
deriving DecidableEq

/-- The words of a command line, sorted. -/
structure Arguments where
  positionals : List String
  options : List Given
deriving DecidableEq

namespace Arguments

def empty : Arguments := ⟨[], []⟩

def addPositional (a : Arguments) (word : String) : Arguments :=
  { a with positionals := a.positionals ++ [word] }

/-- Whether an option was given. -/
def has (a : Arguments) (name : String) : Bool := a.options.any (·.name == name)

/-- The value of an option. -/
def value? (a : Arguments) (name : String) : Option String :=
  (a.options.find? (·.name == name)).bind (·.value)

/-- Adds an option; nothing if it was given before. -/
def addOption (a : Arguments) (name : String) (value : Option String) : Option Arguments :=
  if a.has name then none else some { a with options := a.options ++ [⟨name, value⟩] }

end Arguments

/-- Whether a word looks like an option; a lone hyphen does not. -/
def looksLikeOption (word : List Char) : Bool :=
  match word with
  | '-' :: _ :: _ => true
  | _ => false

/-- What a word that looks like an option says. -/
structure OptionWord where
  spec : OptionSpec
  /-- The value after an equals sign or after the letter. -/
  attached : Option (List Char)
  /-- Further letters after one that takes no value. -/
  more : List Char

/-- Splits a text at its first equals sign. -/
def splitEquals (s : List Char) : List Char × Option (List Char) :=
  match s.dropWhile (· != '=') with
  | _ :: value => (s.takeWhile (· != '='), some value)
  | [] => (s, none)

/-- Reads a long option after its hyphens. -/
def readLong (specs : List OptionSpec) (s : List Char) : Option OptionWord :=
  let (name, value) := splitEquals s
  (specs.find? fun o => o.name.toList == name).map fun o => ⟨o, value, []⟩

/-- Reads the first of some letters after a hyphen. -/
def readLetter (specs : List OptionSpec) : List Char → Option OptionWord
  | [] => none
  | c :: r =>
    (specs.find? fun o => o.letter == some c).map fun o =>
      if o.takesValue then
        ⟨o, (match r with
          | [] => none
          | '=' :: v => some v
          | v => some v), []⟩
      else ⟨o, none, r⟩

/-- The words of a command line that asks for help. -/
def askingHelp : Arguments := ⟨[], [⟨helpOption.name, none⟩]⟩

/-- Sorts words; nothing if they do not fit the options. A call for help ends the words. The fuel
bounds their number and letters. -/
def sortWords (specs : List OptionSpec) (a : Arguments) (words : List String) :
    Nat → Option Arguments
  | 0 => none
  | fuel + 1 =>
    match words with
    | [] => some a
    | w :: rest =>
      let take (o : OptionWord) : Option Arguments :=
        if o.spec.takesValue then
          match o.attached, rest with
          | some v, _ => (a.addOption o.spec.name (some (String.ofList v))).bind fun a =>
            sortWords specs a rest fuel
          | none, v :: rest =>
            if looksLikeOption v.toList then none
            else (a.addOption o.spec.name (some v)).bind fun a => sortWords specs a rest fuel
          | none, [] => none
        else if o.attached.isSome then none
        else if o.spec.name = helpOption.name then some askingHelp
        else
          (a.addOption o.spec.name none).bind fun a =>
            if o.more.isEmpty then sortWords specs a rest fuel
            else sortWords specs a (String.ofList ('-' :: o.more) :: rest) fuel
      match w.toList with
      | ['-', '-'] => some { a with positionals := a.positionals ++ rest }
      | '-' :: '-' :: s => (readLong specs s).bind take
      | '-' :: c :: s => (readLetter specs (c :: s)).bind take
      | _ => sortWords specs (a.addPositional w) rest fuel

/-- Sorts the words after a command's name. -/
def readArguments (specs : List OptionSpec) (words : List String) : Option Arguments :=
  sortWords (helpOption :: specs) .empty words (words.foldl (fun n w => n + w.length + 1) 1)

end MarketingForm.Command
