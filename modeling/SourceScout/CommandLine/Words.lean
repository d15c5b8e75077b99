import SourceScout.Text.Basic

/-!
# Words of a command line

Options may stand before and after other words, unless a command follows; a word `--` ends them.
Long options are written in full, short ones can be put together, and an option with a value takes
the next word, whatever it is.
-/

namespace SourceScout.CommandLine

structure OptionSpec where
  name : Text
  letter : Option Char
  takesValue : Bool
  deriving Repr, DecidableEq

structure Words where
  options : List (Text × Text)
  others : List Text
  deriving Repr, DecidableEq

/-- An option and the words after it. A flag has the empty value. -/
def takeOption? (spec : OptionSpec) (value : Option Text) (rest : List Text) :
    Option ((Text × Text) × List Text) :=
  match spec.takesValue, value, rest with
  | false, none, rest => some ((spec.name, []), rest)
  | false, some _, _ => none
  | true, some value, rest => some ((spec.name, value), rest)
  | true, none, value :: rest => some ((spec.name, value), rest)
  | true, none, [] => none

/-- The options that letters stand for; the letters after one with a value are its value. -/
def takeLetters? (specs : List OptionSpec) :
    Text → List Text → Option (List (Text × Text) × List Text)
  | [], rest => some ([], rest)
  | letter :: letters, rest => do
    let spec ← specs.find? fun spec => spec.letter == some letter
    if spec.takesValue then
      let value := if letters.isEmpty then none else some letters
      let (taken, rest) ← takeOption? spec value rest
      return ([taken], rest)
    else
      let (taken, rest) ← takeLetters? specs letters rest
      return ((spec.name, []) :: taken, rest)

def takeWord? (specs : List OptionSpec) (word : Text) (rest : List Text) :
    Option (List (Text × Text) × List Text) :=
  let (key, value) := match Text.cutFirst? ['='] word with
    | some (key, value) => (key, some value)
    | none => (word, none)
  match specs.find? fun spec => "--" ++ spec.name == key with
  | some spec => (takeOption? spec value rest).map fun (taken, rest) => ([taken], rest)
  | none =>
    if Text.startsWith "--" word then none else takeLetters? specs word.tail rest

def isOption (word : Text) : Bool := word.head? == some '-' && word.length != 1

/-- Reads words. If options may stand only in front, the other words start with the first word that
is no option. There is no reading if an option is unknown, or has a value where it takes none, or
none where it takes one. -/
def readWords? (specs : List OptionSpec) (onlyInFront : Bool) :
    (fuel : Nat) → List Text → Option Words
  | 0, _ => none
  | _ + 1, [] => some ⟨[], []⟩
  | fuel + 1, word :: rest =>
    if word = "--" then some ⟨[], rest⟩
    else if isOption word then do
      let (taken, rest) ← takeWord? specs word rest
      let words ← readWords? specs onlyInFront fuel rest
      return { words with options := taken ++ words.options }
    else if onlyInFront then some ⟨[], word :: rest⟩
    else do
      let words ← readWords? specs onlyInFront fuel rest
      return { words with others := word :: words.others }

namespace Words

def read? (specs : List OptionSpec) (onlyInFront : Bool) (args : List Text) : Option Words :=
  readWords? specs onlyInFront (args.length + 1) args

def has (words : Words) (name : Text) : Bool := words.options.any fun option => option.1 == name

/-- The value of an option; the last one counts. -/
def value? (words : Words) (name : Text) : Option Text := words.options.reverse.lookup name

end Words

end SourceScout.CommandLine
