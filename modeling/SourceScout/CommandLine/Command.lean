import SourceScout.CommandLine.Words
import SourceScout.Text.Numeral

/-!
# Commands

What a command line asks for.
-/

namespace SourceScout.CommandLine

inductive Command where
  | version
  | help
  | outline (paths : List Text) (asTable : Bool)
  | context (paths : List Text) (startLine : Int) (endLine : Option Int)
  | item (targets : List Text)
  | request (source : Text)
  | showSettings
  | setSetting (key value : Text)
  | resetSettings
  deriving Repr, DecidableEq

def helpOption : OptionSpec := ⟨"help", none, false⟩

def globalOptions : List OptionSpec :=
  [⟨"version", some 'v', false⟩, ⟨"verbose", some 'V', false⟩, helpOption]

def lineNumber? (raw : Text) : Option Int :=
  match Numeral.toInt raw with
  | .ok n => if 1 ≤ n then some n else none
  | .error _ => none

def lineOption? (words : Words) (name : Text) : Option (Option Int) :=
  match words.value? name with
  | none => some none
  | some raw => (lineNumber? raw).map some

/-- The words of a command with its own options; a call for help is a command of its own. -/
def readCommand? (specs : List OptionSpec) (args : List Text) (command : Words → Option Command) :
    Option Command := do
  let words ← Words.read? (helpOption :: specs) false args
  if words.has "help" then return .help else command words

def some? (others : List Text) : Option (List Text) := if others.isEmpty then none else some others

def readOutline? (args : List Text) : Option Command :=
  readCommand? [⟨"table", some 't', false⟩] args fun words =>
    (some? words.others).map fun paths => .outline paths (words.has "table")

def readContext? (args : List Text) : Option Command :=
  readCommand? [⟨"start", some 's', true⟩, ⟨"end", some 'e', true⟩] args fun words => do
    let startLine ← lineOption? words "start"
    let endLine ← lineOption? words "end"
    return .context (← some? words.others) (startLine.getD 1) endLine

def readItem? (args : List Text) : Option Command :=
  readCommand? [] args fun words => (some? words.others).map .item

def readRequest? (args : List Text) : Option Command :=
  readCommand? [] args fun words =>
    match words.others with
    | [source] => some (.request source)
    | _ => none

def readNoWords? (command : Command) (args : List Text) : Option Command :=
  readCommand? [] args fun words => if words.others.isEmpty then some command else none

def readSetSetting? (args : List Text) : Option Command :=
  readCommand? [] args fun words =>
    match words.others with
    | [key, value] => some (.setSetting key value)
    | _ => none

def readNamed? (commands : List (Text × (List Text → Option Command))) (args : List Text) :
    Option Command :=
  match args with
  | [] => none
  | name :: rest => (commands.lookup name).bind fun read => read rest

def settingsCommands : List (Text × (List Text → Option Command)) :=
  [("show".toList, readNoWords? .showSettings), ("set".toList, readSetSetting?),
   ("reset".toList, readNoWords? .resetSettings)]

def readSettings? (args : List Text) : Option Command :=
  if args.isEmpty then some .help
  else do
    let words ← Words.read? [helpOption] true args
    if words.has "help" then return .help else readNamed? settingsCommands words.others

def commands : List (Text × (List Text → Option Command)) :=
  [("outline".toList, readOutline?), ("context".toList, readContext?), ("item".toList, readItem?),
   ("request".toList, readRequest?), ("config".toList, readSettings?)]

/-- The command of a command line; there is none if the words are used wrongly. -/
def Command.read? (args : List Text) : Option Command :=
  if args.isEmpty then some .help
  else do
    let words ← Words.read? globalOptions true args
    if words.has "version" then return .version
    else if words.has "help" then return .help
    else readNamed? commands words.others

end SourceScout.CommandLine
