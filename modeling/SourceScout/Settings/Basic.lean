import SourceScout.FileTree.Walk
import SourceScout.Text.Numeral
import SourceScout.Value

/-!
# Settings

The known settings with their keys and defaults, how a value is taken from a settings document or
from the command line, the settings in force, and the workspace that they are in force in.
-/

namespace SourceScout

inductive Setting where
  | defaultWindow
  | maxListedImports
  | maxModelImports
  | maxDependencyOutlines
  | snippetBefore
  | snippetAfter
  | maxWorkers
  | extraIgnoreDirs
  deriving Repr, DecidableEq

namespace Setting

def all : List Setting :=
  [defaultWindow, maxListedImports, maxModelImports, maxDependencyOutlines, snippetBefore,
   snippetAfter, maxWorkers, extraIgnoreDirs]

def key : Setting → Text
  | .defaultWindow => "default_window"
  | .maxListedImports => "max_listed_imports"
  | .maxModelImports => "max_model_imports"
  | .maxDependencyOutlines => "max_dependency_outlines"
  | .snippetBefore => "snippet_before"
  | .snippetAfter => "snippet_after"
  | .maxWorkers => "max_workers"
  | .extraIgnoreDirs => "extra_ignore_dirs"

def ofKey? (key : Text) : Option Setting := all.find? fun setting => setting.key == key

def default : Setting → Value
  | .defaultWindow => .int 500
  | .maxListedImports => .int 20
  | .maxModelImports => .int 15
  | .maxDependencyOutlines => .int 12
  | .snippetBefore => .int 10
  | .snippetAfter => .int 60
  | .maxWorkers => .int 4
  | .extraIgnoreDirs => .list []

def isList (setting : Setting) : Bool := setting == .extraIgnoreDirs

/-- Whether a value has the kind of the default. A truth value passes as a number. -/
def accepts (setting : Setting) : Value → Bool
  | .int _ => !setting.isList
  | .bool _ => !setting.isList
  | .list _ => setting.isList
  | _ => false

def sectionName : Text := "scan"

/-- The value of a setting in a document: what its section says, if that fits, or the default. -/
def valueIn (document : List (Text × Value)) (setting : Setting) : Value :=
  match Value.get? sectionName document with
  | some found =>
    match Value.get? setting.key (found.fields?.getD []) with
    | some value => if setting.accepts value then value else setting.default
    | none => setting.default
  | none => setting.default

def splitNames (raw : Text) : List Text :=
  ((Text.splitOn ',' raw).map Text.strip).filter fun name => !name.isEmpty

def read (setting : Setting) (raw : Text) : Except Failure Value :=
  if setting.isList then .ok (.list ((splitNames raw).map .text))
  else do
    let n ← Numeral.toInt raw
    if n < 0 then .error (.negativeSetting setting.key) else .ok (.int n)

def readByKey (key raw : Text) : Except Failure Value :=
  match ofKey? key with
  | some setting => setting.read raw
  | none => .error (.unknownSetting key)

end Setting

structure Settings where
  defaultWindow : Int
  maxListedImports : Int
  maxModelImports : Int
  maxDependencyOutlines : Int
  snippetBefore : Int
  snippetAfter : Int
  maxWorkers : Int
  /-- What the settings add to the ignored directory names. Only texts among them can ever be the
  name of a directory. -/
  extraIgnored : List Value

namespace Settings

def builtinIgnored : List Text :=
  [".git", ".idea", ".vscode", "node_modules", "dist", "build", "out", "target", ".gradle", ".mvn",
   "logs", "log", "tmp", "temp"]

def ignoredNames (settings : Settings) : IgnoredNames :=
  builtinIgnored ++ settings.extraIgnored.filterMap fun
    | .text name => some name
    | _ => none

def sortKey (v : Value) : Text := v.display?.getD []

/-- All ignored names, those that the settings add included, each once and sorted by their texts. -/
def ignoredValues (settings : Settings) : List Value :=
  let values := builtinIgnored.map Value.text ++ settings.extraIgnored
  (sortNamed (values.eraseDups.map fun v => (sortKey v, v))).map (·.2)

/-- The number of a setting; a truth value counts as one or zero. -/
def number : Value → Int
  | .int n => n
  | .bool b => if b then 1 else 0
  | _ => 0

/-- The first value that cannot be used as a name: a list or a table. -/
def unusable? : List Value → Option Value
  | [] => none
  | .list items :: _ => some (.list items)
  | .table fields :: _ => some (.table fields)
  | .inline fields :: _ => some (.inline fields)
  | _ :: rest => unusable? rest

/-- The settings that a document puts in force. There is always at least one worker. -/
def ofDocument (document : List (Text × Value)) : Except Failure Settings :=
  let value (setting : Setting) := setting.valueIn document
  let extra := match value .extraIgnoreDirs with
    | .list items => items
    | _ => []
  match unusable? extra with
  | some bad => .error (.notHashable bad.typeName)
  | none =>
    .ok
      { defaultWindow := number (value .defaultWindow)
        maxListedImports := number (value .maxListedImports)
        maxModelImports := number (value .maxModelImports)
        maxDependencyOutlines := number (value .maxDependencyOutlines)
        snippetBefore := number (value .snippetBefore)
        snippetAfter := number (value .snippetAfter)
        maxWorkers := max 1 (number (value .maxWorkers))
        extraIgnored := extra }

end Settings

/-- All that an analysis can see. -/
structure Workspace where
  tree : FileTree
  /-- The directory of the settings file. -/
  home : Path
  settings : Settings

namespace Workspace

def settingsFile (w : Workspace) : Path := w.home.child "config.toml"

def ignored (w : Workspace) : IgnoredNames := w.settings.ignoredNames

end Workspace

end SourceScout
