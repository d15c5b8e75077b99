import SourceScout.Language
import SourceScout.Outline
import SourceScout.Project.Resolve
import SourceScout.Role
import SourceScout.Settings.Basic
import SourceScout.Source.InjectedField
import SourceScout.Source.ModelField

/-!
# The context of a file

A window of the lines of a file and, where its language has a package system, what the file uses:
injected collaborators, imports of its own project, the fields of the data classes among them and
the outlines of the others.
-/

namespace SourceScout.FileContext

def separator : Text := "\n\n" ++ Text.times 70 "#" ++ "\n\n"

/-- A bound that is given and is not zero. -/
def given? (bound : Option Int) : Option Int := bound.filter fun n => n != 0

/-- The first and the last line of a window, counted from one. Without a last line it has `size`
lines at most. -/
def pageWindow (size total : Int) (start stop : Option Int) : Int × Int :=
  let first := max 1 ((given? start).getD 1)
  match given? stop with
  | some last => (first, min last total)
  | none => (first, min total (first + size - 1))

def windowLines (lines : List Text) (window : Int × Int) : List Text :=
  cut lines (window.1 - 1) window.2

def titled (title : Text) (lines : List Text) : List Text := [] :: title :: lines

def injectionLine (field : InjectedField) : Text :=
  "  - [INJECT] " ++ field.type ++ " " ++ field.name

def injections (content : Text) : List Text :=
  let fields := InjectedField.declaredIn content
  titled "[DEPENDENCY_INJECTIONS]: (Injected Components)"
    (if fields.isEmpty then ["  (No significant injections detected)"]
    else fields.map injectionLine)

def importLine (i : Import) : Text := "  - " ++ i.simpleName ++ " => " ++ i.path

def importList (cap : Int) (title : Text) (imports : List Import) : List Text :=
  titled title ((cut imports 0 cap).map importLine)

def sourceOf? (tree : FileTree) (i : Import) : Option Text :=
  (tree.readText (Path.ofText i.path)).toOption

def noComment : Text := "(no comment)"

def modelFieldLine (field : ModelField) : Text :=
  "   - " ++ field.name ++ " | " ++ field.type ++ " | " ++
    if field.comment.isEmpty then noComment else field.comment

def modelLines (tree : FileTree) (i : Import) : List Text :=
  match sourceOf? tree i with
  | none => []
  | some content =>
    let fields := ModelField.declaredIn content
    (">> " ++ i.simpleName ++ " => " ++ i.path) ::
      if fields.isEmpty then ["   - (No fields detected)"] else fields.map modelFieldLine

def modelFields (tree : FileTree) (cap : Int) (models : List Import) : List Text :=
  titled "[MODEL_FIELDS]: (DTO/VO/Entity Fields)" ((cut models 0 cap).flatMap (modelLines tree))

def outlineLine (item : OutlineItem) : Text :=
  "   - " ++ item.name ++ "@L" ++ Text.ofNat item.startLine ++ "-" ++ Text.ofNat item.endLine

def outlineLines (i : Import) (content : Text) : List Text :=
  (">> " ++ i.simpleName ++ ":") :: (Outline.shallow .java content).map outlineLine

/-- The outlines of readable classes until there are as many as the cap allows; `count` is how many
there are before. -/
def outlinesFrom (tree : FileTree) (cap : Int) : (count : Nat) → List Import → List Text
  | _, [] => []
  | count, i :: rest =>
    if cap ≤ count then []
    else match sourceOf? tree i with
      | none => outlinesFrom tree cap count rest
      | some content => outlineLines i content ++ outlinesFrom tree cap (count + 1) rest

def dependencyOutlines (tree : FileTree) (cap : Int) (others : List Import) : List Text :=
  titled "[DEPENDENCY_OUTLINES]: (Other Class Outlines)" (outlinesFrom tree cap 0 others)

def isModel (i : Import) : Bool := Role.isModelLike i.simpleName i.path

def unlessEmpty (imports : List Import) (lines : List Import → List Text) : List Text :=
  if imports.isEmpty then [] else lines imports

def importSections (w : Workspace) (scan : Project.ImportScan) : List Text :=
  let listed := importList w.settings.maxListedImports
  let models := scan.all.filter isModel
  let others := scan.all.filter fun i => !models.contains i
  unlessEmpty scan.resolved (listed "[LOCAL_IMPORTS]: (Resolved Project Imports)") ++
    unlessEmpty scan.fallback (listed "[LOCAL_IMPORTS]: (Resolved Project Imports - Fallback)") ++
    unlessEmpty models (modelFields w.tree w.settings.maxModelImports) ++
    unlessEmpty others (dependencyOutlines w.tree w.settings.maxDependencyOutlines)

/-- All sections on what a source text uses. Without a package only injections are known. -/
def sections (w : Workspace) (path content : Text) : Except Failure (List Text) :=
  match Package.nonempty? content with
  | none => .ok (injections content)
  | some package => do
    let root ← Project.root? w.tree (Path.ofText path) (some package)
    let scan ← Project.scanImports w.tree w.ignored root content
    return injections content ++ importSections w scan

def suggestion (w : Workspace) (path : Text) : Except Failure Text := do
  match ← Project.root? w.tree (Path.ofText path) none with
  | none => return "Suggestion: Check the file path accuracy."
  | some root =>
    let modules ← Project.modules w.tree root
    return "Suggestion: The file might belong to another module. Modules found at root: " ++
      Text.join ", " modules

def sectionsOfFile (w : Workspace) (path content : Text) : Except Failure (List Text) :=
  match Language.ofPath? (Path.ofText path) with
  | some language => if language.hasAnnotations then sections w path content else .ok []
  | none => .ok []

def ofContent (w : Workspace) (path content : Text) (start stop : Option Int) :
    Except Failure Text := do
  let lines := content.lines
  let window := pageWindow w.settings.defaultWindow lines.length start stop
  let used ← sectionsOfFile w path content
  return Text.unlines
    (["[FILE_PATH]: " ++ path,
      "[PAGINATION]: Lines " ++ Text.ofInt window.1 ++ "-" ++ Text.ofInt window.2 ++ " (Total " ++
        Text.ofNat lines.length ++ ")"] ++
      used ++ titled "[SOURCE_CODE]:" [Text.unlines (windowLines lines window)])

def unreadable (path reason : Text) : Text := "--- [ERROR] Reading " ++ path ++ " ---\n" ++ reason

def ofFile (w : Workspace) (path : Text) (start stop : Option Int) : Except Failure Text := do
  if ← w.tree.isFile (Path.ofText path) then
    match w.tree.readText (Path.ofText path) with
    | .ok content => ofContent w path content start stop
    | .error failure => return unreadable path failure.message
  else return "--- [MISSING] " ++ path ++ " ---\n" ++ (← suggestion w path)

end SourceScout.FileContext
