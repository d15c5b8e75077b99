import SourceScout.Implementation
import SourceScout.Project.Layout
import SourceScout.Source.CalledField

/-!
# Call paths

For each field that a piece of code uses: its type, and the files that define the type.
-/

namespace SourceScout.CallPath

def header : Text := "--- Call paths ---"

def step (field type file : Text) : Text := field ++ " -> " ++ type ++ " -> " ++ file

/-- The lines of one name. A name that is no field, or has no type, has none. -/
def linesOf (w : Workspace) (root : Path) (types : List (Text × Text)) (field : Text) :
    Except Failure (List Text) :=
  match (types.lookup field).filter fun type => !type.isEmpty with
  | none => .ok []
  | some type => do
    let files ← Implementation.typeFiles w root type
    return if files.isEmpty then [step field type "not found"] else files.map (step field type)

def ofContent (w : Workspace) (root : Path) (content code : Text) :
    Except Failure (Option Text) := do
  let types := CalledField.typesIn content.lines
  let lines ← (CalledField.calledIn code).mapM (linesOf w root types)
  return if lines.flatten.isEmpty then none else some (Text.unlines (header :: lines.flatten))

/-- The section of a piece of code of the file at a path. Without a root, searches start where the
project of the file does. -/
def ofFile (w : Workspace) (path code : Text) (root : Option Path) :
    Except Failure (Option Text) := do
  let file := Path.ofText path
  if !Text.endsWith Implementation.sourceEnding path then return none
  else if !(← w.tree.isFile file) then return none
  else match w.tree.readText file with
    | .error _ => return none
    | .ok content =>
      let start ← match root with
        | some root => .ok root
        | none => Project.searchRoot w.tree file (Package.declared? content)
      ofContent w start content code

end SourceScout.CallPath
