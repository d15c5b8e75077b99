import SourceScout.CallPath
import SourceScout.Snippet

/-!
# Views of code items

The snippet of an item with its call paths, followed by those of its implementations.
Implementations that mention the item are numbered without gaps.
-/

namespace SourceScout.ItemView

def separator : Text := "\n\n" ++ Text.times 30 "=" ++ "\n\n"

/-- Where searches for a file start; its package counts if it can be read. -/
def searchRoot (w : Workspace) (path : Text) : Except Failure Path := do
  let file := Path.ofText path
  let package := if ← w.tree.isFile file then
      match w.tree.readText file with
      | .ok content => Package.declared? content
      | .error _ => none
    else none
  Project.searchRoot w.tree file package

def snippetParts (w : Workspace) (root : Path) (label : Text) (snippet : Snippet) :
    Except Failure (List Text) := do
  let calls ← CallPath.ofFile w snippet.path snippet.code (some root)
  return (label ++ snippet.toText) :: calls.toList

def label (className : Text) (rank count : Nat) : Text :=
  "--- Impl match: " ++ className ++ " (" ++ Text.ofNat rank ++ "/" ++ Text.ofNat count ++
    ") ---\n"

/-- The parts of the implementations; `rank` is the number of the next one that mentions the
item. -/
def implementationParts (w : Workspace) (root : Path) (item className : Text) (count : Nat) :
    (rank : Nat) → List Text → Except Failure (List Text)
  | _, [] => .ok []
  | rank, file :: rest => do
    match ← Snippet.ofFile w file item none none with
    | .error _ => implementationParts w root item className count rank rest
    | .ok snippet =>
      let parts ← snippetParts w root (label className rank count) snippet
      return parts ++ (← implementationParts w root item className count (rank + 1) rest)

def ofFile (w : Workspace) (path item : Text) : Except Failure Text := do
  let found ← Snippet.ofFile w path item none none
  let root ← searchRoot w path
  let main ← match found with
    | .ok snippet => snippetParts w root [] snippet
    | .error miss => .ok [miss.toText]
  let files ← Implementation.candidates w path root
  let className := (Implementation.className? path).getD "unknown implementation"
  let others ← implementationParts w root item className files.length 1 files
  return Text.join "\n\n" (main ++ others)

end SourceScout.ItemView
