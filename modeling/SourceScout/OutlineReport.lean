import SourceScout.FileTree.Lookup
import SourceScout.Language
import SourceScout.Outline
import SourceScout.Value

/-!
# Outline reports

The outline of a file of the tree, or the reason why there is none, as a value to be written.
-/

namespace SourceScout

inductive OutlineReport where
  | outline (path extension : Text) (items : List OutlineItem)
  | failed (path reason : Text)
  deriving Repr, DecidableEq

/-- An outline entry as a value. An entry may lack its last line. -/
def outlineFields (name kind : Text) (startLine : Int) (endLine : Option Int) (signature : Text) :
    Value :=
  .table ([("name".toList, .text name), ("type".toList, .text kind),
      ("startLine".toList, .int startLine)] ++
    endLine.toList.map (fun line => ("endLine".toList, .int line)) ++
    [("signature".toList, .text signature)])

def OutlineItem.toValue (item : OutlineItem) : Value :=
  outlineFields item.name item.kind.toText item.startLine (some item.endLine) item.signature

namespace OutlineReport

def itemsOf (p : Path) (content : Text) : List OutlineItem :=
  Outline.inLanguage (Language.ofPath? p) content

def ofFile (tree : FileTree) (path : Text) : Except Failure OutlineReport := do
  let p := Path.ofText path
  if ← tree.isFile p then
    match tree.readText p with
    | .ok content => return .outline path p.extension (itemsOf p content)
    | .error failure => return .failed path ("Outline failed: " ++ failure.message)
  else return .failed path "File does not exist or is not a regular file"

def toValue : OutlineReport → Value
  | .outline path extension items =>
    .table [("path".toList, .text path), ("language".toList, .text extension),
      ("totalItems".toList, .int items.length),
      ("outline".toList, .list (items.map OutlineItem.toValue))]
  | .failed path reason =>
    .table [("path".toList, .text path), ("error".toList, .text reason)]

end OutlineReport

end SourceScout
