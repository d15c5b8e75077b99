import SourceScout.FileTree.Lookup

/-!
# Walks

All files below a directory, in a fixed order: first the files of the directory itself by name, then
the walks of its subdirectories by name. Ignored directories are not entered, nor are links to
directories; a directory that cannot be listed, or whose path is too long, has no files.
-/

namespace SourceScout

/-- The directory names that a walk does not enter, apart from hidden ones. -/
abbrev IgnoredNames := List Text

def isIgnored (ignored : IgnoredNames) (name : Text) : Bool :=
  ignored.contains name || Text.startsWith "." name

namespace FileTree

/-- Whether an entry of a directory counts as a directory: a real one, or a link that leads to
one. -/
def countsAsDirectory (tree : FileTree) (here : Path) (entry : Text × Node) : Bool :=
  match entry.2 with
  | .directory _ _ _ => true
  | .file _ _ => false
  | .link _ =>
    match tree.lookup (here.child entry.1) with
    | .ok node => node.isDirectory
    | .error _ => false

def filesHere (tree : FileTree) (ending : Text) (here : Path) (entries : List (Text × Node)) :
    List Path :=
  ((sortNamed entries).filter fun entry =>
    !tree.countsAsDirectory here entry && Text.endsWith ending entry.1).map fun entry =>
      here.child entry.1

mutual
def walkNode (tree : FileTree) (ignored : IgnoredNames) (ending : Text) : Path → Node → List Path
  | here, .directory listable searchable entries =>
    if !listable || maxPathLength ≤ here.toText.utf8Length then []
    else
      tree.filesHere ending here entries ++
        if searchable then
          (sortNamed (walkEntries tree ignored ending here entries)).flatMap (·.2)
        else []
  | _, _ => []

def walkEntries (tree : FileTree) (ignored : IgnoredNames) (ending : Text) :
    Path → List (Text × Node) → List (Text × List Path)
  | _, [] => []
  | here, (name, node) :: rest =>
    if isIgnored ignored name then walkEntries tree ignored ending here rest
    else (name, walkNode tree ignored ending (here.child name) node) ::
      walkEntries tree ignored ending here rest
end

def walk (tree : FileTree) (ignored : IgnoredNames) (ending : Text) (root : Path) :
    Except Failure (List Path) :=
  if root.toText.contains '\x00' then .error .nulInPath
  else match tree.lookup root with
    | .ok node => .ok (tree.walkNode ignored ending root node)
    | .error _ => .ok []

def walkNamed (tree : FileTree) (ignored : IgnoredNames) (names : List Text) (root : Path) :
    Except Failure (List Path) :=
  (tree.walk ignored ".java" root).map fun paths => paths.filter fun p => names.contains p.name

end FileTree

end SourceScout
