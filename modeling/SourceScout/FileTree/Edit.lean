import SourceScout.FileTree.Lookup

/-!
# Changing file trees

Files are written, directories and links made, and entries removed. A path is followed by the rules
of lookups, but directories that are missing on the way are made.
-/

namespace SourceScout.FileTree

def target (tree : FileTree) (keepLast : Bool) (p : Path) : Except PathFault (List Text) :=
  tree.reach keepLast true p.isAbsolute p.toText.utf8Length p.names

def changeAt (tree : FileTree) (place : List Text) (f : Option Node → Option Node) : FileTree :=
  { tree with root := (Node.change f place (some tree.root)).getD tree.root }

/-- Writes a file. There is no writing over a directory, nor over a file that is closed to the
reader. -/
def write (tree : FileTree) (p : Path) (bytes : List UInt8) : Except PathFault FileTree := do
  let place ← tree.target false p
  match tree.root.below? place with
  | some (.directory _ _ _) => .error .isDirectory
  | some (.file false _) => .error .denied
  | _ => return tree.changeAt place fun _ => some (.file true bytes)

def makeDirectory (tree : FileTree) (p : Path) : Except PathFault FileTree := do
  let place ← tree.target false p
  return tree.changeAt place fun node => some (node.getD .empty)

def makeLink (tree : FileTree) (p : Path) (text : Text) : Except PathFault FileTree := do
  let place ← tree.target true p
  return tree.changeAt place fun _ => some (.link text)

def remove (tree : FileTree) (p : Path) : Except PathFault FileTree := do
  let place ← tree.target true p
  return tree.changeAt place fun _ => none

def setAccess (tree : FileTree) (p : Path) (read pass : Bool) : Except PathFault FileTree := do
  let place ← tree.target false p
  return tree.changeAt place fun node => node.map (Node.withAccess read pass)

end SourceScout.FileTree
