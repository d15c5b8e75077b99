import SourceScout.Failure
import SourceScout.Path.Basic

/-!
# File trees

A file tree is a value: files with their bytes, directories with their entries, links with their
target. A file can be unreadable; a directory can refuse to be listed or to be passed through. The
order of entries means nothing, names are looked up.
-/

namespace SourceScout

inductive Node where
  | file (readable : Bool) (bytes : List UInt8)
  | directory (listable searchable : Bool) (entries : List (Text × Node))
  | link (target : Text)

namespace Node

def isFile : Node → Bool
  | .file _ _ => true
  | _ => false

def isDirectory : Node → Bool
  | .directory _ _ _ => true
  | _ => false

def isLink : Node → Bool
  | .link _ => true
  | _ => false

def empty : Node := .directory true true []

def child? (name : Text) (entries : List (Text × Node)) : Option Node :=
  (entries.find? fun entry => entry.1 == name).map (·.2)

/-- The node below a node, without following links. -/
def below? : Node → List Text → Option Node
  | node, [] => some node
  | .directory _ _ entries, name :: names => (child? name entries).bind (·.below? names)
  | _, _ :: _ => none

/-- Sets or removes the entry of a name; a new entry comes last. -/
def setEntry (name : Text) (node : Option Node) : List (Text × Node) → List (Text × Node)
  | [] => node.toList.map fun n => (name, n)
  | entry :: rest =>
    if entry.1 = name then node.toList.map (fun n => (name, n)) ++ rest
    else entry :: setEntry name node rest

/-- Changes the node below a node, making open directories on the way where there is nothing. -/
def change (f : Option Node → Option Node) : List Text → Option Node → Option Node
  | [], node => f node
  | name :: names, some (.directory listable searchable entries) =>
    some (.directory listable searchable
      (setEntry name (change f names (child? name entries)) entries))
  | _ :: _, some node => some node
  | name :: names, none => some (.directory true true (setEntry name (change f names none) []))

def withAccess (read pass : Bool) : Node → Node
  | .file _ bytes => .file read bytes
  | .directory _ _ entries => .directory read pass entries
  | .link target => .link target

end Node

/-- A file tree and the directory, by its names from the root, where relative paths start. -/
structure FileTree where
  root : Node
  workingDirectory : List Text

namespace FileTree

def workingPath (tree : FileTree) : Path := ⟨.root, tree.workingDirectory⟩

def absolute (tree : FileTree) (p : Path) : Path :=
  if p.isAbsolute then p else tree.workingPath ++ p

end FileTree

end SourceScout
