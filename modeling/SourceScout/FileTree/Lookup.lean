import SourceScout.FileTree.Basic

/-!
# Looking up paths

A path is followed name by name. Each directory on the way must let the reader pass, a name has at
most 255 bytes, a path fewer than 4096, and at most forty links are followed. `..` leads to the
directory above the one reached, wherever links have led. Two leading slashes lead to the root, as
one does.

The text of a link is followed piece by piece, so its end counts: behind a slash there must be a
directory, and a dot asks for one that lets the reader pass.
-/

namespace SourceScout.FileTree

def maxLinks : Nat := 40

def maxNameLength : Nat := 255

/-- The number of bytes that a path must stay below. -/
def maxPathLength : Nat := 4096

/-- How far names lead without following a link: to a place, to a directory that does not have the
next of them, to a link in a directory with names left after it, or nowhere. Places are given by
their names from the root. -/
inductive Progress where
  | arrived (place : List Text)
  | absent (directory : List Text) (names : List Text)
  | link (directory : List Text) (target : Text) (names : List Text)
  | failed (fault : PathFault)
  deriving Repr, DecidableEq

/-- Follows names from a place. The last name may be that of a link if `keepLast`. -/
def advance (root : Node) (keepLast : Bool) : List Text → List Text → Progress
  | place, [] => .arrived place
  | place, name :: names =>
    match root.below? place with
    | some (.directory _ searchable entries) =>
      if name = [] then advance root keepLast place names
      else if !searchable then .failed .denied
      else if name = ['.'] then advance root keepLast place names
      else if name = ['.', '.'] then advance root keepLast place.dropLast names
      else if maxNameLength < name.utf8Length then .failed .nameTooLong
      else match Node.child? name entries with
        | none => .absent place (name :: names)
        | some (.link target) =>
          if names.isEmpty && keepLast then .arrived (place ++ [name])
          else .link place target names
        | some _ => advance root keepLast (place ++ [name]) names
    | some (.file _ _) => .failed .notDirectory
    | _ => .failed .missing

/-- The place that names lead to once they are all made below a place. -/
def made : List Text → List Text → Except PathFault (List Text)
  | place, [] => .ok place
  | place, name :: names =>
    if name = [] || name = ['.'] then made place names
    else if name = ['.', '.'] then made place.dropLast names
    else if maxNameLength < name.utf8Length then .error .nameTooLong
    else made (place ++ [name]) names

/-- Follows names from a place and up to `links` links. What is not there counts as made if
`making`. -/
def follow (root : Node) (keepLast making : Bool) : (links : Nat) → List Text → List Text →
    Except PathFault (List Text)
  | links, place, names =>
    match advance root keepLast place names with
    | .arrived place => .ok place
    | .absent place names => if making then made place names else .error .missing
    | .failed fault => .error fault
    | .link directory target names =>
      match links with
      | 0 => .error .linkLoop
      | links + 1 =>
        let start := if (Path.ofText target).isAbsolute then [] else directory
        follow root keepLast making links start (Text.splitOn '/' target ++ names)

/-- Follows names from the root, or from the working directory if they are not `anchored`. The path
that they are the names of has `length` bytes. -/
def reach (tree : FileTree) (keepLast making anchored : Bool) (length : Nat) (names : List Text) :
    Except PathFault (List Text) :=
  if maxPathLength ≤ length then .error .nameTooLong
  else follow tree.root keepLast making maxLinks (if anchored then [] else tree.workingDirectory)
    names

def locate (tree : FileTree) (keepLast : Bool) (p : Path) : Except PathFault (List Text) :=
  tree.reach keepLast false p.isAbsolute p.toText.utf8Length p.names

def nodeAt (tree : FileTree) (place : List Text) : Except PathFault Node :=
  match tree.root.below? place with
  | some node => .ok node
  | none => .error .missing

def node (tree : FileTree) (keepLast : Bool) (p : Path) : Except PathFault Node :=
  tree.locate keepLast p >>= tree.nodeAt

def lookup (tree : FileTree) (p : Path) : Except PathFault Node := tree.node false p

/-- Whether a fault only says that there is nothing at the path. -/
def isAbsence : PathFault → Bool
  | .missing | .notDirectory | .linkLoop => true
  | _ => false

/-- Whether the node at a path satisfies a test. Nothing at the path, or a NUL in it, means no;
another fault is a failure. -/
def holds (test : Node → Bool) (p : Path) (found : Except PathFault Node) : Except Failure Bool :=
  if p.toText.contains '\x00' then .ok false
  else match found with
    | .ok node => .ok (test node)
    | .error fault => if isAbsence fault then .ok false else .error (.path fault p.toText)

def contains (tree : FileTree) (p : Path) : Except Failure Bool :=
  holds (fun _ => true) p (tree.lookup p)

def isFile (tree : FileTree) (p : Path) : Except Failure Bool :=
  holds Node.isFile p (tree.lookup p)

def isDirectory (tree : FileTree) (p : Path) : Except Failure Bool :=
  holds Node.isDirectory p (tree.lookup p)

def isLink (tree : FileTree) (p : Path) : Except Failure Bool :=
  holds Node.isLink p (tree.node true p)

/-- Whether a path leads to a file, whatever may stand in the way. -/
def seesFile (tree : FileTree) (p : Path) : Bool :=
  match tree.isFile p with
  | .ok found => found
  | .error _ => false

def entries (tree : FileTree) (p : Path) : Except Failure (List (Text × Node)) :=
  if p.toText.contains '\x00' then .error .nulInPath
  else match tree.lookup p with
    | .error fault => .error (.path fault p.toText)
    | .ok (.directory listable _ entries) =>
      if listable then .ok (sortNamed entries) else .error (.path .denied p.toText)
    | .ok _ => .error (.path .notDirectory p.toText)

def readBytes (tree : FileTree) (p : Path) : Except Failure (List UInt8) :=
  if p.toText.contains '\x00' then .error .nulInPath
  else match tree.lookup p with
    | .error fault => .error (.path fault p.toText)
    | .ok (.file readable bytes) => if readable then .ok bytes else .error (.path .denied p.toText)
    | .ok _ => .error (.path .isDirectory p.toText)

/-- The node that a path leads to as it is written, to its last slash or dot. -/
def lookupWritten (tree : FileTree) (written : Text) : Except PathFault Node :=
  tree.reach false false (Path.ofText written).isAbsolute written.utf8Length
    (Text.splitOn '/' written) >>= tree.nodeAt

/-- The bytes of a file, by a path as it is written; an empty path leads nowhere. -/
def readWritten (tree : FileTree) (written : Text) : Except Failure (List UInt8) :=
  if written.contains '\x00' then .error .nulInPath
  else if written.isEmpty then .error (.path .missing written)
  else match tree.lookupWritten written with
    | .error fault => .error (.path fault written)
    | .ok (.file readable bytes) =>
      if readable then .ok bytes else .error (.path .denied written)
    | .ok _ => .error (.path .isDirectory written)

/-- The text of a file, malformed bytes replaced and line ends made plain. -/
def readText (tree : FileTree) (p : Path) : Except Failure Text :=
  (tree.readBytes p).map fun bytes => Utf8.plainLineEnds (Utf8.decode bytes)

end SourceScout.FileTree
