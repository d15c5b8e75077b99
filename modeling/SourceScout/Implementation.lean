import SourceScout.Path.Written
import SourceScout.Pattern.Search
import SourceScout.Settings.Basic

/-!
# Implementations of interfaces

Where the class that implements an interface is expected, by the convention of names and
directories, and the files that declare a class of a given name.
-/

namespace SourceScout.Implementation

def sourceEnding : Text := ".java"

def serviceEnding : Text := "Service.java"

def serviceDirectory : Text := "/service/"

def implDirectory : Text := "/service/impl/"

/-- The path where the implementation of a service is expected: beside it, or in the directory of
implementations if it lies in that of services. -/
def expectedPath? (path : Text) : Option Text :=
  let file := WrittenPath.baseName path
  if Text.endsWith serviceEnding file then
    let name := file.take (file.length - serviceEnding.length) ++ ("ServiceImpl.java" : Text)
    let moved := match Text.cutLast? serviceDirectory path with
      | some (head, tail) =>
        if Text.hasPart implDirectory path then path else head ++ implDirectory ++ tail
      | none => path
    some (WrittenPath.append (WrittenPath.directory moved) name)
  else none

def className? (path : Text) : Option Text :=
  if Text.endsWith sourceEnding path then
    let file := WrittenPath.baseName path
    let base := file.take (file.length - sourceEnding.length)
    some (if Text.endsWith "Impl" base then base else base ++ ("Impl" : Text))
  else none

def declaration (keywords : List Text) (name : Text) : Pattern :=
  Pattern.atWordEdge ++ Pattern.anyOf keywords ++ Pattern.blanks1 ++ Pattern.word name ++
    Pattern.atWordEdge

def declares (tree : FileTree) (pattern : Pattern) (file : Path) : Bool :=
  match tree.readText file with
  | .ok content => pattern.occursIn content
  | .error _ => false

def declaringFiles (w : Workspace) (keywords : List Text) (root : Path) (name : Text) :
    Except Failure (List Text) := do
  let files ← w.tree.walkNamed w.ignored [name ++ sourceEnding] root
  return (files.filter (declares w.tree (declaration keywords name))).map Path.toText

def classFiles (w : Workspace) (root : Path) (name : Text) : Except Failure (List Text) :=
  declaringFiles w ["class"] root name

def typeFiles (w : Workspace) (root : Path) (name : Text) : Except Failure (List Text) :=
  declaringFiles w ["class", "interface", "enum"] root name

/-- The simplified path of a file, from the root on. -/
def fullPath (w : Workspace) (path : Text) : Text :=
  WrittenPath.absolute w.tree.workingPath.toText path

def expectedFile? (w : Workspace) (path : Text) : Option Text :=
  (expectedPath? path).filter fun expected => w.tree.seesFile (Path.ofText expected)

/-- The files that may implement what a file declares, each once and without the file itself. The
one where it is expected comes first. -/
def candidates (w : Workspace) (path : Text) (root : Path) : Except Failure (List Text) := do
  let named ← match className? path with
    | some name => classFiles w root name
    | none => .ok []
  let files := ((expectedFile? w path).toList ++ named).map (fullPath w)
  return files.eraseDups.filter fun file => file != fullPath w path

end SourceScout.Implementation
