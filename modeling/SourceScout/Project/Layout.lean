import SourceScout.FileTree.Walk
import SourceScout.Source.Package

/-!
# Project layout

The root of the project to which a file belongs. The nearest directory above the file that has a
build file and several modules wins; then the nearest that owns a `src` directory; then the
directory in which the packages of the file start.
-/

namespace SourceScout.Project

/-- An answer, or another one where a path cannot be used. -/
def orElsePath {α : Type} (answer : Except Failure α) (other : α) : Except Failure α :=
  match answer with
  | .error (.path _ _) => .ok other
  | answer => answer

def buildFiles : List Text := ["pom.xml", "build.gradle", "build.gradle.kts"]

def sourceDirectory : Path := ⟨.relative, ["src"]⟩

def moduleSources : Path := ⟨.relative, ["src", "main", "java"]⟩

def hasBuildFile (tree : FileTree) (directory : Path) : Except Failure Bool :=
  buildFiles.anyM fun name => tree.isFile (directory.child name)

def owns (tree : FileTree) (part child : Path) : Except Failure Bool := do
  if ← tree.isDirectory child then tree.isDirectory (child ++ part) else return false

/-- Whether enough of the children have module sources; `count` is how many were found before. -/
def enoughModules (tree : FileTree) (least : Int) : Int → List Path → Except Failure Bool
  | _, [] => .ok false
  | count, child :: rest => do
    if ← owns tree moduleSources child then
      if least ≤ count + 1 then return true else enoughModules tree least (count + 1) rest
    else enoughModules tree least count rest

/-- The children of a directory, by name; there are none if it cannot be listed. -/
def children (tree : FileTree) (directory : Path) : Except Failure (List Path) :=
  orElsePath ((tree.entries directory).map fun entries =>
    entries.map fun entry => directory.child entry.1) []

def hasModules (tree : FileTree) (directory : Path) (least : Int) : Except Failure Bool := do
  enoughModules tree least 0 (← children tree directory)

def isMultiModule (tree : FileTree) (directory : Path) : Except Failure Bool := do
  if ← hasBuildFile tree directory then hasModules tree directory 2 else return false

def hasSources (tree : FileTree) (directory : Path) : Except Failure Bool :=
  tree.isDirectory (directory ++ sourceDirectory)

def root? (tree : FileTree) (file : Path) (package : Option Text) :
    Except Failure (Option Path) := do
  let file := tree.absolute file
  match ← file.ancestors.findM? (isMultiModule tree) with
  | some root => return some root
  | none =>
    match ← file.ancestors.findM? (hasSources tree) with
    | some root => return some root
    | none => return package.bind (Package.sourceRoot? file)

def searchRoot (tree : FileTree) (file : Path) (package : Option Text) : Except Failure Path := do
  return (← root? tree file package).getD (tree.absolute file).parent

/-- The names of the child directories that own a `src` directory; there are none if anything is in
the way. -/
def modules (tree : FileTree) (root : Path) : Except Failure (List Text) :=
  orElsePath (do
    let entries ← tree.entries root
    let owners ← entries.filterM fun entry => owns tree sourceDirectory (root.child entry.1)
    return owners.map (·.1)) []

end SourceScout.Project
