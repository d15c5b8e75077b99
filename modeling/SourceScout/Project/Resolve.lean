import SourceScout.Project.Layout
import SourceScout.Source.Import

/-!
# Resolving imports

The file that defines an imported class: below the sources of the root, below the root itself, below
the sources of a module, or, for a simple name that is imported once and still unresolved, any file
of that name under its own package.
-/

namespace SourceScout.Project

/-- The first path found, unless a failure comes before it. -/
def firstHit : List (Text × Except Failure (Option Path)) → Except Failure (Option Path)
  | [] => .ok none
  | (_, answer) :: rest => do
    match ← answer with
    | some hit => return some hit
    | none => firstHit rest

def canAsk (tree : FileTree) (here : Path) (entries : List (Text × Node)) : Bool :=
  entries.all fun entry => (tree.isDirectory (here.child entry.1)).isOk

mutual
/-- The file at `target` below the sources of the first module that has it, among the directories
below a directory that is reached as `here`. -/
def moduleHit (tree : FileTree) (ignored : IgnoredNames) (target : Path) :
    Path → Node → Except Failure (Option Path)
  | here, .directory listable _ entries =>
    if listable && canAsk tree here entries then
      firstHit (sortNamed (moduleHits tree ignored target here entries))
    else .ok none
  | _, _ => .ok none

/-- The answers of the directories among some entries. A module is not searched for modules; an
ignored directory is searched for nothing else. -/
def moduleHits (tree : FileTree) (ignored : IgnoredNames) (target : Path) :
    Path → List (Text × Node) → List (Text × Except Failure (Option Path))
  | _, [] => []
  | here, (name, .directory listable searchable entries) :: rest =>
    let child := here.child name
    let answer : Except Failure (Option Path) := do
      if ← tree.isDirectory (child ++ moduleSources) then
        let file := child ++ moduleSources ++ target
        return if ← tree.isFile file then some file else none
      else if isIgnored ignored name then return none
      else moduleHit tree ignored target child (.directory listable searchable entries)
    (name, answer) :: moduleHits tree ignored target here rest
  | here, _ :: rest => moduleHits tree ignored target here rest
end

def inModules (tree : FileTree) (ignored : IgnoredNames) (root target : Path) :
    Except Failure (Option Path) :=
  if root.toText.contains '\x00' then .error .nulInPath
  else match tree.lookup root with
    | .ok node => moduleHit tree ignored target root node
    | .error _ => .ok none

def resolve? (tree : FileTree) (ignored : IgnoredNames) (root : Option Path)
    (qualifiedName : Text) : Except Failure (Option Path) :=
  match root with
  | none => .ok none
  | some root => do
    let target := Import.relativePath qualifiedName
    match ← [root ++ moduleSources ++ target, root ++ target].findM? tree.isFile with
    | some file => return some file
    | none => inModules tree ignored root target

def importOfFile? (tree : FileTree) (file : Path) : Option Import :=
  match tree.readText file with
  | .ok content =>
    (Package.nonempty? content).map fun package =>
      ⟨package ++ '.' :: file.stem, file.toText⟩
  | .error _ => none

def distinctNames (imports : List Import) : List Import :=
  imports.eraseDupsBy fun i before => before.qualifiedName == i.qualifiedName

def isSearchable (name : Text) : Bool := name != [] && name != ['*']

def resolveSimple (tree : FileTree) (ignored : IgnoredNames) (root : Option Path)
    (names : List Text) : Except Failure (List Import) :=
  match root with
  | none => .ok []
  | some root =>
    if names.isEmpty then .ok []
    else do
      let wanted := (names.filter isSearchable).map fun name => name ++ (".java" : Text)
      let files ← tree.walkNamed ignored wanted root
      return distinctNames (files.filterMap (importOfFile? tree))

structure ImportScan where
  resolved : List Import
  fallback : List Import
  deriving Repr, DecidableEq

namespace ImportScan

def all (scan : ImportScan) : List Import := scan.resolved ++ scan.fallback

end ImportScan

/-- What is known while imports are resolved in order: the resolved ones, and how often each simple
name was tried. -/
structure ScanProgress where
  resolved : List Import
  tried : List (Text × Nat)
  deriving Repr, DecidableEq

def countTry (name : Text) : List (Text × Nat) → List (Text × Nat)
  | [] => [(name, 1)]
  | entry :: rest =>
    if entry.1 = name then (name, entry.2 + 1) :: rest else entry :: countTry name rest

/-- Resolves one imported name, unless it is not of the project or resolved already. -/
def scanName (tree : FileTree) (ignored : IgnoredNames) (root : Option Path) (start : Text)
    (progress : ScanProgress) (qualifiedName : Text) : Except Failure ScanProgress := do
  if !Import.inProject start qualifiedName then return progress
  else if progress.resolved.any fun i => i.qualifiedName == qualifiedName then return progress
  else
    let found ← resolve? tree ignored root qualifiedName
    let hit := found.toList.map fun file => Import.mk qualifiedName file.toText
    return ⟨progress.resolved ++ hit, countTry (simpleName qualifiedName) progress.tried⟩

/-- The simple names that were tried once and that no resolved import has. -/
def unresolvedNames (progress : ScanProgress) : List Text :=
  (progress.tried.filter fun entry =>
    entry.2 ≤ 1 && !progress.resolved.any fun i =>
      Text.endsWith ('.' :: entry.1) i.qualifiedName).map (·.1)

def scanImports (tree : FileTree) (ignored : IgnoredNames) (root : Option Path) (content : Text) :
    Except Failure ImportScan :=
  match Package.nonempty? content with
  | none => .ok ⟨[], []⟩
  | some package => do
    let start := Package.projectPrefix package
    let progress ← (Import.declaredIn content).foldlM (scanName tree ignored root start) ⟨[], []⟩
    let found ← resolveSimple tree ignored root (unresolvedNames progress)
    return ⟨progress.resolved, found.filter fun i =>
      !progress.resolved.any fun r => r.qualifiedName == i.qualifiedName⟩

end SourceScout.Project
