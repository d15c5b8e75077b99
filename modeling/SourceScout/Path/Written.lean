import SourceScout.Path.Basic

/-!
# Written paths

Operations on path texts as they are written, where double slashes and single dots still count.
-/

namespace SourceScout.WrittenPath

def baseName (t : Text) : Text := Text.afterLast '/' t

/-- What stands before the last slash, without slashes at its end unless it has nothing else. -/
def directory (t : Text) : Text :=
  match Text.cutLast? ['/'] t with
  | none => []
  | some (before, _) =>
    let head := before ++ ['/']
    if head.all (· == '/') then head else Text.dropEndWhile (· == '/') head

def append (directory name : Text) : Text :=
  if name.head? = some '/' then name
  else if directory.isEmpty || directory.getLast? = some '/' then directory ++ name
  else directory ++ '/' :: name

/-- Adds a name to names already simplified, the last of them first: `..` takes the name before it
away. -/
def addName (anchored : Bool) (names : List Text) (name : Text) : List Text :=
  if name ≠ ".." then name :: names
  else match names with
    | [] => if anchored then [] else [name]
    | last :: before => if last = ".." then name :: names else before

/-- The shortest text for a path: empty names, dots and names taken back by `..` are left out. -/
def simplify (t : Text) : Text :=
  let anchor := Anchor.ofText t
  let names := ((Path.namesOf t).foldl (addName (anchor != .relative)) []).reverse
  Path.toText ⟨anchor, names⟩

def absolute (workingDirectory t : Text) : Text := simplify (append workingDirectory t)

end SourceScout.WrittenPath
