import SourceScout.Text.Basic

/-!
# Paths

A path is an anchor and a list of names. Reading a path drops empty names and names of a single
dot; `..` is a name like any other, so a path is never shortened. Exactly two leading slashes are an
anchor of their own.
-/

namespace SourceScout

inductive Anchor where
  | relative
  | root
  | doubleRoot
  deriving Repr, DecidableEq

structure Path where
  anchor : Anchor
  names : List Text
  deriving Repr, DecidableEq

namespace Anchor

def toText : Anchor → Text
  | .relative => []
  | .root => "/"
  | .doubleRoot => "//"

/-- The anchor of a path text: two slashes count only if there is no third. -/
def ofText : Text → Anchor
  | '/' :: '/' :: '/' :: _ => .root
  | '/' :: '/' :: _ => .doubleRoot
  | '/' :: _ => .root
  | _ => .relative

end Anchor

namespace Path

def isName (piece : Text) : Bool := piece != [] && piece != ['.']

def namesOf (t : Text) : List Text := (Text.splitOn '/' t).filter isName

def ofText (t : Text) : Path := ⟨.ofText t, namesOf t⟩

/-- The written form; an empty relative path is a dot. -/
def toText (p : Path) : Text :=
  if p.anchor = .relative ∧ p.names = [] then ['.']
  else p.anchor.toText ++ Text.join ['/'] p.names

def isAbsolute (p : Path) : Bool := p.anchor != .relative

/-- One path below another; an anchored path stays as it is. -/
def append (p q : Path) : Path :=
  if q.anchor = .relative then { p with names := p.names ++ q.names } else q

instance : Append Path := ⟨append⟩

def child (p : Path) (name : Text) : Path := { p with names := p.names ++ [name] }

/-- The path without its last name; an anchor is its own parent. -/
def parent (p : Path) : Path := { p with names := p.names.dropLast }

def name (p : Path) : Text := p.names.getLastD []

/-- The last name cut before its last dot, unless that dot is its first or last character. -/
def cutSuffix? (p : Path) : Option (Text × Text) :=
  match Text.cutLast? ['.'] p.name with
  | some (stem, suffix) => if stem.isEmpty || suffix.isEmpty then none else some (stem, suffix)
  | none => none

def suffix (p : Path) : Text :=
  match p.cutSuffix? with
  | some (_, suffix) => '.' :: suffix
  | none => []

def stem (p : Path) : Text :=
  match p.cutSuffix? with
  | some (stem, _) => stem
  | none => p.name

def partCount (p : Path) : Nat := p.names.length + (if p.isAbsolute then 1 else 0)

/-- The directories above a path, nearest first, without the anchor. -/
def ancestors (p : Path) : List Path :=
  let depth := p.names.length - 1
  (List.range depth).map fun i => { p with names := p.names.take (depth - i) }

end Path

end SourceScout
