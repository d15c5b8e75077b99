import SourceScout.Source.Package

/-!
# Import declarations

Qualified names as a source text imports them, and which of them belong to the project.
-/

namespace SourceScout

structure Import where
  qualifiedName : Text
  path : Text
  deriving Repr, DecidableEq

def simpleName (qualifiedName : Text) : Text := Text.afterLast '.' qualifiedName

namespace Import

open Pattern

def simpleName (i : Import) : Text := SourceScout.simpleName i.qualifiedName

def declaration : Pattern := word "import" ++ blanks1 ++ capture (many1 (· != ';')) ++ char ';'

def declaredIn (content : Text) : List Text :=
  (declaration.findAll content).map fun m => (m.capture 0).strip

/-- Whether a name lies in the project whose packages start with `start`. Annotation packages do not
count. -/
def inProject (start qualifiedName : Text) : Bool :=
  Text.startsWith (start ++ ['.']) qualifiedName && !Text.hasPart ".annotation." qualifiedName

def relativePath (qualifiedName : Text) : Path :=
  let parts := Package.segments qualifiedName
  let last := parts.getLastD [] ++ (".java" : Text)
  (parts.dropLast.map Path.ofText).foldl (· ++ ·) ⟨.relative, []⟩ ++ Path.ofText last

end Import

end SourceScout
