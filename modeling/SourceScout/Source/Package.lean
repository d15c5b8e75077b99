import SourceScout.Path.Basic
import SourceScout.Pattern.Search

/-!
# Packages

The package that a source text declares, and the directory in which its packages start.
-/

namespace SourceScout.Package

open Pattern

def declaration : Pattern := word "package" ++ blanks1 ++ capture (many1 (· != ';')) ++ char ';'

/-- The name in the first package declaration of a text. It can be empty. -/
def declared? (content : Text) : Option Text :=
  (declaration.search? content).map fun m => (m.capture 0).strip

def nonempty? (content : Text) : Option Text := (declared? content).filter fun name => !name.isEmpty

def segments (name : Text) : List Text := Text.splitOn '.' name

/-- The first two segments: what the packages of one project share. -/
def projectPrefix (package : Text) : Text := Text.join ['.'] ((segments package).take 2)

/-- The directory in which the first segment of a package lies, if the directory of the file ends
with the segments and does not consist of them alone. -/
def sourceRoot? (file : Path) (package : Text) : Option Path :=
  if package.isEmpty then none
  else
    let parts := segments package
    let directory := file.parent
    if parts.length < directory.partCount ∧ parts.isSuffixOf directory.names then
      some { directory with names := directory.names.take (directory.names.length - parts.length) }
    else none

end SourceScout.Package
