import SourceScout.Pattern.Search
import SourceScout.Source.TypeName

/-!
# Called fields

The types that a source text gives to its fields, and the names that a piece of code uses in front
of a dot.
-/

namespace SourceScout.CalledField

open Pattern

def isNameStart (c : Char) : Bool := c.isAlpha || c == '_'

/-- `MODIFIER [final] TYPE NAME;`, type and name recorded. -/
def declaration : Pattern :=
  atStart ++ blanks ++ anyOf ["private", "protected", "public"] ++ blanks1 ++
    optional (word "final" ++ blanks1) ++
    capture (one isNameStart ++ many fun c => isWordChar c || c == '<' || c == '>') ++ blanks1 ++
    capture (one isNameStart ++ many isWordChar) ++ blanks ++ char ';'

/-- Gives a name a type: a new name comes last, a known one keeps its place. -/
def assign (name type : Text) : List (Text × Text) → List (Text × Text)
  | [] => [(name, type)]
  | entry :: rest => if entry.1 = name then (name, type) :: rest else entry :: assign name type rest

def typesIn (lines : List Text) : List (Text × Text) :=
  lines.foldl (fun types line =>
    match declaration.matchStart? line with
    | some m => assign (m.capture 1) (TypeName.stripGenerics (m.capture 0)) types
    | none => types) []

def call : Pattern :=
  atWordEdge ++ capture (one isNameStart ++ many isWordChar) ++ blanks ++ char '.'

/-- The names used in front of a dot, each once, in order of first use. -/
def calledIn (code : Text) : List Text :=
  ((call.findAll code).map (·.capture 0)).eraseDups

end SourceScout.CalledField
