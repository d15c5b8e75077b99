import SourceScout.Block
import SourceScout.Language

/-!
# Outlines

The declarations of a text from top to bottom. The span of a declaration ends where the braces,
counted line by line, are closed; a field spans its own line.
-/

namespace SourceScout

/-- One entry of an outline; lines are counted from one. -/
structure OutlineItem where
  name : Text
  kind : DeclKind
  startLine : Nat
  endLine : Nat
  signature : Text
  deriving Repr, DecidableEq

namespace Outline

def inAnnotationStack (trimmed : Text) : Bool :=
  Text.startsWith "@" trimmed || Text.startsWith "*" trimmed || Text.startsWith "//" trimmed

/-- The annotations stacked directly above a line, top to bottom and stripped. Comment lines are
stepped over; any other line ends the stack. -/
def annotationsAbove (lines : List Text) (index : Nat) : List Text :=
  (((lines.take index).reverse.map Text.strip).takeWhile inAnnotationStack).reverse.filter
    (Text.startsWith "@")

def braceBalance (line : Text) : Int := (line.count '{' : Int) - line.count '}'

/-- The number of lines, out of those from a declaration on, that belong to its span. `opened` says
whether a `{` was seen and `balance` how many are open. -/
def spanLength : (opened : Bool) → (balance : Int) → List Text → Nat
  | _, _, [] => 0
  | opened, balance, line :: rest =>
    let opened := opened || line.contains '{'
    let balance := balance + braceBalance line
    if opened && balance ≤ 0 then 1 else 1 + spanLength opened balance rest

/-- The last line, counted from one, of the span that starts at line `index`, counted from zero. A
span that never closes ends with the text. -/
def spanEnd (lines : List Text) (index : Nat) : Nat :=
  let length := spanLength false 0 (lines.drop index)
  if length = 0 then index + 1 else index + length

def signature (language : Language) (lines : List Text) (index : Nat) (line : Text) : Text :=
  let above := if language.hasAnnotations then annotationsAbove lines index else []
  Text.join " " (above ++ [line.strip])

def item? (language : Language) (lines : List Text) (index : Nat) (line : Text) :
    Option OutlineItem :=
  (language.classify? line).map fun declaration =>
    { name := declaration.name
      kind := declaration.kind
      startLine := index + 1
      endLine := if declaration.kind = .field then index + 1 else spanEnd lines index
      signature := signature language lines index line }

def ofLines (language : Language) (lines : List Text) : List OutlineItem :=
  lines.zipIdx.filterMap fun (line, index) => item? language lines index line

def ofText (language : Language) (content : Text) : List OutlineItem :=
  ofLines language content.lines

def inLanguage (language : Option Language) (content : Text) : List OutlineItem :=
  match language with
  | some language => ofText language content
  | none => []

def shallow (language : Language) (content : Text) : List OutlineItem :=
  (ofText language content).filter fun item => item.kind != .field

end Outline

end SourceScout
