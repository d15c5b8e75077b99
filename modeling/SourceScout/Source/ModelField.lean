import SourceScout.Pattern.Search

/-!
# Fields of data classes

The fields that a data class declares, one line each, with the comment that belongs to them. A block
or line comment waits for the next field. Annotations and blank lines keep it waiting, every other
line drops it, and a comment on the line of the field itself wins.
-/

namespace SourceScout

structure ModelField where
  name : Text
  type : Text
  comment : Text
  deriving Repr, DecidableEq

namespace ModelField

open Pattern

def isTypeText (c : Char) : Bool :=
  isWordChar c || c == '<' || c == '>' || c == ',' || isBlank c || c == '[' || c == ']' || c == '?'

/-- `[modifiers] TYPE NAME [= VALUE];`, type and name recorded. -/
def declaration : Pattern :=
  atStart ++ optional (anyOf ["public", "protected", "private"]) ++ blanks ++
    optional (word "static" ++ blanks1) ++ optional (word "final" ++ blanks1) ++
    capture (many1 isTypeText) ++ blanks1 ++ Pattern.name ++ blanks ++
    optional (char '=' ++ many (· != '\n')) ++ char ';'

def statementWords : List Text :=
  ["return", "throw", "package", "import", "break", "continue", "yield", "new", "else", "case",
   "goto", "assert"]

/-- Code and comment of a line with a `//` comment after its last `;`. -/
def splitComment (line : Text) : Text × Text :=
  match Text.cutLast? [';'] line with
  | none => (line, [])
  | some (code, after) =>
    let rest := after.strip
    if Text.startsWith "//" rest then (code ++ [';'], Text.strip (rest.drop 2)) else (line, [])

def isDeclaration (type : Text) : Bool :=
  match type.firstWord? with
  | some first => !statementWords.contains first
  | none => false

/-- Name and type of the field that a piece of code declares. A parenthesis rules it out. -/
def declared? (code : Text) : Option (Text × Text) :=
  if code.contains '(' then none
  else
    (declaration.matchStart? code).bind fun m =>
      if isDeclaration (m.capture 0) then some ((m.capture 1).strip, (m.capture 0).strip) else none

def ofLine? (waiting line : Text) : Option ModelField :=
  let (code, comment) := splitComment line
  (declared? code).map fun (name, type) =>
    ⟨name, type, if comment.isEmpty then waiting else comment⟩

def commentLine (line : Text) : Text :=
  (Text.replaceFirst ['*'] [] (Text.replaceAll "*/" [] line)).strip

def commentOpening (line : Text) : Text :=
  (Text.replaceFirst "/*" [] (Text.replaceFirst "/**" [] line)).strip

def joinComment (pieces : List Text) : Text :=
  Text.join [' '] (pieces.filter fun piece => !piece.isEmpty)

/-- Where a scan of lines stands: in code with a waiting comment, or inside a block comment. -/
inductive ScanState where
  | code (waiting : Text)
  | comment (pieces : List Text)
  deriving Repr, DecidableEq

def scanLine : ScanState → Text → Option ModelField × ScanState
  | .comment pieces, line =>
    let trimmed := line.strip
    let pieces := pieces ++ [commentLine trimmed]
    (none, if Text.hasPart "*/" trimmed then .code (joinComment pieces) else .comment pieces)
  | .code waiting, line =>
    let trimmed := line.strip
    if Text.startsWith "/*" trimmed then
      let opening := commentOpening trimmed
      if Text.hasPart "*/" trimmed then
        (none, .code (joinComment [(Text.replaceAll "*/" [] opening).strip]))
      else (none, .comment [opening])
    else if Text.startsWith "//" trimmed then (none, .code (Text.strip (trimmed.drop 2)))
    else if Text.startsWith "@" trimmed || trimmed.isEmpty then (none, .code waiting)
    else (ofLine? waiting trimmed, .code [])

def scan : ScanState → List Text → List ModelField
  | _, [] => []
  | state, line :: rest =>
    let (field, state) := scanLine state line
    field.toList ++ scan state rest

def declaredIn (content : Text) : List ModelField := scan (.code []) content.lines

end ModelField

end SourceScout
