import SourceScout.Path.Basic
import SourceScout.Pattern.Search
import SourceScout.Text.Lowercase

/-!
# Languages and their declaration rules

Each language has an ordered list of rules. A line is classified by the first rule that matches it
and takes its name from that rule; a line that no rule matches declares nothing. The rules look at
one line at a time and prefer to find too much.
-/

namespace SourceScout

inductive DeclKind where
  | classType
  | interfaceType
  | method
  | field
  | function
  deriving Repr, DecidableEq

namespace DeclKind

def toText : DeclKind → Text
  | .classType => "class"
  | .interfaceType => "interface"
  | .method => "method"
  | .field => "field"
  | .function => "function"

end DeclKind

/-- A pattern with one capture, the declared name. -/
structure DeclRule where
  pattern : Pattern
  kind : DeclKind

namespace DeclRule

def nameIn? (rule : DeclRule) (line : Text) : Option Text :=
  (rule.pattern.search? line).map (·.capture 0)

end DeclRule

inductive Language where
  | java
  | typescript
  | javascript
  | python
  | go
  deriving Repr, DecidableEq

namespace Language

open Pattern

def all : List Language := [java, typescript, javascript, python, go]

def toText : Language → Text
  | .java => "java"
  | .typescript => "typescript"
  | .javascript => "javascript"
  | .python => "python"
  | .go => "go"

def ofText? (t : Text) : Option Language := all.find? fun language => language.toText == t

/-- The language of a lowercase file suffix, the dot included. -/
def ofSuffix? (suffix : Text) : Option Language :=
  if suffix == ".java" then some .java
  else if suffix == ".ts" || suffix == ".tsx" then some .typescript
  else if suffix == ".js" || suffix == ".jsx" then some .javascript
  else if suffix == ".py" then some .python
  else if suffix == ".go" then some .go
  else none

/-- Whether signatures take the annotations above them. -/
def hasAnnotations (language : Language) : Bool := language == .java

def parameterList : Pattern := char '(' ++ many (· != ')') ++ char ')'

def isTypeChar (c : Char) : Bool := isWordChar c || c == '<' || c == '>' || c == '[' || c == ']'

def classModifier : Pattern :=
  anyOf ["public", "private", "protected", "static", "final"] <|> one isBlank

def methodModifier : Pattern :=
  anyOf ["public", "private", "protected", "static", "final", "synchronized", "async"] <|>
    one isBlank

def javaRules : List DeclRule :=
  [⟨repeated classModifier ++ word "class" ++ blanks1 ++ name, .classType⟩,
   ⟨repeated classModifier ++ word "interface" ++ blanks1 ++ name, .interfaceType⟩,
   ⟨methodModifier ++ repeated methodModifier ++ many1 isTypeChar ++ blanks1 ++ name ++ blanks ++
      parameterList, .method⟩,
   ⟨atStart ++ blanks ++
      repeated (anyOf ["private", "public", "protected", "static", "final"]) ++ blanks1 ++
      many1 isTypeChar ++ blanks1 ++ name ++ blanks ++
      optional (char '=' ++ blanks ++ many1 (· != ';')) ++ blanks ++ char ';', .field⟩]

def scriptRules : List DeclRule :=
  [⟨word "class" ++ blanks1 ++ name, .classType⟩,
   ⟨word "interface" ++ blanks1 ++ name, .interfaceType⟩,
   ⟨optional (word "async" ++ blanks1) ++ word "function" ++ blanks1 ++ name, .function⟩,
   ⟨name ++ blanks ++ optional (char ':' ++ blanks ++ many1 (· != '=')) ++ blanks ++ char '=' ++
      blanks ++ optional (word "async" ++ blanks) ++ parameterList ++ blanks ++ word "=>",
    .function⟩,
   ⟨atStart ++ blanks ++
      repeated (anyOf ["public", "private", "protected", "static", "async"]) ++ blanks ++ name ++
      blanks ++ parameterList ++ blanks ++ (char ':' <|> char '{'), .method⟩]

def pythonRules : List DeclRule :=
  [⟨atStart ++ word "class" ++ blanks1 ++ name, .classType⟩,
   ⟨atStart ++ blanks ++ word "def" ++ blanks1 ++ name, .function⟩]

def goRules : List DeclRule :=
  [⟨atStart ++ word "type" ++ blanks1 ++ name ++ blanks1 ++ word "struct", .classType⟩,
   ⟨atStart ++ word "type" ++ blanks1 ++ name ++ blanks1 ++ word "interface", .interfaceType⟩,
   ⟨atStart ++ word "func" ++ blanks1 ++ name ++ blanks ++ char '(', .function⟩,
   ⟨atStart ++ word "func" ++ blanks1 ++ char '(' ++ many1 (· != ')') ++ char ')' ++ blanks1 ++
      name ++ blanks ++ char '(', .method⟩]

def rules : Language → List DeclRule
  | .java => javaRules
  | .typescript => scriptRules
  | .javascript => scriptRules
  | .python => pythonRules
  | .go => goRules

end Language

structure Declaration where
  ruleIndex : Nat
  kind : DeclKind
  name : Text
  deriving Repr, DecidableEq

/-- Tries rules in order; `index` is the position of the first of them. -/
def classifyFrom (line : Text) : Nat → List DeclRule → Option Declaration
  | _, [] => none
  | index, rule :: rules =>
    match rule.nameIn? line with
    | some name => some ⟨index, rule.kind, name⟩
    | none => classifyFrom line (index + 1) rules

def Language.classify? (language : Language) (line : Text) : Option Declaration :=
  classifyFrom line 0 language.rules

def Path.extension (p : Path) : Text := p.suffix.toLower.dropWhile (· == '.')

def Language.ofPath? (p : Path) : Option Language := ofSuffix? p.suffix.toLower

end SourceScout
