import SourceScout.Pattern.Search
import SourceScout.Source.TypeName

/-!
# Injected fields

Private fields of a source text whose type looks like a collaborator.
-/

namespace SourceScout

structure InjectedField where
  type : Text
  name : Text
  deriving Repr, DecidableEq

namespace InjectedField

open Pattern

def isTypeText (c : Char) : Bool :=
  c.isAlphanum || c == '_' || c == '<' || c == '>' || c == ',' || isBlank c || c == '?'

def declaration : Pattern :=
  word "private" ++ blanks1 ++ optional (word "final" ++ blanks1) ++
    capture (one Char.isUpper ++ many1 isTypeText) ++ blanks1 ++ capture (many1 Char.isAlphanum) ++
    blanks ++ char ';'

def declaredIn (content : Text) : List InjectedField :=
  ((declaration.findAll content).map fun m => ⟨(m.capture 0).strip, m.capture 1⟩).filter
    fun field => TypeName.isLikelyInjected field.type

end InjectedField

end SourceScout
