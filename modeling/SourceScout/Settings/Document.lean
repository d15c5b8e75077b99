import SourceScout.Failure
import SourceScout.Value

/-!
# Settings documents

A settings document is a table. A text may have no reading as a document: most mistakes make it
malformed, and a malformed text counts as an empty document. Some mistakes are failures instead.

A place in a document is reached by names and by going to the last item of a list.
-/

namespace SourceScout

abbrev Document := List (Text × Value)

namespace Document

inductive Fault where
  /-- The text counts as an empty document. -/
  | malformed
  | failure (cause : Failure)
  deriving Repr, DecidableEq

inductive Step where
  /-- To the value of a name. -/
  | name (name : Text)
  /-- To the last item of a list, or the last character of a text. -/
  | last
  deriving Repr, DecidableEq

def isQuote (c : Char) : Bool := c == '"' || c == '\''

def isBareChar (c : Char) : Bool := c.isAlphanum || c == '_' || c == '-'

/-- Whether a text ends in an odd number of backslashes, so that the last one escapes what
follows. -/
def endsEscaping (t : Text) : Bool := (t.reverse.takeWhile (· == '\\')).length % 2 == 1

/-- The fields in which a name can be looked up or set. A text is searched for the name first, so
what is wrong with a text depends on whether the name is a part of it. -/
def fieldsFor (name : Text) : Value → Except Fault Document
  | .table fields => .ok fields
  | .inline fields => .ok fields
  | .list _ => .error (.failure (.sectionNotTable .list))
  | .text t =>
    if Text.hasPart name t then .error (.failure .textByName)
    else .error (.failure (.sectionNotTable (.plain (Value.text t).typeName)))
  | v => .error (.failure (.notSearchable v.typeName))

section

variable {α : Type}

/-- Changes the value below names; tables that are missing are made. -/
def changeBelow (change : Value → Except Fault (Value × α)) :
    List Text → Value → Except Fault (Value × α)
  | [], v => change v
  | name :: names, v => do
    let fields ← fieldsFor name v
    let (sub, result) ← changeBelow change names ((Value.get? name fields).getD (.table []))
    return (v.withFields (Value.set name sub fields), result)

/-- Changes what stands last in a value. A character of a text can be looked at but not changed. -/
def changeLast (change : Value → Except Fault (Value × α)) : Value → Except Fault (Value × α)
  | .list items =>
    match items.getLast? with
    | none => .error (.failure .listTooShort)
    | some item => do
      let (item, result) ← change item
      return (.list (items.dropLast ++ [item]), result)
  | .text t =>
    match t.getLast? with
    | none => .error (.failure .textTooShort)
    | some c => do
      let (_, result) ← change (.text [c])
      return (.text t, result)
  | v => .error (.failure (.notIndexed v.typeName))

def changeAt (change : Value → Except Fault (Value × α)) :
    List Step → Value → Except Fault (Value × α)
  | [], v => change v
  | .name name :: steps, v => changeBelow (changeAt change steps) [name] v
  | .last :: steps, v => changeLast (changeAt change steps) v

end

/-- Sets a name that is not set yet; only a table can take it. -/
def assign (name : Text) (value : Value) (v : Value) : Except Fault Value :=
  match v.fields? with
  | none => .error .malformed
  | some fields =>
    if (Value.get? name fields).isSome then .error .malformed
    else .ok (v.withFields (Value.set name value fields))

end Document

end SourceScout
