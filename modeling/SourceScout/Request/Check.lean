import SourceScout.Json.Reader
import SourceScout.Text.Blank
import SourceScout.Text.Utf8

/-!
# Checks of requests

How the fields of a request are checked. All problems of a request are found, field by field; the
first three are reported.
-/

namespace SourceScout

inductive Payload where
  | value (v : Value)
  | text (t : Text)
  | bytes (b : List UInt8)

structure Problem where
  location : List Text
  message : Text
  deriving Repr, DecidableEq

namespace Problem

/-- The place of a problem; one with the whole request has a name of its own. -/
def place (p : Problem) : Text :=
  if p.location.isEmpty then ("request" : Text) else Text.join "." p.location

def toText (p : Problem) : Text := p.place ++ ": " ++ p.message

def maxReported : Nat := 3

def report (problems : List Problem) : Text :=
  "Invalid request: " ++ Text.join "; " ((problems.take maxReported).map toText)

end Problem

namespace Request

/-- Whether a request came as a value or as a text; the words for some problems differ. -/
inductive Form where
  | value
  | text
  deriving Repr, DecidableEq

abbrev Checked (α : Type) := Except (List Problem) α

def problem {α : Type} (location : List Text) (message : Text) : Checked α :=
  .error [⟨location, message⟩]

/-- Two checks; the problems of both are kept. -/
def both {α β : Type} : Checked α → Checked β → Checked (α × β)
  | .ok a, .ok b => .ok (a, b)
  | .ok _, .error problems => .error problems
  | .error problems, .ok _ => .error problems
  | .error first, .error second => .error (first ++ second)

def each {α β : Type} (check : α → Checked β) : List α → Checked (List β)
  | [] => .ok []
  | x :: xs =>
    match both (check x) (each check xs) with
    | .ok (b, bs) => .ok (b :: bs)
    | .error problems => .error problems

def table (form : Form) (className : Text) (location : List Text) :
    Value → Checked (List (Text × Value))
  | .table fields => .ok fields
  | _ =>
    match form with
    | .value =>
      problem location ("Input should be a valid dictionary or instance of " ++ className)
    | .text => problem location "Input should be an object"

def list {α : Type} (form : Form) (item : List Text → Value → Checked α) (location : List Text) :
    Value → Checked (List α)
  | .list items =>
    if items.isEmpty then
      problem location "List should have at least 1 item after validation, not 0"
    else
      each (fun (v, index) => item (location ++ [Text.ofNat index]) v) items.zipIdx
  | _ =>
    match form with
    | .value => problem location "Input should be a valid list"
    | .text => problem location "Input should be a valid array"

def text (location : List Text) : Value → Checked Text
  | .text t => .ok t
  | _ => problem location "Input should be a valid string"

def someText (location : List Text) (v : Value) : Checked Text := do
  let t ← text location v
  if t.isEmpty then problem location "String should have at least 1 character" else return t

/-- A whole number without zeros in front. Zeros and underscores are dropped up to the first other
digit or to the point. -/
def dropZeros? : Text → Option Text
  | '0' :: rest =>
    match rest.dropWhile fun c => c == '0' || c == '_' with
    | [] => some (('0' :: rest).getLast?.toList)
    | c :: digits =>
      if c == '.' then some ((('0' :: rest).dropWhile (· != '.')).cons '0')
      else if c.isDigit then some (c :: digits)
      else none
  | c :: rest => if c.isDigit || c == '-' then some (c :: rest) else none
  | [] => none

def dropFraction (t : Text) : Text :=
  match Text.cutFirst? ['.'] t with
  | some (whole, fraction) => if fraction.all (· == '0') then whole else t
  | none => t

def digits? (t : Text) : Option Nat :=
  let groups := Text.splitOn '_' t
  if groups.all fun group => !group.isEmpty && group.all Char.isDigit then
    some (Decimal.digitsValue groups.flatten)
  else none

def numeral? (t : Text) : Option Int := do
  let trimmed := Text.dropEndWhile isNumeralMargin (t.dropWhile isNumeralMargin)
  let unsigned ← match trimmed with
    | '+' :: '-' :: _ => none
    | '+' :: rest => some rest
    | rest => some rest
  match dropFraction (← dropZeros? unsigned) with
  | '-' :: rest => (digits? rest).map fun n => -(n : Int)
  | rest => (digits? rest).map fun n => (n : Int)

/-- The bound below which a number with a fraction is taken as a whole one. -/
def wholeBound : Float := 9223372036854775808.0

def tooLong : Text := "Unable to parse input string as an integer, exceeded maximum size"

def integer (location : List Text) : Value → Checked Int
  | .int n => .ok n
  | .bool b => .ok (if b then 1 else 0)
  | .real x =>
    if x.isNaN || x.isInf then problem location "Input should be a finite number"
    else if x.floor != x then
      problem location "Input should be a valid integer, got a number with a fractional part"
    else if x < -wholeBound || wholeBound ≤ x then problem location tooLong
    else .ok (if x < 0.0 then -((-x).toUInt64.toNat : Int) else x.toUInt64.toNat)
  | .text t =>
    if Json.maxDigits < t.length then problem location tooLong
    else match numeral? t with
      | some n => .ok n
      | none =>
        problem location "Input should be a valid integer, unable to parse string as an integer"
  | _ => problem location "Input should be a valid integer"

def line (location : List Text) (v : Value) : Checked Int := do
  let n ← integer location v
  if n < 1 then problem location "Input should be greater than or equal to 1" else return n

/-- The key and the value of a field that has two names; the first name wins. -/
def given? (name other : Text) (fields : List (Text × Value)) : Option (Text × Value) :=
  ((Value.get? name fields).map fun v => (name, v)) <|>
    (Value.get? other fields).map fun v => (other, v)

def required {α : Type} (check : List Text → Value → Checked α) (location : List Text)
    (name other : Text) (fields : List (Text × Value)) : Checked α :=
  match given? name other fields with
  | some (key, v) => check (location ++ [key]) v
  | none => problem (location ++ [name]) "Field required"

def optional {α : Type} (check : List Text → Value → Checked α) (default : α)
    (location : List Text) (name other : Text) (fields : List (Text × Value)) : Checked α :=
  match given? name other fields with
  | some (key, v) => check (location ++ [key]) v
  | none => .ok default

def nullable {α : Type} (check : List Text → Value → Checked α) (location : List Text) :
    Value → Checked (Option α)
  | .null => .ok none
  | v => (check location v).map some

def readText (t : Text) : Checked Value :=
  match Json.read .arguments t with
  | .ok v => .ok v
  | .error fault => problem [] ("Invalid JSON: " ++ fault.reportArguments t)

def readBytes (b : List UInt8) : Checked Value :=
  match Utf8.decodeStrict b with
  | .ok t => readText t
  | .error m =>
    let before := Json.lastLine (Utf8.decode (b.take (m.offset + 1)))
    problem [] ("Invalid JSON: invalid unicode code point at line " ++ Text.ofNat before.1 ++
      " column " ++ Text.ofNat (Text.utf8Length before.2.dropLast + 2))

def read : Payload → Checked (Form × Value)
  | .value v => .ok (.value, v)
  | .text t => (readText t).map fun v => (.text, v)
  | .bytes b => (readBytes b).map fun v => (.text, v)

end Request

end SourceScout
