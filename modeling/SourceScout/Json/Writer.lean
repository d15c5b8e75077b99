import SourceScout.Value

/-!
# Writing JSON

A value on one line, or with each item and field on a line of its own.
-/

namespace SourceScout.Json

/-- How a value is written: the indentation of each level, if items stand on lines of their own, and
whether characters beyond ASCII are escaped. -/
structure Layout where
  indent : Option Nat
  ascii : Bool
  deriving Repr, DecidableEq

def Layout.line : Layout := ⟨none, false⟩

def Layout.page : Layout := ⟨some 2, false⟩

def escapeCode (n : Nat) : Text :=
  if n < 0x10000 then '\\' :: 'u' :: Text.ofHex 4 n
  else
    let n := n - 0x10000
    '\\' :: 'u' :: Text.ofHex 4 (0xd800 + n / 0x400) ++
      '\\' :: 'u' :: Text.ofHex 4 (0xdc00 + n % 0x400)

def escapeChar (ascii : Bool) : Char → Text
  | '"' => "\\\""
  | '\\' => "\\\\"
  | '\n' => "\\n"
  | '\r' => "\\r"
  | '\t' => "\\t"
  | '\x0c' => "\\f"
  | '\x08' => "\\b"
  | c => if c.toNat < 0x20 || ascii && 0x7e < c.toNat then escapeCode c.toNat else [c]

def writeText (ascii : Bool) (t : Text) : Text := '"' :: t.flatMap (escapeChar ascii) ++ ['"']

def writeReal (x : Float) : Text :=
  if x.isNaN then "NaN"
  else if x.isInf then (if x < 0.0 then "-Infinity" else "Infinity")
  else Decimal.ofFloat Decimal.plain x

def Layout.newLine (layout : Layout) (level : Nat) : Text :=
  match layout.indent with
  | none => []
  | some width => '\n' :: List.replicate (width * level) ' '

def Layout.separator (layout : Layout) (level : Nat) : Text :=
  match layout.indent with
  | none => ", "
  | some _ => ',' :: layout.newLine level

/-- Written items between brackets; the brackets of nothing stay on one line. -/
def Layout.enclose (layout : Layout) (level : Nat) (opening closing : Char) (items : List Text) :
    Text :=
  if items.isEmpty then [opening, closing]
  else
    opening :: layout.newLine (level + 1) ++ Text.join (layout.separator (level + 1)) items ++
      layout.newLine level ++ [closing]

mutual
def writeAt (layout : Layout) (level : Nat) : Value → Text
  | .null => "null"
  | .bool b => if b then "true" else "false"
  | .int n => Text.ofInt n
  | .real x => writeReal x
  | .text t => writeText layout.ascii t
  | .list items => layout.enclose level '[' ']' (writeItems layout (level + 1) items)
  | .table fields => layout.enclose level '{' '}' (writeFields layout (level + 1) fields)
  | .inline fields => layout.enclose level '{' '}' (writeFields layout (level + 1) fields)
  | .moment m => writeText layout.ascii (m.toText ' ')

def writeItems (layout : Layout) (level : Nat) : List Value → List Text
  | [] => []
  | item :: rest => writeAt layout level item :: writeItems layout level rest

def writeFields (layout : Layout) (level : Nat) : List (Text × Value) → List Text
  | [] => []
  | (key, value) :: rest =>
    (writeText layout.ascii key ++ ": " ++ writeAt layout level value) ::
      writeFields layout level rest
end

def write (layout : Layout) (v : Value) : Text := writeAt layout 0 v

end SourceScout.Json
