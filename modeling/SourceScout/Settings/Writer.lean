import SourceScout.Settings.Document
import SourceScout.Text.Quoted

/-!
# Writing settings documents

The plain values of a table come first, then its lists of tables, then the tables below it; tables
come level by level. A table has a header if it has lines of its own or nothing at all.

Texts are written in double quotes. A character that is shown by a code of two digits loses the
backslash of its code; at the start of a text such a character cannot be written unless another one
follows.
-/

namespace SourceScout.Document

/-! ## Texts -/

/-- Whether the code after a piece stays two digits wide: unless the piece ends in a backslash of
its own. A piece of nothing but backslashes counts one of them less. -/
def keepsCode (piece : Text) : Bool :=
  let backslashes := (piece.reverse.takeWhile (· == '\\')).length
  backslashes == 0 || min backslashes (piece.length - 1) % 2 == 1

def joinCode (piece next : Text) : Text :=
  let piece := Text.replaceAll "\\\\" "\\" piece
  piece ++ (if keepsCode piece then "x".toList else "u00".toList) ++ next

def joinCodes : Text → List Text → Except Failure Text
  | t, [] => .ok t
  | [], _ :: [] => .error .listTooShort
  | [], piece :: next :: pieces => joinCodes (joinCode piece next) pieces
  | t, piece :: pieces => joinCodes (joinCode t piece) pieces

def doubleQuoted (t : Text) : Text :=
  let body := (Text.quoted t).interior
  if Text.quoteMark t == '\'' then
    Text.replaceAll "\"" "\\\"" (Text.replaceAll "\\'" "'" body)
  else body

def writeText (t : Text) : Except Failure Text := do
  let body ← match Text.splitAll "\\x" (doubleQuoted t) with
    | piece :: pieces => joinCodes piece pieces
    | [] => .ok []
  return '"' :: body ++ ['"']

/-- Whether a key is written without quotes. One line end after it does no harm. -/
def isBareKey (key : Text) : Bool :=
  let name := if key.getLast? == some '\n' then key.dropLast else key
  !name.isEmpty && name.all isBareChar

def writeKey (key : Text) : Except Failure Text :=
  if isBareKey key then .ok key else writeText key

/-! ## Values -/

/-- A number with a fraction; an exponent has no zero in front. -/
def writeReal (x : Float) : Text :=
  Text.replaceAll "e-0" "e-" (Text.replaceAll "e+0" "e+" (Decimal.ofFloat Decimal.plain x))

def enclose (items : List Text) : Text :=
  '[' :: items.flatMap (fun item => ' ' :: item ++ [',']) ++ [']']

mutual
/-- A value of a list or after a key. A table inside a list is written as the list of its keys. -/
def writeValue : Value → Except Failure Text
  | .null => .ok "\"None\""
  | .bool b => .ok (if b then "true" else "false")
  | .int n => .ok (Text.ofInt n)
  | .real x => .ok (writeReal x)
  | .text t => writeText t
  | .list items => (writeItems items).map enclose
  | .table fields => (fields.mapM fun field => writeText field.1).map enclose
  | .inline fields => (fields.mapM fun field => writeText field.1).map enclose
  | .moment m => .ok (Text.replaceAll "+00:00" "Z" (m.toText 'T'))

def writeItems : List Value → Except Failure (List Text)
  | [] => .ok []
  | item :: rest => do return (← writeValue item) :: (← writeItems rest)
end

/-! ## Tables -/

/-- The written form of a table: its plain lines, its lists of tables, and the tables below it by
their written keys. -/
structure Written where
  plain : Text
  lists : Text
  tables : List (Text × Document)

def Written.lines (w : Written) : Text := w.plain ++ w.lists

def under (path key : Text) : Text := if path.isEmpty then key else path ++ '.' :: key

def headerLine (path : Text) : Text := '[' :: path ++ [']', '\n']

def isTable (v : Value) : Bool := v.fields?.isSome

/-- The fields of an item among tables. An empty text or list passes for an empty table. -/
def itemFields : Value → Except Failure Document
  | .table fields => .ok fields
  | .inline fields => .ok fields
  | .text t => if t.isEmpty then .ok [] else .error .textByName
  | .list items => if items.isEmpty then .ok [] else .error (.sectionNotTable .list)
  | v => .error (.notIterable v.typeName)

mutual
def writeTable : (depth : Nat) → (path : Text) → Document → Except Failure Written
  | 0, _, _ => .ok ⟨[], [], []⟩
  | depth + 1, path, fields =>
    fields.foldlM (fun w (key, value) => do
      let key ← writeKey key
      match value.fields? with
      | some sub => return { w with tables := w.tables ++ [(key, sub)] }
      | none =>
        match value with
        | .null => return w
        | .list items =>
          if items.any isTable then
            let texts ← items.mapM (writeListItem depth (under path key))
            return { w with lists := w.lists ++ texts.flatten }
          else
            return { w with plain := w.plain ++ key ++ " = " ++ (← writeValue value) ++ "\n" }
        | value =>
          return { w with plain := w.plain ++ key ++ " = " ++ (← writeValue value) ++ "\n" })
      ⟨[], [], []⟩

def writeListItem : (depth : Nat) → (path : Text) → Value → Except Failure Text
  | 0, _, _ => .ok []
  | depth + 1, path, item => do
    let w ← writeTable depth path (← itemFields item)
    let below ← writeBelow depth path w.tables
    let start := "[[" ++ path ++ "]]\n"
    if w.lines.head? = some '[' then return start ++ '\n' :: w.lines ++ below
    else return start ++ w.lines ++ '\n' :: below

def writeBelow : (depth : Nat) → (path : Text) → List (Text × Document) → Except Failure Text
  | 0, _, _ => .ok []
  | depth + 1, path, level =>
    if level.isEmpty then .ok []
    else do
      let parts ← level.mapM fun (key, fields) => do
        return (key, ← writeTable depth (under path key) fields)
      let texts := parts.map fun (key, w) =>
        if w.lines.isEmpty then [] else headerLine (under path key) ++ w.lines
      let next := parts.flatMap fun (key, w) =>
        w.tables.map fun (name, sub) => (under key name, sub)
      return texts.flatten ++ (← writeBelow depth path next)
end

mutual
def depth : Value → Nat
  | .list items => depthItems items + 1
  | .table fields => depthFields fields + 1
  | .inline fields => depthFields fields + 1
  | _ => 0

def depthItems : List Value → Nat
  | [] => 0
  | item :: rest => max (depth item) (depthItems rest)

def depthFields : List (Text × Value) → Nat
  | [] => 0
  | (_, value) :: rest => max (depth value) (depthFields rest)
end

def writeSection (path : Text) (fields : Document) : Except Failure Written :=
  writeTable (3 * depthFields fields + 3) path fields

def addTable (before : Text) (path : Text) (w : Written) : Text :=
  if w.lines.isEmpty && !w.tables.isEmpty then before
  else
    let gap : Text := if before.isEmpty || Text.endsWith "\n\n" before then [] else "\n"
    before ++ gap ++ headerLine path ++ w.lines

def addLevels : (depth : Nat) → (before : Text) → List (Text × Document) → Except Failure Text
  | 0, before, _ => .ok before
  | depth + 1, before, level =>
    if level.isEmpty then .ok before
    else do
      let parts ← level.mapM fun (path, fields) => do
        return (path, ← writeSection path fields)
      let after := parts.foldl (fun before (path, w) => addTable before path w) before
      let next := parts.flatMap fun (path, w) =>
        w.tables.map fun (name, sub) => (under path name, sub)
      addLevels depth after next

def toText (document : Document) : Except Failure Text := do
  let w ← writeSection [] document
  addLevels (depthFields document + 1) w.lines w.tables

end SourceScout.Document
