import SourceScout.Settings.Layout
import SourceScout.Settings.Plain
import SourceScout.Settings.Quotation

/-!
# Reading settings documents

A settings document has lines `key = value` under headers: `[a.b]` opens a table, `[[a.b]]` starts
one more table of a list. Values are plain, lists, or tables inside a line. The items of a list and
the fields of such a table are found by cutting at commas and putting pieces together again that are
not complete.
-/

namespace SourceScout.Document

/-! ## Lists -/

/-- Whether the items of a list are texts, as far as the first one shows. -/
def isTextList (t : Text) : Bool := t.interior.strip.head?.any isQuote

/-- Whether a text begins and ends with the same quote, and the last one is not escaped. -/
def isBounded (t : Text) : Bool :=
  t.isEmpty || t.head? == t.getLast? && !endsEscaping t.interior

/-- Whether a piece of a list of texts is a complete item. Threefold quotes need more than one quote
at the end. -/
def isWholeItem (t : Text) : Bool :=
  isBounded t && !(match t, t.reverse with
    | a :: b :: c :: _, _ :: y :: z :: _ => a == b && b == c && y != a && z != a
    | _, _ => false)

/-- Puts pieces together to complete items. `joined` says that the item is made of several. -/
def joinItems : (joined : Bool) → Text → List Text → Except Fault (List Text)
  | joined, item, [] =>
    if joined && !isWholeItem item.strip then .error (.failure .listTooShort) else .ok [item]
  | _, item, piece :: pieces =>
    if isWholeItem item.strip then do return item :: (← joinItems false piece pieces)
    else joinItems true (item ++ ',' :: piece) pieces

/-- The tables of a list: `group` is the one being read, in reverse. -/
inductive GroupScan where
  /-- Inside a table, at a depth of braces. -/
  | inside (group : Text) (depth : Nat) (inText : Bool)
  /-- Right after a table; one character is passed over. -/
  | closed
  /-- Before the next table. -/
  | between
  deriving Repr, DecidableEq

def tableTexts : GroupScan → Text → List Text
  | _, [] => []
  | .closed, _ :: rest => tableTexts .between rest
  | .between, c :: rest =>
    if c == '{' then tableTexts (.inside [c] 1 false) rest else tableTexts .between rest
  | .inside group depth inText, c :: rest =>
    let backslashes := (group.takeWhile (· == '\\')).length
    let inText :=
      if isQuote c then !inText || backslashes % 2 == 1 else inText
    let depth := if !inText && c == '{' then depth + 1 else depth
    if inText || c != '}' then tableTexts (.inside (c :: group) depth inText) rest
    else if 1 < depth then tableTexts (.inside (c :: group) (depth - 1) inText) rest
    else (c :: group).reverse :: tableTexts .closed rest

/-- The lists of a list: `item` is the one being read, in reverse, at a depth of brackets. The
character after a list is left out; whatever else stands between two lists goes to the second. -/
def listTexts : (depth : Nat) → (leaveOut : Bool) → (item : Text) → Text →
    Except Fault (List Text)
  | _, _, _, [] => .ok []
  | depth, leaveOut, item, c :: rest =>
    let item := if leaveOut then item else c :: item
    if c == '[' then listTexts (depth + 1) false item rest
    else if c == ']' then
      match depth with
      | 0 => .error .malformed
      | 1 => do return item.reverse :: (← listTexts 0 true [] rest)
      | depth + 2 => listTexts (depth + 1) false item rest
    else listTexts depth false item rest

def itemTexts (t : Text) : Except Fault (List Text) :=
  let body := t.interior
  if body.strip.head? == some '[' then listTexts 0 false [] body
  else if body.strip.head? == some '{' then
    .ok (tableTexts (.inside (body.take 1) (if body.head? == some '{' then 1 else 0) false)
      body.tail)
  else match Text.splitOn ',' body with
    | item :: pieces => if isTextList t then joinItems false item pieces else .ok (item :: pieces)
    | [] => .ok []

def itemKind : Value → Text
  | .moment (.clock _) => "time"
  | .moment _ => "date"
  | v => v.typeName

def addItem (items : List Value) (item : Value) : Except Fault (List Value) :=
  if items.head?.all fun first => itemKind first == itemKind item then .ok (items ++ [item])
  else .error .malformed

/-! ## Tables inside a line -/

def isWholeValue (v : Text) : Except Fault Bool :=
  match v.head?, v.getLast? with
  | some first, some last =>
    .ok (first == last && isQuote first || first == '-' || first.isDigit || v == "true" ||
      v == "false" || first == '[' && last == ']' || first == '{' && last == '}')
  | _, _ => .error (.failure .textTooShort)

def joinFields : Text → List Text → Except Fault (List Text)
  | field, pieces =>
    match Text.cutFirst? ['='] field with
    | none => .error .malformed
    | some (_, value) => do
      let whole ← isWholeValue value.strip
      match pieces with
      | [] => if whole then return [field] else .error .malformed
      | piece :: pieces =>
        if whole then return field :: (← joinFields piece pieces)
        else joinFields (field ++ ',' :: piece) pieces
termination_by _ pieces => pieces.length

def fieldTexts (t : Text) : Except Fault (List Text) :=
  match Text.splitOn ',' t.interior with
  | field :: pieces => if pieces.isEmpty && field.strip.isEmpty then .ok [] else
    joinFields field pieces
  | [] => .ok []

/-! ## Keys and values -/

/-- Whether a text can be taken as the value of a line, as far as its start shows. What is neither a
value nor set off by a blank belongs to the key. -/
def startsValue (v : Text) : Bool :=
  match v with
  | [] => true
  | c :: _ =>
    c == ' ' || c == '\t' || isQuote c || c == '[' || c == '{' || v.strip == "true" ||
      v.strip == "false" || (Decimal.ofText? v).isSome || (Moment.ofDayText? v).isSome ||
      (Moment.clockNumbers? v).isSome

structure Division where
  key : Text
  value : Text
  /-- Whether the value may be a number. -/
  tidy : Bool
  deriving Repr, DecidableEq

/-- What follows an equals sign of a line, or the last one if there are fewer. -/
def valueAfter (number : Nat) (line : Text) : Text :=
  (Text.splitUpTo ['='] number line).getLastD []

def divideFrom (line : Text) : (fuel : Nat) → (number : Nat) → (value : Text) → (tidy : Bool) →
    Except Fault Division
  | 0, _, _, _ => .error .malformed
  | fuel + 1, number, value, tidy =>
    if startsValue value then
      let before := (Text.splitUpTo ['='] number line).dropLast
      .ok ⟨(Text.join ['='] before).strip, value.strip, tidy⟩
    else
      let next := valueAfter (number + 1) line
      if next = value then .error .malformed
      else divideFrom line fuel (number + 1) next (tidy && isTidyNumber next)

def divide (line : Text) : Except Fault Division :=
  let number := dividerNumber ['='] line
  let value := valueAfter number line
  let plain := if value.head?.any Char.isDigit then value.filter (· != '_') else value
  divideFrom line (line.length + 3) number plain (isTidyNumber value)

/-- The parts of a key with points and quotes: quoted pieces are parts, the others are cut at their
points. -/
def quotedParts : (quoted : Bool) → List Text → List Text
  | _, [] => []
  | true, piece :: pieces => piece :: quotedParts false pieces
  | false, piece :: pieces => (Text.splitOn '.' piece).map Text.strip ++ quotedParts true pieces

def readKey (key : Text) : Except Fault (List Text × Text) :=
  if key.contains '.' then
    let parts := if key.any isQuote then quotedParts false (quotePieces key)
      else Text.splitOn '.' key
    match parts.reverse.dropWhile List.isEmpty with
    | [] => .error (.failure .listTooShort)
    | name :: names => .ok ((names.filter fun part => !part.isEmpty).reverse, Text.strip name)
  else match key with
    | [] => .error (.failure .textTooShort)
    | c :: _ =>
      if isQuote c && key.getLast? == some c then (unescape key.interior).map ([], ·)
      else .ok ([], key)

structure Pending where
  key : Text
  text : Text
  /-- Whether the last line ended in a backslash, which joins the next one to it. -/
  joined : Bool
  deriving Repr, DecidableEq

def Pending.after (key text : Text) : Pending :=
  if endsEscaping text then ⟨key, text.dropLast, true⟩ else ⟨key, text ++ ['\n'], false⟩

/-- The last text of a list that is not closed; `before` are the pieces before it, the nearest
first. -/
def lastText : Text → (before : List Text) → Except Fault Text
  | item, [] => .ok item
  | [], _ :: _ => .error (.failure .textTooShort)
  | c :: item, piece :: before =>
    if isQuote c then .ok (c :: item) else lastText (piece ++ ',' :: c :: item) before

def opensThreefold (t : Text) : Except Fault Bool :=
  match t with
  | [] => .error (.failure .textTooShort)
  | a :: rest =>
    if !isQuote a then .ok false
    else match rest with
      | [] => .error (.failure .textTooShort)
      | b :: rest =>
        if b != a then .ok false
        else match rest with
          | [] => .error (.failure .textTooShort)
          | c :: _ => .ok (c == a && !(5 < t.length && Text.endsWith [a, a, a] t))

/-- Whether a value starts a text over several lines: it opens threefold quotes and does not close
them. -/
def opensText (value : Text) : Except Fault Bool :=
  if value.length < 3 then .ok false
  else do
    let t ← if value.head? == some '[' && value.getLast? != some ']' && isTextList value then
        match (Text.splitOn ',' (Text.strip value.tail)).reverse with
        | item :: before => lastText item before
        | [] => .ok []
      else .ok value
    opensThreefold t

def postpone (name text : Text) (v : Value) : Except Fault (Value × Option Pending) := do
  let _ ← assign name .null v
  if name.isEmpty then .error (.failure .valueMissing)
  else return (v, some (Pending.after name text))

mutual
def readValue : (fuel : Nat) → (tidy : Bool) → Text → Except Fault Value
  | 0, _, _ => .error .malformed
  | fuel + 1, tidy, t =>
    match t with
    | [] => .error .malformed
    | c :: _ =>
      if isQuote c then (readQuoted c t).map .text
      else if c == '[' then do
        let items ← (← itemTexts t).foldlM (fun items item =>
          if item.strip.isEmpty then .ok items
          else do addItem items (← readValue fuel true item.strip)) []
        return .list items
      else if c == '{' then readFields fuel t (.inline [])
      else readWord tidy t

def readFields : (fuel : Nat) → Text → Value → Except Fault Value
  | 0, _, _ => .error .malformed
  | fuel + 1, t, v => do readFieldTexts fuel (← fieldTexts t) v

/-- Reads fields up to the first text that has no end. -/
def readFieldTexts : (fuel : Nat) → List Text → Value → Except Fault Value
  | 0, _, _ => .error .malformed
  | _ + 1, [], v => .ok v
  | fuel + 1, field :: fields, v => do
    match ← readEntry fuel field v with
    | (v, none) => readFieldTexts fuel fields v
    | (v, some _) => return v

def readEntry : (fuel : Nat) → Text → Value → Except Fault (Value × Option Pending)
  | 0, _, _ => .error .malformed
  | fuel + 1, line, v => do
    let division ← divide line
    let (names, name) ← readKey division.key
    changeBelow (fun v => do
      if ← opensText division.value then postpone name division.value v
      else
        let value ← readValue fuel division.tidy division.value
        return (← assign name value v, none)) names v
end

/-! ## Headers -/

/-- The names of a header between points. `opened` is a quoted name that is not closed yet. -/
def headerNames : (opened : Option Text) → List Text → Except Fault (List Text)
  | none, [] => .ok []
  | some _, [] => .error .malformed
  | opened, part :: parts =>
    let name := match opened with
      | some start => start ++ '.' :: part
      | none => part.strip
    if name.head?.any isQuote then
      let quoted := name.strip
      if quoted.length != 1 && quoted.head? == quoted.getLast? then do
        return quoted.interior :: (← headerNames none parts)
      else headerNames (some name) parts
    else if !name.isEmpty && name.all isBareChar then do
      return name :: (← headerNames none parts)
    else .error .malformed

def readHeader (closing line : Text) : Except Fault (List Text) :=
  let number := dividerNumber closing line
  let pieces := Text.splitUpTo closing number line
  if pieces.length < number + 1 || !(pieces.getLastD []).strip.isEmpty then .error .malformed
  else headerNames none (Text.splitOn '.' (Text.join closing pieces.dropLast))

/-- Where a header leads: the steps, and the names of tables that so far exist only because a table
below them was opened. -/
abbrev Opened := List Step × List Text

def Opened.after (step : Step) : Value × Opened → Value × Opened
  | (v, steps, implied) => (v, step :: steps, implied)

/-- Goes on from the value of a name. A list of tables is entered at its last table. -/
def enter (header : Header) (descend : Value → Except Fault (Value × Opened)) (v : Value) :
    Except Fault (Value × Opened) :=
  if header == .table || v.fields?.isSome then descend v
  else (changeLast descend v).map (Opened.after .last)

/-- The value that a header finds below its last name, and the names that are still implied. A table
that was only implied can be opened once; a list takes one more table. -/
def reopen (header : Header) (name : Text) (implied : List Text) (v : Value) :
    Except Fault (Value × List Text) :=
  if implied.contains name then
    if header == .item then .error .malformed else .ok (v, implied.erase name)
  else match header, v with
    | .table, _ => .error .malformed
    | .item, .list items => .ok (.list (items ++ [.table []]), implied)
    | .item, _ => .error (.failure .notExtensible)

/-- Goes from a value along the names of a header and makes what is missing. In a list the names are
those of its last table, and a table in it can be opened again. -/
def descend (header : Header) : List Text → List Text → Value → Except Fault (Value × Opened)
  | [], implied, v => .ok (v, [], implied)
  | name :: names, implied, v => do
    let fresh : Value :=
      if names.isEmpty && header == .item then .list [.table []] else .table []
    let below (fields : Document) (implied : List Text) (child : Value) (v : Value) :
        Except Fault (Value × Opened) := do
      let (child, opened) ← enter header (descend header names implied) child
      return Opened.after (.name name) (v.withFields (Value.set name child fields), opened)
    if name.isEmpty then .error .malformed
    else match v.fields? with
      | some fields =>
        match Value.get? name fields with
        | some child =>
          if names.isEmpty then
            let (child, implied) ← reopen header name implied child
            below fields implied child v
          else below fields implied child v
        | none => below fields (if names.isEmpty then implied else implied ++ [name]) fresh v
      | none =>
        let (v, opened) ← changeLast (fun v => do
          let fields ← fieldsFor name v
          below fields implied ((Value.get? name fields).getD fresh) v) v
        return Opened.after .last (v, opened)

/-! ## Documents -/

structure Reading where
  root : Value
  place : List Step
  /-- Names of tables that so far exist only because a table below them was opened. -/
  implied : List Text
  pending : Option Pending

namespace Reading

def start : Reading := ⟨.table [], [], [], none⟩

def openHeader (r : Reading) (header : Header) (names : List Text) : Except Fault Reading := do
  let (root, place, implied) ← descend header names r.implied r.root
  return ⟨root, place, implied, none⟩

def change (r : Reading) (f : Value → Except Fault (Value × Option Pending)) :
    Except Fault Reading := do
  let (root, pending) ← changeAt f r.place r.root
  return { r with root := root, pending := pending }

def plainLine (r : Reading) (line : Text) : Except Fault Reading :=
  match line with
  | [] => .ok r
  | ['['] => .error .malformed
  | '[' :: '[' :: rest => do r.openHeader .item (← readHeader "]]" rest)
  | '[' :: rest => do r.openHeader .table (← readHeader "]" rest)
  | '{' :: _ =>
    if line.getLast? != some '}' then .error .malformed
    else r.change fun v => do return (← readFields (2 * line.length + 2) line v, none)
  | _ => if line.contains '=' then r.change (readEntry (2 * line.length + 2) line) else .ok r

def closes (text line : Text) : Except Fault Bool :=
  match text with
  | '[' :: _ =>
    match line.getLast? with
    | none => .error (.failure .textTooShort)
    | some c => .ok (c == ']')
  | mark :: _ => .ok (Text.endsWith [mark, mark, mark] line)
  | [] => .ok false

def pendingLine (r : Reading) (pending : Pending) (line : Text) : Except Fault Reading := do
  let text := pending.text ++ line
  if ← closes text line then
    let value ← readValue (2 * text.length + 2) true text
    r.change fun v =>
      .ok (v.withFields (Value.set pending.key value (v.fields?.getD [])), none)
  else return { r with pending := some (Pending.after pending.key text) }

/-- The next line. Blanks around it count only inside a text that already has a line end. -/
def addLine (r : Reading) (line : Text) : Except Fault Reading :=
  match r.pending with
  | none => r.plainLine line.strip
  | some pending =>
    let line := if pending.joined || !pending.text.contains '\n' then line.strip else line
    if line.isEmpty && pending.joined then .ok r else r.pendingLine pending line

end Reading

def read (t : Text) : Except Fault Document := do
  let reading ← (← layOut t).foldlM Reading.addLine .start
  return reading.root.fields?.getD []

/-- The document of a text, where a malformed text counts as an empty one. -/
def ofText (t : Text) : Except Failure Document :=
  match read t with
  | .ok document => .ok document
  | .error .malformed => .ok []
  | .error (.failure cause) => .error cause

end SourceScout.Document
