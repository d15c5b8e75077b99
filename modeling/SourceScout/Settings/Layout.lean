import SourceScout.Settings.Document
import SourceScout.Text.Blank
import SourceScout.Text.Word

/-!
# The lines of a settings document

Before a document is read line by line, its text is laid out character by character: comments become
blanks, line ends inside brackets become blanks, and a line end right after the opening quotes of a
text over several lines goes away. On the way the keys in front of values are checked, and all
quotes have to be closed.

The text is seen as a circle: its last characters stand before its first one.
-/

namespace SourceScout.Document

inductive Header where
  /-- `[`: a table. -/
  | table
  /-- `[[`: one more table of a list. -/
  | item
  deriving Repr, DecidableEq

inductive KeyPhase where
  /-- No key is being read. -/
  | absent
  | inPart
  /-- After a part, where a point or the value may follow. -/
  | afterPart
  deriving Repr, DecidableEq

structure Scan where
  /-- What lies behind, the nearest character first. -/
  behind : Text
  quote : Option Char
  /-- Whether threefold quotes are open. -/
  multiline : Bool
  inComment : Bool
  /-- Brackets of lists that are open. -/
  brackets : Int
  header : Option Header
  atLineStart : Bool
  key : KeyPhase
  dotted : Bool
  deriving Repr, DecidableEq

namespace Scan

def start (t : Text) : Scan :=
  { behind := t.reverse
    quote := none
    multiline := false
    inComment := false
    brackets := 0
    header := none
    atLineStart := true
    key := .absent
    dotted := false }

def push (scan : Scan) (c : Char) : Scan := { scan with behind := c :: scan.behind }

/-- After a point or a blank of a key with points, a part follows if the next character can be in
one. -/
def beforePart (scan : Scan) : Text → Except Fault Scan
  | [] => .error (.failure .listTooShort)
  | next :: _ =>
    .ok (if isBlank next || next == '.' then scan else { scan with key := .inPart })

def endKey (scan : Scan) (c : Char) : Except Fault Scan :=
  if c == '=' then .ok { scan with key := .absent, dotted := false } else .error .malformed

def keyStep (scan : Scan) (c : Char) (rest : Text) : Except Fault Scan :=
  if c == '\n' then .error .malformed
  else match scan.quote, scan.key with
    | some mark, _ =>
      if c == mark && (scan.behind.takeWhile (· == '\\')).length % 2 == 0 then
        .ok { scan with quote := none, key := .afterPart }
      else .ok scan
    | none, .inPart =>
      if isBlank c then .ok { scan with key := .afterPart }
      else if c == '.' then .ok { scan with dotted := true }
      else if isWordChar c || c == '-' then .ok scan
      else if scan.dotted && scan.behind.head? == some '.' && isQuote c then
        .ok { scan with quote := some c }
      else scan.endKey c
    | none, _ =>
      if isBlank c then if scan.dotted then scan.beforePart rest else .ok scan
      else if c == '.' then { scan with dotted := true }.beforePart rest
      else scan.endKey c

/-- A quote outside of keys. It opens or closes a text, a third one in a row a text over several
lines. A double quote after an odd number of backslashes does neither. -/
def quoteStep (scan : Scan) (mark : Char) : Scan :=
  let marks := ((scan.behind.take 2).takeWhile (· == mark)).length
  let backslashes := ((scan.behind.drop marks).takeWhile (· == '\\')).length
  if scan.quote.any (· != mark) then scan
  else if mark == '"' && marks != 1 && backslashes % 2 == 1 then scan
  else if marks == 2 then
    { scan with
      multiline := !scan.multiline
      quote := if scan.multiline then none else some mark }
  else { scan with quote := if scan.quote.isSome then none else some mark }

/-- An opening bracket: a header at the start of a line, a list elsewhere. -/
def openBracket (scan : Scan) (rest : Text) : Scan :=
  if scan.quote.isSome || scan.header.isSome then scan
  else if scan.atLineStart then
    { scan with header := if rest.head? == some '[' then some .item else some .table }
  else { scan with brackets := scan.brackets + 1 }

def closeBracket (scan : Scan) : Scan :=
  if scan.quote.isSome then scan
  else match scan.header with
    | some .table => { scan with header := none }
    | some .item => if scan.behind.head? == some ']' then { scan with header := none } else scan
    | none => { scan with brackets := scan.brackets - 1 }

/-- A line end in a text over several lines. Right after two quotes it becomes a third one, and the
quote before those, if there is one, a blank: the text then starts on the next line. -/
def joinQuotes (scan : Scan) : Scan :=
  match scan.behind with
  | a :: b :: c :: rest =>
    if isQuote a && b == a then
      { scan with behind := a :: a :: b :: (if c == a then ' ' else c) :: rest }
    else scan.push '\n'
  | _ => scan.push '\n'

def lineEnd (scan : Scan) : Except Fault Scan :=
  if scan.multiline then .ok scan.joinQuotes
  else if scan.quote.isSome then .error .malformed
  else if scan.brackets != 0 then .ok (scan.push ' ')
  else .ok { scan.push '\n' with atLineStart := true }

/-- The first character of a line that is not a blank starts a key, unless it is in a header. -/
def lineStart (scan : Scan) (c : Char) : Except Fault Scan :=
  if !scan.atLineStart || c == ' ' || c == '\t' then .ok (scan.push c)
  else if scan.header.isSome then .ok { scan.push c with atLineStart := false }
  else if c == '=' then .error .malformed
  else .ok { scan.push c with atLineStart := false, key := .inPart }

def plainStep (scan : Scan) (c : Char) (rest : Text) : Except Fault Scan :=
  if c == '\n' then scan.lineEnd
  else if c == '#' && scan.quote.isNone && scan.header.isNone then
    .ok { scan.push ' ' with inComment := true }
  else if isQuote c then (scan.quoteStep c).lineStart c
  else if c == '[' then (scan.openBracket rest).lineStart c
  else if c == ']' then scan.closeBracket.lineStart c
  else scan.lineStart c

def step (scan : Scan) (c : Char) (rest : Text) : Except Fault Scan :=
  if scan.inComment then
    if c == '\n' then { scan with inComment := false }.lineEnd else .ok (scan.push ' ')
  else if scan.key == .absent then scan.plainStep c rest
  else (scan.keyStep c rest).map (·.push c)

def run (scan : Scan) : Text → Except Fault Scan
  | [] => .ok scan
  | c :: rest => do (← scan.step c rest).run rest

end Scan

def layOut (t : Text) : Except Fault (List Text) := do
  let scan ← (Scan.start t).run t
  if scan.key != .absent || scan.quote.isSome then .error .malformed
  else return Text.lines (scan.behind.take t.length).reverse

end SourceScout.Document
