import SourceScout.Text.Basic

/-!
# Faults of JSON texts

JSON is read in two places: the envelope of a request and the arguments of a tool. Both accept the
same values, but they report faults in different words and at different positions. The envelope
counts characters and points at the start of what it could not read; the arguments count bytes and
point at the first byte that does not fit.
-/

namespace SourceScout.Json

inductive Dialect where
  | envelope
  | arguments
  deriving Repr, DecidableEq

inductive Cause where
  | byteOrderMark
  | noValue
  | endBeforeValue
  | badWord
  | endInWord
  | badNumber
  | endInNumber
  | longNumber
  | endOfNewList
  | endOfList
  | noListComma
  | listCommaLast
  | endOfNewObject
  | endBeforeKey
  | endAfterKey
  | endOfObject
  | noKey
  | noColon
  | noObjectComma
  | objectCommaLast
  | endInString
  | controlCharacter
  | badEscape
  | badCode
  | endInCode
  | extraText
  deriving Repr, DecidableEq

namespace Cause

def inEnvelope : Cause → Text
  | .byteOrderMark => "Unexpected UTF-8 BOM (decode using utf-8-sig)"
  | .endOfNewObject | .endBeforeKey | .noKey | .objectCommaLast =>
    "Expecting property name enclosed in double quotes"
  | .endAfterKey | .noColon => "Expecting ':' delimiter"
  | .endOfList | .noListComma | .endOfObject | .noObjectComma => "Expecting ',' delimiter"
  | .endInString => "Unterminated string starting at"
  | .controlCharacter => "Invalid control character at"
  | .badEscape => "Invalid \\escape"
  | .badCode | .endInCode => "Invalid \\uXXXX escape"
  | .extraText => "Extra data"
  | _ => "Expecting value"

def inArguments : Cause → Text
  | .byteOrderMark | .noValue => "expected value"
  | .endBeforeValue | .endInWord | .endInNumber | .endBeforeKey => "EOF while parsing a value"
  | .badWord => "expected ident"
  | .badNumber => "invalid number"
  | .longNumber => "number out of range"
  | .endOfNewList | .endOfList => "EOF while parsing a list"
  | .noListComma => "expected `,` or `]`"
  | .listCommaLast | .objectCommaLast => "trailing comma"
  | .endOfNewObject | .endAfterKey | .endOfObject => "EOF while parsing an object"
  | .noKey => "key must be a string"
  | .noColon => "expected `:`"
  | .noObjectComma => "expected `,` or `\x7d`"
  | .endInString | .endInCode => "EOF while parsing a string"
  | .controlCharacter => "control character (\\u0000-\\u001F) found while parsing a string"
  | .badEscape | .badCode => "invalid escape"
  | .extraText => "trailing characters"

end Cause

/-- A fault, with the text from the start of what could not be read and the text from the first
character that does not fit. -/
structure Fault where
  cause : Cause
  token : Text
  here : Text
  deriving Repr, DecidableEq

def lastLine (t : Text) : Nat × Text := (t.count '\n' + 1, Text.afterLast '\n' t)

namespace Fault

def reportEnvelope (whole : Text) (fault : Fault) : Text :=
  let offset := whole.length - fault.token.length
  let (line, before) := lastLine (whole.take offset)
  fault.cause.inEnvelope ++ ": line " ++ Text.ofNat line ++ " column " ++
    Text.ofNat (before.length + 1) ++ " (char " ++ Text.ofNat offset ++ ")"

/-- The report on the arguments `whole`. The column is that of the character that does not fit; at
the end of the text it is that of the last one. -/
def reportArguments (whole : Text) (fault : Fault) : Text :=
  let offset := whole.length - fault.here.length
  let column :=
    match fault.here with
    | [] => (lastLine whole).2.utf8Length
    | '\n' :: _ => 0
    | _ => (lastLine (whole.take offset)).2.utf8Length + 1
  let line := (lastLine (whole.take (offset + 1))).1
  fault.cause.inArguments ++ " at line " ++ Text.ofNat line ++ " column " ++ Text.ofNat column

end Fault

end SourceScout.Json
