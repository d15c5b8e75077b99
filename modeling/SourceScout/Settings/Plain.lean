import SourceScout.Decimal.Reading
import SourceScout.Settings.Document

/-!
# Plain values of a settings document

Texts in quotes with their escapes, truth values, moments and numbers.
-/

namespace SourceScout.Document

/-! ## Texts -/

def escaped? : Char → Option Char
  | '0' => some '\x00'
  | 'b' => some '\x08'
  | 'f' => some '\x0c'
  | 'n' => some '\n'
  | 'r' => some '\r'
  | 't' => some '\t'
  | '"' => some '"'
  | _ => none

/-- Replaces escapes. Those of codes stay. -/
def unescape : Text → Except Fault Text
  | '\\' :: c :: rest => do
    if c == 'u' || c == 'U' then return '\\' :: c :: (← unescape rest)
    else if c == '\\' then return '\\' :: (← unescape rest)
    else match escaped? c with
      | some e => return e :: (← unescape rest)
      | none => .error .malformed
  | c :: rest => do return c :: (← unescape rest)
  | [] => .ok []

/-- Whether nothing follows the closing quotes, given the pieces between quotes. A piece that ends
in an escaping backslash goes on after its quote. Threefold quotes close after two quotes in a
row. -/
def closesOnce (triple : Bool) : (closed : Bool) → (quotes : Nat) → List Text → Bool
  | _, _, [] => true
  | closed, quotes, piece :: pieces =>
    if piece.isEmpty then
      if triple then closesOnce triple closed (quotes + 1) pieces
      else closesOnce triple true quotes pieces
    else if endsEscaping piece then closesOnce triple closed quotes pieces
    else if closed then false
    else if !triple || 1 < quotes then closesOnce triple true quotes pieces
    else closesOnce triple closed 0 pieces

/-- Whether every backslash starts a known escape, given the pieces after backslashes. -/
def escapesKnown : (escaped : Bool) → List Text → Bool
  | _, [] => true
  | escaped, [] :: pieces => escapesKnown (!escaped) pieces
  | escaped, (c :: _) :: pieces =>
    (escaped || (escaped? c).isSome || c == 'u' || c == 'U') && escapesKnown false pieces

def maxCode : Nat := 0x7fffffff

/-- The character of a code in hexadecimal digits. Of codes that start with `d` only the first half
is allowed, since the others stand for no character. -/
def ofCode (digits : Text) : Except Fault Char :=
  match Numeral.ofDigits? 16 digits, digits.map Char.toLower with
  | _, [] => .error (.failure .textTooShort)
  | none, _ => .error .malformed
  | some _, ['d'] => .error (.failure .textTooShort)
  | some code, first :: rest =>
    if first == 'd' && rest.head?.any (fun c => !('0' ≤ c && c ≤ '7')) then .error .malformed
    else if maxCode < code then .error (.failure .codeTooLarge)
    else if 0x10ffff < code then .error .malformed
    else if code.isValidChar then .ok (Char.ofNat code)
    else .ok '\ufffd'

/-- Replaces the codes at the start of pieces that came after a mark. `skip` says that the mark
before the next piece is escaped itself. -/
def expandPieces (mark : Text) (width : Nat) : (skip : Bool) → Text → List Text → Except Fault Text
  | _, done, [] => .ok done
  | true, done, piece :: pieces =>
    expandPieces mark width (endsEscaping piece) (done ++ mark ++ piece) pieces
  | false, done, piece :: pieces => do
    let c ← ofCode (piece.take width)
    expandPieces mark width false (done ++ c :: piece.drop width) pieces

def expandCodes (mark : Text) (width : Nat) (t : Text) : Except Fault Text :=
  match Text.splitAll mark t with
  | [] => .ok t
  | first :: pieces => expandPieces mark width (endsEscaping first) first pieces

def withoutQuotes (mark : Char) (t : Text) : Text :=
  match t with
  | _ :: second :: rest =>
    if second == mark && rest.head?.all (· == mark) then t.interior.interior.interior
    else t.interior
  | _ => t.interior

/-- Reads a text that starts with a quote. Whether it ends with one is not looked at: the last
character is taken off in any case. -/
def readQuoted (mark : Char) (t : Text) : Except Fault Text := do
  let pieces := Text.splitOn mark t.tail
  let closes := match pieces with
    | [] :: [] :: rest => closesOnce true false 0 rest
    | pieces => closesOnce false false 0 pieces
  if !closes then .error .malformed
  else if mark != '"' then return withoutQuotes mark t
  else if !escapesKnown false (Text.splitOn '\\' t).tail then .error .malformed
  else
    let t ← expandCodes "\\u" 4 t
    let t ← expandCodes "\\U" 8 t
    return withoutQuotes mark (← unescape t)

/-! ## Numbers -/

def isTidyNumber (t : Text) : Bool :=
  let t := t.strip
  let digits := match t with
    | '+' :: rest => rest
    | '-' :: rest => rest
    | rest => rest
  !t.isEmpty && t.head? != some '_' && t.getLast? != some '_' &&
    !Text.hasPart "_." t && !Text.hasPart "._" t &&
    (t.length == 1 ||
      !Text.hasPart "__" t &&
      match t, digits with
      | '0' :: c :: _, _ => c == '.' || c == 'o' || c == 'b' || c == 'x'
      | _, '0' :: c :: _ => c == '.'
      | _, _ => true)

def readUnsigned (t : Text) : Except Fault Value :=
  let isReal := t.contains '.' || !t.contains 'x' && (t.contains 'e' || t.contains 'E')
  let word := t.map Char.toLower
  if isReal || word == "inf" || word == "nan" then
    let endsInPoint := match Text.cutFirst? ['.'] t with
      | some (_, fraction) => fraction.isEmpty
      | none => false
    if isReal && (endsInPoint || !t.head?.any Char.isDigit) then .error .malformed
    else match Decimal.ofText? t with
      | some x => .ok (.real x)
      | none => .error .malformed
  else match Numeral.ofMarked? t with
    | some n => .ok (.int n)
    | none => .error .malformed

/-- The value taken from zero, so that there is no negative zero. -/
def negate : Value → Value
  | .int n => .int (0 - n)
  | .real x => .real (0.0 - x)
  | v => v

def readNumber (t : Text) : Except Fault Value :=
  let withoutUnderscores (t : Text) := t.filter (· != '_')
  match t with
  | '-' :: rest => (readUnsigned (withoutUnderscores rest)).map negate
  | '+' :: rest => readUnsigned (withoutUnderscores rest)
  | rest => readUnsigned (withoutUnderscores rest)

/-- Reads a value that is one word. `tidy` says that a number may be taken. -/
def readWord (tidy : Bool) (t : Text) : Except Fault Value :=
  if t = "true" then .ok (.bool true)
  else if t = "false" then .ok (.bool false)
  else match Moment.clockNumbers? t with
    | some (hour, minute, second, microsecond) =>
      match Clock.of? hour minute second microsecond with
      | some clock => .ok (.moment (.clock clock))
      | none => .error .malformed
    | none =>
      match Moment.ofDayText? t with
      | some moment => .ok (.moment moment)
      | none => if tidy then readNumber t else .error .malformed

end SourceScout.Document
