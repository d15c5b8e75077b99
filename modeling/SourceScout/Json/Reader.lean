import SourceScout.Decimal.Reading
import SourceScout.Json.Fault
import SourceScout.Value

/-!
# Reading JSON

A reader takes the text from its value on and gives back what follows the value. A table keeps the
last value of a repeated key.
-/

namespace SourceScout.Json

def isSpace (c : Char) : Bool := c == ' ' || c == '\t' || c == '\n' || c == '\r'

def skipSpace (t : Text) : Text := t.dropWhile isSpace

def hexValue? (c : Char) : Option Nat :=
  if c.isDigit then some (c.toNat - '0'.toNat)
  else if 'a' ≤ c ∧ c ≤ 'f' then some (c.toNat - 'a'.toNat + 10)
  else if 'A' ≤ c ∧ c ≤ 'F' then some (c.toNat - 'A'.toNat + 10)
  else none

def escaped? : Char → Option Char
  | '"' => some '"'
  | '\\' => some '\\'
  | '/' => some '/'
  | 'b' => some '\x08'
  | 'f' => some '\x0c'
  | 'n' => some '\n'
  | 'r' => some '\r'
  | 't' => some '\t'
  | _ => none

/-- The four hexadecimal digits of a code unit; `token` is the text from its `u` on. -/
def readCode (token : Text) : (left value : Nat) → Text → Except Fault (Nat × Text)
  | 0, value, rest => .ok (value, rest)
  | _ + 1, _, [] => .error ⟨.endInCode, token, []⟩
  | left + 1, value, c :: rest =>
    match hexValue? c with
    | some digit => readCode token left (value * 16 + digit) rest
    | none => .error ⟨.badCode, token, c :: rest⟩

/-- The code units of a string up to its closing quote, collected in reverse; `opening` is the text
from its opening quote on. -/
def readUnits (opening : Text) : (fuel : Nat) → List Nat → Text → Except Fault (List Nat × Text)
  | 0, _, rest => .error ⟨.endInString, opening, rest⟩
  | _ + 1, _, [] => .error ⟨.endInString, opening, []⟩
  | _ + 1, units, '"' :: rest => .ok (units.reverse, rest)
  | _ + 1, _, ['\\'] => .error ⟨.endInString, opening, []⟩
  | fuel + 1, units, '\\' :: 'u' :: rest => do
    match ← readCode ('u' :: rest) 4 0 rest with
    | (_, []) => .error ⟨.endInCode, 'u' :: rest, []⟩
    | (unit, rest) => readUnits opening fuel (unit :: units) rest
  | fuel + 1, units, '\\' :: c :: rest =>
    match escaped? c with
    | some e => readUnits opening fuel (e.toNat :: units) rest
    | none => .error ⟨.badEscape, '\\' :: c :: rest, c :: rest⟩
  | fuel + 1, units, c :: rest =>
    if c.toNat < 0x20 then .error ⟨.controlCharacter, c :: rest, c :: rest⟩
    else readUnits opening fuel (c.toNat :: units) rest

/-- The characters of code units: two surrogates in a row are one character, a lone one has none of
its own. -/
def ofUnits : List Nat → Text
  | [] => []
  | [unit] => [if 0xd800 ≤ unit ∧ unit < 0xe000 then '\ufffd' else Char.ofNat unit]
  | high :: low :: rest =>
    if 0xd800 ≤ high ∧ high < 0xdc00 ∧ 0xdc00 ≤ low ∧ low < 0xe000 then
      Char.ofNat (0x10000 + (high - 0xd800) * 0x400 + (low - 0xdc00)) :: ofUnits rest
    else if 0xd800 ≤ high ∧ high < 0xe000 then '\ufffd' :: ofUnits (low :: rest)
    else Char.ofNat high :: ofUnits (low :: rest)

def readString (opening : Text) : Except Fault (Text × Text) := do
  let (units, rest) ← readUnits opening opening.length [] opening.tail
  return (ofUnits units, rest)

def spanDigits (t : Text) : Text × Text := t.span Char.isDigit

/-- A part of a number that needs digits. Without them the number ends before the part in an
envelope, and is malformed in arguments. -/
def readPart (dialect : Dialect) (token before afterMark : Text) : Except Fault (Text × Text) :=
  let (digits, rest) := spanDigits afterMark
  if !digits.isEmpty then .ok (digits, rest)
  else match dialect with
    | .envelope => .ok ([], before)
    | .arguments =>
      .error ⟨if rest.isEmpty then .endInNumber else .badNumber, token, rest⟩

def readFraction (dialect : Dialect) (token : Text) : Text → Except Fault (Text × Text)
  | '.' :: rest => readPart dialect token ('.' :: rest) rest
  | rest => .ok ([], rest)

def readExponent (dialect : Dialect) (token : Text) : Text → Except Fault (Option Int × Text)
  | [] => .ok (none, [])
  | mark :: rest =>
    if mark != 'e' && mark != 'E' then .ok (none, mark :: rest)
    else do
      let (negative, start) := match rest with
        | '-' :: start => (true, start)
        | '+' :: start => (false, start)
        | start => (false, start)
      let (digits, rest) ← readPart dialect token (mark :: rest) start
      if digits.isEmpty then return (none, rest)
      let size : Int := Decimal.digitsValue digits
      return (some (if negative then -size else size), rest)

def maxDigits : Nat := 4300

def readWhole (dialect : Dialect) (token : Text) : Text → Except Fault (Text × Text)
  | [] => .error ⟨.endInNumber, token, []⟩
  | '0' :: rest =>
    if dialect = .arguments ∧ rest.head?.any Char.isDigit then .error ⟨.badNumber, token, rest⟩
    else .ok (['0'], rest)
  | c :: rest =>
    if c.isDigit then .ok (spanDigits (c :: rest)) else .error ⟨.badNumber, token, c :: rest⟩

def readNumber (dialect : Dialect) (token : Text) : Except Fault (Value × Text) := do
  let (negative, start) := match token with
    | '-' :: start => (true, start)
    | start => (false, start)
  let (whole, rest) ← readWhole dialect token start
  let (fraction, rest) ← readFraction dialect token rest
  let (exponent, rest) ← readExponent dialect token rest
  if fraction.isEmpty && exponent.isNone then
    if maxDigits < whole.length then .error ⟨.longNumber, token, token.drop (maxDigits + 1)⟩
    else
      let size : Int := Decimal.digitsValue whole
      return (.int (if negative then -size else size), rest)
  else
    let power := exponent.getD 0 - fraction.length
    return (.real (Decimal.ofDigits negative (whole ++ fraction) power), rest)

def words : List (Text × Value) :=
  [("null", .null), ("true", .bool true), ("false", .bool false), ("NaN", .real (0.0 / 0.0)),
   ("Infinity", .real (1.0 / 0.0)), ("-Infinity", .real (-1.0 / 0.0))]

/-- What is left of a text after the characters that it shares with a word. -/
def mismatch : Text → Text → Text
  | a :: as, b :: bs => if a = b then mismatch as bs else b :: bs
  | _, rest => rest

def readWord (word : Text) (value : Value) (token : Text) : Except Fault (Value × Text) :=
  if word.isPrefixOf token then .ok (value, token.drop word.length)
  else
    let rest := mismatch word token
    .error ⟨if rest.isEmpty then .endInWord else .badWord, token, rest⟩

def readPlain (dialect : Dialect) : Text → Except Fault (Value × Text)
  | [] => .error ⟨.endBeforeValue, [], []⟩
  | '-' :: 'I' :: rest => readWord "-Infinity" (.real (-1.0 / 0.0)) ('-' :: 'I' :: rest)
  | c :: rest =>
    if c == '-' || c.isDigit then readNumber dialect (c :: rest)
    else match words.find? fun entry => entry.1.head? == some c with
      | some (word, value) => readWord word value (c :: rest)
      | none => .error ⟨.noValue, c :: rest, c :: rest⟩

mutual
def readValue (dialect : Dialect) : (fuel : Nat) → Text → Except Fault (Value × Text)
  | 0, rest => .error ⟨.noValue, rest, rest⟩
  | _ + 1, '"' :: rest => do
    let (t, rest) ← readString ('"' :: rest)
    return (.text t, rest)
  | fuel + 1, '[' :: rest =>
    match skipSpace rest with
    | [] => .error ⟨.endOfNewList, [], []⟩
    | ']' :: rest => .ok (.list [], rest)
    | rest => readItems dialect fuel [] rest
  | fuel + 1, '{' :: rest =>
    match skipSpace rest with
    | [] => .error ⟨.endOfNewObject, [], []⟩
    | '}' :: rest => .ok (.table [], rest)
    | rest => readFields dialect fuel [] rest
  | _ + 1, rest => readPlain dialect rest

/-- The items of a list from one item on, after the items in reverse that came before. -/
def readItems (dialect : Dialect) : (fuel : Nat) → List Value → Text → Except Fault (Value × Text)
  | 0, _, rest => .error ⟨.noValue, rest, rest⟩
  | fuel + 1, items, rest => do
    let (item, rest) ← readValue dialect fuel rest
    match skipSpace rest with
    | [] => .error ⟨.endOfList, [], []⟩
    | ']' :: rest => return (.list (item :: items).reverse, rest)
    | ',' :: rest =>
      match skipSpace rest with
      | ']' :: rest => .error ⟨.listCommaLast, ']' :: rest, ']' :: rest⟩
      | rest => readItems dialect fuel (item :: items) rest
    | rest => .error ⟨.noListComma, rest, rest⟩

def readFields (dialect : Dialect) :
    (fuel : Nat) → List (Text × Value) → Text → Except Fault (Value × Text)
  | 0, _, rest => .error ⟨.noKey, rest, rest⟩
  | fuel + 1, fields, '"' :: rest => do
    let (key, rest) ← readString ('"' :: rest)
    match skipSpace rest with
    | [] => .error ⟨.endAfterKey, [], []⟩
    | ':' :: rest =>
      let (value, rest) ← readValue dialect fuel (skipSpace rest)
      let fields := Value.set key value fields
      match skipSpace rest with
      | [] => .error ⟨.endOfObject, [], []⟩
      | '}' :: rest => return (.table fields, rest)
      | ',' :: rest =>
        match skipSpace rest with
        | [] => .error ⟨.endBeforeKey, [], []⟩
        | '}' :: rest => .error ⟨.objectCommaLast, '}' :: rest, '}' :: rest⟩
        | rest => readFields dialect fuel fields rest
      | rest => .error ⟨.noObjectComma, rest, rest⟩
    | rest => .error ⟨.noColon, rest, rest⟩
  | _ + 1, _, rest => .error ⟨.noKey, rest, rest⟩
end

def read (dialect : Dialect) (t : Text) : Except Fault Value := do
  if dialect = .envelope ∧ t.head? = some '\ufeff' then .error ⟨.byteOrderMark, t, t⟩
  else
    let (value, rest) ← readValue dialect (2 * t.length + 2) (skipSpace t)
    match skipSpace rest with
    | [] => return value
    | rest => .error ⟨.extraText, rest, rest⟩

end SourceScout.Json
