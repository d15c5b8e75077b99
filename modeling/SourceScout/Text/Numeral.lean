import SourceScout.Failure
import SourceScout.Text.Blank
import SourceScout.Text.Digit

/-!
# Numerals

Whole numbers as people write them: blanks around, a sign, decimal digits of any script, and single
underscores between digits.
-/

namespace SourceScout.Numeral

/-- A scan of digits: the value and the count of the digits read, and whether an underscore is the
last thing read. -/
structure DigitScan where
  value : Nat
  count : Nat
  afterUnderscore : Bool
  deriving Repr, DecidableEq

/-- Reads digits with single underscores between them. The rest starts at the first character that
does not fit. -/
def readDigits : DigitScan → Text → DigitScan × Text
  | scan, [] => (scan, [])
  | scan, c :: cs =>
    if c = '_' then
      if scan.afterUnderscore || scan.count = 0 then (scan, c :: cs)
      else readDigits { scan with afterUnderscore := true } cs
    else match digitValue? c with
      | some digit => readDigits ⟨scan.value * 10 + digit, scan.count + 1, false⟩ cs
      | none => (scan, c :: cs)

def readSign : Text → Bool × Text
  | '-' :: rest => (true, rest)
  | '+' :: rest => (false, rest)
  | rest => (false, rest)

/-- Reads a numeral. Its length is checked as soon as its digits are read, before what follows
them. -/
def toInt (raw : Text) : Except Failure Int :=
  let (negative, rest) := readSign (raw.dropWhile isNumeralMargin)
  let (scan, rest) := readDigits ⟨0, 0, false⟩ rest
  if scan.afterUnderscore || scan.count = 0 then .error (.notInteger raw)
  else if Failure.maxDigits < scan.count then .error (.tooManyDigits scan.count)
  else if rest.all isNumeralMargin then .ok (if negative then -scan.value else scan.value)
  else .error (.notInteger raw)

def digitIn? (base : Nat) (c : Char) : Option Nat :=
  let digit :=
    if c.isDigit then c.toNat - '0'.toNat
    else if 'a' ≤ c.toLower ∧ c.toLower ≤ 'f' then c.toLower.toNat - 'a'.toNat + 10
    else base
  if digit < base then some digit else none

def ofDigits? (base : Nat) (digits : Text) : Option Nat := do
  let values ← digits.mapM (digitIn? base)
  if values.isEmpty then none else return values.foldl (fun n digit => n * base + digit) 0

/-- A number whose base is marked in front: `0x`, `0o`, `0b`, or ten without a mark. In base ten
only zero starts with a zero, and the length is limited. -/
def unsignedOfMarked? : Text → Option Nat
  | '0' :: mark :: digits =>
    match mark.toLower with
    | 'x' => ofDigits? 16 digits
    | 'o' => ofDigits? 8 digits
    | 'b' => ofDigits? 2 digits
    | _ =>
      if (mark :: digits).all (· == '0') && digits.length + 2 ≤ Failure.maxDigits then some 0
      else none
  | digits => if digits.length ≤ Failure.maxDigits then ofDigits? 10 digits else none

def ofMarked? (raw : Text) : Option Int :=
  let trimmed := Text.dropEndWhile isNumeralMargin (raw.dropWhile isNumeralMargin)
  let (negative, rest) := readSign trimmed
  (unsignedOfMarked? (rest.map Text.plainDigit)).map fun n => if negative then -(n : Int) else n

end SourceScout.Numeral
