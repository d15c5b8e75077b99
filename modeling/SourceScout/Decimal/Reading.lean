import SourceScout.Text.Blank
import SourceScout.Text.Digit

/-!
# Reading decimals

A decimal fraction as the nearest binary floating-point number, from its digits or from a text.
-/

namespace SourceScout.Decimal

def digitsValue (digits : Text) : Nat :=
  digits.foldl (fun n c => n * 10 + (c.toNat - '0'.toNat)) 0

/-- Powers of ten beyond which every number is zero or infinite. -/
def maxPower : Int := 400

def ofDigits (negative : Bool) (digits : Text) (power : Int) : Float :=
  let digits := digits.dropWhile (· == '0')
  let top := digits.length + power
  let size : Float :=
    if digits.isEmpty || top < -maxPower then 0.0
    else if maxPower < top then 1.0 / 0.0
    else Float.ofScientific (digitsValue digits) (power < 0) power.natAbs
  if negative then -size else size

/-- Drops underscores; each must stand between two digits. -/
def dropUnderscores? : (afterDigit : Bool) → Text → Option Text
  | _, [] => some []
  | afterDigit, '_' :: c :: rest =>
    if afterDigit && c.isDigit then (dropUnderscores? true rest).map (c :: ·) else none
  | _, c :: rest => if c == '_' then none else (dropUnderscores? c.isDigit rest).map (c :: ·)

def takeSign : Text → Bool × Text
  | '-' :: rest => (true, rest)
  | '+' :: rest => (false, rest)
  | rest => (false, rest)

def exponent? : Text → Option Int
  | [] => some 0
  | mark :: rest =>
    let (negative, digits) := takeSign rest
    if (mark == 'e' || mark == 'E') && !digits.isEmpty && digits.all Char.isDigit then
      some (if negative then -(digitsValue digits : Int) else digitsValue digits)
    else none

def unsigned? (negative : Bool) (t : Text) : Option Float := do
  let (whole, rest) := t.span Char.isDigit
  let (fraction, rest) := match rest with
    | '.' :: rest => rest.span Char.isDigit
    | rest => ([], rest)
  let power ← exponent? rest
  if whole.isEmpty && fraction.isEmpty then none
  else return ofDigits negative (whole ++ fraction) (power - fraction.length)

/-- Reads a decimal: margins, a sign, digits of any script with a point, an exponent, and single
underscores between digits; or a word for a number that has no digits. -/
def ofText? (t : Text) : Option Float := do
  let trimmed := Text.dropEndWhile isNumeralMargin (t.dropWhile isNumeralMargin)
  let plain ← dropUnderscores? false (trimmed.map Text.plainDigit)
  let (negative, rest) := takeSign plain
  let word := rest.map Char.toLower
  if word = "inf".toList ∨ word = "infinity".toList then
    return if negative then -(1.0 / 0.0) else 1.0 / 0.0
  else if word = "nan".toList then return 0.0 / 0.0
  else unsigned? negative rest

end SourceScout.Decimal
