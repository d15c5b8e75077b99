import SourceScout.Text.Basic

/-!
# Shortest decimals

The written form of a binary floating-point number has the fewest digits that are closer to it than
to any other such number, and among those the closest. It is positional while the decimal point
stays near the digits, and has an exponent otherwise.
-/

namespace SourceScout.Decimal

/-- A positive number as `mantissa * 2 ^ exponent`, as it is stored. -/
structure Binary where
  mantissa : Nat
  exponent : Int
  deriving Repr, DecidableEq

def Binary.ofBits (bits : Nat) : Binary :=
  let fraction : Nat := bits % Nat.pow 2 52
  let biased : Nat := bits / Nat.pow 2 52 % Nat.pow 2 11
  if biased = 0 then ⟨fraction, -1074⟩ else ⟨fraction + Nat.pow 2 52, (biased : Int) - 1075⟩

/-- The numbers that are read as a given one, as numerators over a common denominator, with the
number itself between the bounds. -/
structure Interval where
  lower : Nat
  value : Nat
  upper : Nat
  denominator : Nat
  closed : Bool
  deriving Repr, DecidableEq

/-- The numbers that are read as `b`; the bounds belong to them if the mantissa is even. -/
def Binary.interval (b : Binary) : Interval :=
  let below := if b.mantissa = Nat.pow 2 52 ∧ -1074 < b.exponent then 1 else 2
  let shift := b.exponent - 2
  let up := Nat.pow 2 shift.toNat
  { lower := (4 * b.mantissa - below) * up
    value := 4 * b.mantissa * up
    upper := (4 * b.mantissa + 2) * up
    denominator := Nat.pow 2 (-shift).toNat
    closed := b.mantissa % 2 = 0 }

def Interval.scale (i : Interval) (power : Int) : Interval :=
  let up := Nat.pow 10 power.toNat
  { i with
    lower := i.lower * up
    value := i.value * up
    upper := i.upper * up
    denominator := i.denominator * Nat.pow 10 (-power).toNat }

def Interval.contains (i : Interval) (n : Nat) : Bool :=
  let n := n * i.denominator
  if i.closed then i.lower ≤ n && n ≤ i.upper else i.lower < n && n < i.upper

/-- The whole number in the interval that is closest to the value; of two that are, the even
one. -/
def Interval.closest? (i : Interval) : Option Nat :=
  let floor := i.value / i.denominator
  let above := 2 * (i.value - floor * i.denominator)
  match i.contains floor, i.contains (floor + 1) with
  | true, true =>
    if above < i.denominator ∨ above = i.denominator ∧ floor % 2 = 0 then some floor
    else some (floor + 1)
  | true, false => some floor
  | false, true => some (floor + 1)
  | false, false => none

def Interval.leadingPower (i : Interval) : Nat → Nat → Nat
  | 0, power => power
  | fuel + 1, power =>
    if i.denominator ≤ i.value * Nat.pow 10 power then power else leadingPower i fuel (power + 1)

/-- The number of digits before the decimal point; below one, minus the number of zeros after it. -/
def Interval.magnitude (i : Interval) : Int :=
  if i.denominator ≤ i.value then (Nat.toDigits 10 (i.value / i.denominator)).length
  else 1 - (i.leadingPower 400 0 : Int)

/-- Digits and the place of the decimal point: `digits` stand after `0.`, times ten to the
`point`. -/
structure Digits where
  digits : Text
  point : Int
  deriving Repr, DecidableEq

def Interval.shortestFrom (i : Interval) : (fuel count : Nat) → Digits
  | 0, _ => ⟨['0'], 1⟩
  | fuel + 1, count =>
    match (i.scale (count - i.magnitude)).closest? with
    | some n =>
      let digits := Nat.toDigits 10 n
      ⟨Text.dropEndWhile (· == '0') digits, (digits.length : Int) - count + i.magnitude⟩
    | none => shortestFrom i fuel (count + 1)

def Binary.shortest (b : Binary) : Digits := b.interval.shortestFrom 18 1

/-- Where the positional form ends, and how many digits an exponent has at least. -/
structure Format where
  leastPoint : Int
  greatestPoint : Int
  exponentDigits : Nat

def plain : Format := ⟨-3, 16, 2⟩

def Digits.toText (format : Format) (d : Digits) : Text :=
  if format.leastPoint ≤ d.point ∧ d.point ≤ format.greatestPoint then
    if d.point ≤ 0 then "0." ++ List.replicate (-d.point).toNat '0' ++ d.digits
    else
      let whole := d.digits.take d.point.toNat
      let fraction := d.digits.drop d.point.toNat
      whole ++ List.replicate (d.point.toNat - whole.length) '0' ++ ['.'] ++
        if fraction.isEmpty then ['0'] else fraction
  else
    let exponent := d.point - 1
    let size := Text.ofNat exponent.natAbs
    let fraction := d.digits.drop 1
    d.digits.take 1 ++ (if fraction.isEmpty then [] else '.' :: fraction) ++ ['e'] ++
      (if exponent < 0 then ['-'] else ['+']) ++
      List.replicate (format.exponentDigits - size.length) '0' ++ size

def ofFloat (format : Format) (x : Float) : Text :=
  let bits := x.toBits.toNat
  let sign : Text := if bits / Nat.pow 2 63 = 1 then ['-'] else []
  let magnitude := bits % Nat.pow 2 63
  if magnitude = 0 then sign ++ "0.0"
  else if 2047 * Nat.pow 2 52 < magnitude then "nan"
  else if magnitude = 2047 * Nat.pow 2 52 then sign ++ "inf"
  else sign ++ (Binary.ofBits magnitude).shortest.toText format

end SourceScout.Decimal
