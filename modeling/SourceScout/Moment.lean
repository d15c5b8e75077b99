import SourceScout.Text.Numeral

/-!
# Moments

Days of the calendar, times of day, and both together with an offset from universal time: how they
are read from a settings document and how they are written. The characters between the numbers of a
day are not looked at.
-/

namespace SourceScout

structure Day where
  year : Nat
  month : Nat
  day : Nat
  deriving Repr, DecidableEq

structure Clock where
  hour : Nat
  minute : Nat
  second : Nat
  microsecond : Nat
  deriving Repr, DecidableEq

/-- A day, a time of day, or both, perhaps with an offset in minutes from universal time. -/
inductive Moment where
  | day (d : Day)
  | clock (c : Clock)
  | both (d : Day) (c : Clock) (offset : Option Int)
  deriving Repr, DecidableEq

namespace Day

def isLeap (year : Nat) : Bool := year % 4 == 0 && (year % 100 != 0 || year % 400 == 0)

def lengthOfMonth (year month : Nat) : Nat :=
  if month = 2 then if isLeap year then 29 else 28
  else if month = 4 ∨ month = 6 ∨ month = 9 ∨ month = 11 then 30
  else 31

def of? (year month day : Int) : Option Day :=
  if 1 ≤ year ∧ year ≤ 9999 ∧ 1 ≤ month ∧ month ≤ 12 ∧ 1 ≤ day ∧
      day ≤ lengthOfMonth year.toNat month.toNat then
    some ⟨year.toNat, month.toNat, day.toNat⟩
  else none

end Day

def Clock.of? (hour minute second microsecond : Int) : Option Clock :=
  if 0 ≤ hour ∧ hour < 24 ∧ 0 ≤ minute ∧ minute < 60 ∧ 0 ≤ second ∧ second < 60 ∧
      0 ≤ microsecond ∧ microsecond < 1000000 then
    some ⟨hour.toNat, minute.toNat, second.toNat, microsecond.toNat⟩
  else none

namespace Moment

def numberAt? (start length : Nat) (t : Text) : Option Int :=
  (Numeral.toInt (Text.slice start length t)).toOption

def offset? (t : Text) : Option Int :=
  if t = ['Z'] then some 0
  else do
    let hours ← numberAt? 1 2 t
    let minutes ← numberAt? 4 2 t
    let size := hours * 60 + minutes
    return if t.head? = some '-' then -size else size

/-- Microseconds from the digits after the point of a second; digits beyond the sixth are cut
off. -/
def microseconds? (digits : Text) : Option Int := do
  let n ← (Numeral.toInt digits).toOption
  return if digits.length ≤ 6 then n * Nat.pow 10 (6 - digits.length)
    else n / Nat.pow 10 (digits.length - 6)

def splitFraction (t : Text) : Text × Option Text :=
  if t.getLast? = some 'Z' ∨ t.getLast? = some 'z' then (t.dropLast, some ['Z'])
  else match Text.cutFirst? ['+'] t with
    | some (digits, rest) => (digits, some ('+' :: rest))
    | none =>
      match Text.cutFirst? ['-'] t with
      | some (digits, rest) => (digits, some ('-' :: rest))
      | none => (t, none)

/-- Microseconds and offset, from what follows the seconds. If a part of it is malformed, there is
neither. -/
def readTail (t : Text) : Int × Option Int :=
  let parts : Option (Int × Option Int) := match t with
    | [] => none
    | '.' :: rest => do
      let (digits, zone) := splitFraction rest
      let offset ← match zone with
        | none => some none
        | some zone => (offset? zone).map some
      return (← microseconds? digits, offset)
    | rest => (offset? rest).map fun offset => (0, some offset)
  parts.getD (0, none)

def ofDayText? (t : Text) : Option Moment :=
  if !t.tail.contains '-' then none
  else do
    let day ← Day.of? (← numberAt? 0 4 t) (← numberAt? 5 2 t) (← numberAt? 8 2 t)
    if t.length = 10 then return .day day
    else
      let (microsecond, offset) := readTail (t.drop 19)
      let clock ← Clock.of? (← numberAt? 11 2 t) (← numberAt? 14 2 t) (← numberAt? 17 2 t)
        microsecond
      return .both day clock offset

def twoDigits? : Text → Option (Nat × Text)
  | a :: b :: rest =>
    if a.isDigit && b.isDigit then
      some ((a.toNat - '0'.toNat) * 10 + (b.toNat - '0'.toNat), rest)
    else none
  | _ => none

def afterColon? : Text → Option Text
  | ':' :: rest => some rest
  | _ => none

/-- The numbers of a time of day at the start of a text. Three to six digits after a point count
microseconds. -/
def clockNumbers? (t : Text) : Option (Nat × Nat × Nat × Nat) := do
  let (hour, rest) ← twoDigits? t
  let (minute, rest) ← twoDigits? (← afterColon? rest)
  let (second, rest) ← twoDigits? (← afterColon? rest)
  let digits := match rest with
    | '.' :: rest => (rest.takeWhile Char.isDigit).take 6
    | _ => []
  let fraction := if digits.length < 3 then 0 else (Numeral.ofDigits? 10 digits).getD 0
  return (hour, minute, second, fraction)

def typeName : Moment → Text
  | .day _ => "datetime.date"
  | .clock _ => "datetime.time"
  | .both _ _ _ => "datetime.datetime"

def padded (width n : Nat) : Text :=
  List.replicate (width - (Text.ofNat n).length) '0' ++ Text.ofNat n

def dayText (d : Day) : Text :=
  padded 4 d.year ++ '-' :: padded 2 d.month ++ '-' :: padded 2 d.day

def clockText (c : Clock) : Text :=
  padded 2 c.hour ++ ':' :: padded 2 c.minute ++ ':' :: padded 2 c.second ++
    if c.microsecond = 0 then [] else '.' :: padded 6 c.microsecond

def offsetText (minutes : Int) : Text :=
  (if minutes < 0 then '-' else '+') :: padded 2 (minutes.natAbs / 60) ++
    ':' :: padded 2 (minutes.natAbs % 60)

/-- The written form of a moment, with `gap` between day and time. -/
def toText (gap : Char) : Moment → Text
  | .day d => dayText d
  | .clock c => clockText c
  | .both d c offset => dayText d ++ gap :: clockText c ++ (offset.map offsetText).getD []

end Moment

end SourceScout
