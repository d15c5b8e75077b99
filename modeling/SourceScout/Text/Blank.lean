import SourceScout.Text.Basic

/-!
# Blank characters

White space in the wide sense of Unicode, with the four information separators, and the functions
that strip it. A zero-width space and a byte-order mark are not blank.
-/

namespace SourceScout

def Text.blankRanges : List (Nat × Nat) :=
  [(0x9, 0xd), (0x1c, 0x20), (0x85, 0x85), (0xa0, 0xa0), (0x1680, 0x1680), (0x2000, 0x200a),
   (0x2028, 0x2029), (0x202f, 0x202f), (0x205f, 0x205f), (0x3000, 0x3000)]

def isBlank (c : Char) : Bool := Text.inRanges Text.blankRanges c.toNat

/-- Blank characters without the information separators: what may surround a numeral. -/
def isNumeralMargin (c : Char) : Bool := isBlank c && !(0x1c ≤ c.toNat && c.toNat ≤ 0x1f)

namespace Text

def stripLeft (t : Text) : Text := t.dropWhile isBlank

def stripRight (t : Text) : Text := dropEndWhile isBlank t

def strip (t : Text) : Text := stripRight (stripLeft t)

def isBlankLine (t : Text) : Bool := t.all isBlank

def firstWord? (t : Text) : Option Text :=
  match stripLeft t with
  | [] => none
  | rest => some (rest.takeWhile fun c => !isBlank c)

end Text

end SourceScout
