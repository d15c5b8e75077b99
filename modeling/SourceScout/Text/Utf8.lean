import SourceScout.Text.Basic

/-!
# Text from bytes

UTF-8 is read byte by byte. A lead byte says how many bytes follow it and which the first of them
may be, so that overlong forms, surrogates and code points past the last one never start. The bytes
read when a character breaks off are one malformed stretch. Reading either puts a replacement
character for each such stretch or stops at the first.
-/

namespace SourceScout.Utf8

inductive Defect where
  | invalidStart
  | invalidContinuation
  | unexpectedEnd
  deriving Repr, DecidableEq

namespace Defect

def toText : Defect → Text
  | .invalidStart => "invalid start byte"
  | .invalidContinuation => "invalid continuation byte"
  | .unexpectedEnd => "unexpected end of data"

end Defect

/-- A stretch of bytes that is not a character: its position, length, first byte and defect. -/
structure Malformed where
  offset : Nat
  length : Nat
  lead : UInt8
  defect : Defect
  deriving Repr, DecidableEq

namespace Malformed

def message (m : Malformed) : Text :=
  let place : Text :=
    if m.length = 1 then
      "byte 0x" ++ Text.ofHex 2 m.lead.toNat ++ " in position " ++ Text.ofNat m.offset
    else
      "bytes in position " ++ Text.ofNat m.offset ++ "-" ++ Text.ofNat (m.offset + m.length - 1)
  "'utf-8' codec can't decode " ++ place ++ ": " ++ m.defect.toText

end Malformed

/-- A character that has begun: its value so far, how many bytes are missing, the bounds of the next
one, and the bytes read. -/
structure Partial where
  value : Nat
  missing : Nat
  lower : UInt8
  upper : UInt8
  lead : UInt8
  length : Nat
  deriving Repr, DecidableEq

def begin? (b : UInt8) : Option Partial :=
  if 0xc2 ≤ b ∧ b ≤ 0xdf then some ⟨b.toNat - 0xc0, 1, 0x80, 0xbf, b, 1⟩
  else if 0xe0 ≤ b ∧ b ≤ 0xef then
    some ⟨b.toNat - 0xe0, 2, if b = 0xe0 then 0xa0 else 0x80, if b = 0xed then 0x9f else 0xbf, b, 1⟩
  else if 0xf0 ≤ b ∧ b ≤ 0xf4 then
    some ⟨b.toNat - 0xf0, 3, if b = 0xf0 then 0x90 else 0x80, if b = 0xf4 then 0x8f else 0xbf, b, 1⟩
  else none

inductive Piece where
  | char (c : Char)
  | malformed (m : Malformed)
  deriving Repr, DecidableEq

def readLead (offset : Nat) (b : UInt8) : List Piece × Option Partial :=
  if b < 0x80 then ([.char (Char.ofNat b.toNat)], none)
  else match begin? b with
    | some p => ([], some p)
    | none => ([.malformed ⟨offset, 1, b, .invalidStart⟩], none)

def readByte (offset : Nat) (b : UInt8) : Option Partial → List Piece × Option Partial
  | none => readLead offset b
  | some p =>
    if p.lower ≤ b ∧ b ≤ p.upper then
      let value := p.value * 64 + (b.toNat - 0x80)
      if p.missing = 1 then ([.char (Char.ofNat value)], none)
      else ([], some ⟨value, p.missing - 1, 0x80, 0xbf, p.lead, p.length + 1⟩)
    else
      let (pieces, next) := readLead offset b
      (.malformed ⟨offset - p.length, p.length, p.lead, .invalidContinuation⟩ :: pieces, next)

def readFrom (offset : Nat) : Option Partial → List UInt8 → List Piece
  | none, [] => []
  | some p, [] => [.malformed ⟨offset - p.length, p.length, p.lead, .unexpectedEnd⟩]
  | begun, b :: bs =>
    let (pieces, next) := readByte offset b begun
    pieces ++ readFrom (offset + 1) next bs

def pieces (bytes : List UInt8) : List Piece := readFrom 0 none bytes

/-- The text of the bytes, with a replacement character for each malformed stretch. -/
def decode (bytes : List UInt8) : Text :=
  (pieces bytes).map fun
    | .char c => c
    | .malformed _ => Char.ofNat 0xfffd

def collect : List Piece → Except Malformed Text
  | [] => .ok []
  | .char c :: rest => (collect rest).map (c :: ·)
  | .malformed m :: _ => .error m

def decodeStrict (bytes : List UInt8) : Except Malformed Text := collect (pieces bytes)

def encodeChar (c : Char) : List UInt8 :=
  let n := c.toNat
  let low (k : Nat) : UInt8 := (0x80 + n / Nat.pow 64 k % 64).toUInt8
  if n < 0x80 then [n.toUInt8]
  else if n < 0x800 then [(0xc0 + n / 64).toUInt8, low 0]
  else if n < 0x10000 then [(0xe0 + n / Nat.pow 64 2).toUInt8, low 1, low 0]
  else [(0xf0 + n / Nat.pow 64 3).toUInt8, low 2, low 1, low 0]

def encode (t : Text) : List UInt8 := t.flatMap encodeChar

/-- Every line end, `\r\n` or a lone `\r`, made `\n`. -/
def plainLineEnds : Text → Text
  | [] => []
  | '\r' :: '\n' :: rest => '\n' :: plainLineEnds rest
  | '\r' :: rest => '\n' :: plainLineEnds rest
  | c :: rest => c :: plainLineEnds rest

end SourceScout.Utf8
