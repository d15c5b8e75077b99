import SourceScout.Text.Blank

/-!
# Definition blocks

From one line of a definition to all of it. Upwards, annotations, comments and blank lines belong
to the definition, except blank lines at the top. Downwards, a `;` before any `{` ends a definition
without a body; otherwise braces are counted, character by character, from the first line with a
`{`. Braces in strings and comments count like all others.
-/

namespace SourceScout

structure Block where
  first : Nat
  last : Nat
  deriving Repr, DecidableEq

namespace Block

def signatureMarks : List Text := ["@", "/**", "/*", "*/", "*", "//"]

def isSignatureLine (line : Text) : Bool :=
  let trimmed := line.strip
  trimmed.isEmpty || signatureMarks.any fun mark => mark.isPrefixOf trimmed

def signatureRun (lines : List Text) (hit : Nat) : List Text :=
  (lines.take hit).reverse.takeWhile isSignatureLine

/-- The first line of the definition of which `hit` is a line: the top of the signature run, without
the blank lines at its top. -/
def signatureStart (lines : List Text) (hit : Nat) : Nat :=
  hit - ((signatureRun lines hit).reverse.dropWhile Text.isBlankLine).length

def opens (line : Text) : Bool := line.contains '{'

def terminates (line : Text) : Bool := line.contains ';'

def declarationEndFrom? : Nat → List Text → Option Nat
  | _, [] => none
  | index, line :: rest =>
    if opens line then none
    else if terminates line then some index
    else declarationEndFrom? (index + 1) rest

def declarationEnd? (lines : List Text) (start : Nat) : Option Nat :=
  declarationEndFrom? start (lines.drop start)

def openLine? (lines : List Text) (start : Nat) : Option Nat :=
  ((lines.drop start).findIdx? opens).map (start + ·)

/-- Reads a line at a brace depth: `none` if a `}` brings the depth to zero, otherwise the depth at
the end of the line. -/
def depthAfter? : Int → Text → Option Int
  | depth, [] => some depth
  | depth, c :: cs =>
    if c = '{' then depthAfter? (depth + 1) cs
    else if c = '}' then if depth = 1 then none else depthAfter? (depth - 1) cs
    else depthAfter? depth cs

def closeLineFrom? : Int → Nat → List Text → Option Nat
  | _, _, [] => none
  | depth, index, line :: rest =>
    match depthAfter? depth line with
    | none => some index
    | some depth => closeLineFrom? depth (index + 1) rest

/-- The line of the `}` at which the braces counted from the beginning of line `start` are even. -/
def closeLine? (lines : List Text) (start : Nat) : Option Nat :=
  closeLineFrom? 0 start (lines.drop start)

def lastLine? (lines : List Text) (hit : Nat) : Option Nat :=
  match declarationEnd? lines hit with
  | some last => some last
  | none => (openLine? lines hit).bind (closeLine? lines)

/-- The definition around a line; there is none outside the text or if its braces never close. -/
def around? (lines : List Text) (hit : Int) : Option Block :=
  if 0 ≤ hit ∧ hit < lines.length then
    (lastLine? lines hit.toNat).map (⟨signatureStart lines hit.toNat, ·⟩)
  else none

/-- The lines shown around a hit whose definition has no end: from the first bound up to, not
including, the second. -/
def fallbackWindow (count hit before after : Int) : Int × Int :=
  (max 0 (hit - before), min count (hit + after))

end Block

end SourceScout
