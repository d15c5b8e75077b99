import SourceScout.Settings.Document

/-!
# Quotation marks in a line

Where a line of a settings document is divided: at the first divider that does not stand in quotes.
The line is cut at its double quotes and, before the first of them, at its single quotes; pieces
then stand outside and inside of quotes in turn.
-/

namespace SourceScout.Document

/-- Adds pieces, with the double quotes between them, until the single quotes come in pairs. -/
def pairSingle : List Text → List Text → List Text × List Text
  | singles, [] => (singles, [])
  | singles, piece :: pieces =>
    if singles.length % 2 == 0 then
      let grown := singles.getLastD [] ++ '"' :: piece
      pairSingle (singles.dropLast ++ Text.splitOn '\'' grown) pieces
    else (singles, piece :: pieces)

def splitFirst : List Text → List Text
  | [] => []
  | piece :: pieces => Text.splitOn '\'' piece ++ pieces

/-- The pieces of a line outside and inside of quotes in turn. -/
def quotePieces (line : Text) : List Text :=
  match Text.splitOn '"' line with
  | first :: next :: rest =>
    if first.contains '\'' then
      let (singles, pieces) := pairSingle (Text.splitOn '\'' first) (next :: rest)
      singles ++ splitFirst pieces
    else splitFirst (first :: next :: rest)
  | pieces => splitFirst pieces

/-- The number of the first divider outside of quotes, when `number` comes next. -/
def dividerFrom (divider : Text) : (quoted : Bool) → (number : Nat) → List Text → Nat
  | _, number, [] => number
  | quoted, number, piece :: pieces =>
    if !quoted && Text.hasPart divider piece then number
    else dividerFrom divider (!quoted) (number + Text.occurrences divider piece) pieces

def dividerNumber (divider line : Text) : Nat :=
  dividerFrom divider false 1 (quotePieces line)

end SourceScout.Document
