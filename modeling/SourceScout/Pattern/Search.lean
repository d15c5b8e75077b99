import SourceScout.Pattern.Basic

/-!
# Searching with patterns

The leftmost place at which a pattern matches, all matches from left to right without overlap, and
replacement. Scanning recurses on the text: characters that belong to a match already found are
skipped by a counter.
-/

namespace SourceScout

structure Match where
  text : Text
  captures : List Text
  deriving Repr, DecidableEq

namespace Match

def capture (m : Match) (i : Nat) : Text := m.captures.getD i []

end Match

namespace Pattern

def matchHere? (pattern : Pattern) (p : Place) : Option Match :=
  (pattern.ways { p with captures := [] }).head?.map fun q =>
    ⟨(p.stretchTo q).toText, q.captures.map Stretch.toText⟩

def matchStart? (pattern : Pattern) (t : Text) : Option Match := pattern.matchHere? (.start t)

/-- The leftmost match from a place on, for a place whose rest is the given text. -/
def searchFrom? (pattern : Pattern) : Text → Place → Option Match
  | [], p => pattern.matchHere? p
  | c :: cs, p =>
    match pattern.matchHere? p with
    | some m => some m
    | none => searchFrom? pattern cs (p.step c cs)

def search? (pattern : Pattern) (t : Text) : Option Match := pattern.searchFrom? t (.start t)

def occursIn (pattern : Pattern) (t : Text) : Bool := (pattern.search? t).isSome

inductive Piece where
  | found (m : Match)
  | plain (c : Char)
  deriving Repr, DecidableEq

/-- Cuts a text into matches and the characters between them; `skip` characters belong to the last
match. A match that takes nothing does not count. -/
def piecesFrom (pattern : Pattern) : Nat → Text → Place → List Piece
  | _, [], _ => []
  | skip + 1, c :: cs, p => piecesFrom pattern skip cs (p.step c cs)
  | 0, c :: cs, p =>
    match pattern.matchHere? p with
    | some m =>
      if m.text.isEmpty then .plain c :: piecesFrom pattern 0 cs (p.step c cs)
      else .found m :: piecesFrom pattern (m.text.length - 1) cs (p.step c cs)
    | none => .plain c :: piecesFrom pattern 0 cs (p.step c cs)

def pieces (pattern : Pattern) (t : Text) : List Piece := pattern.piecesFrom 0 t (.start t)

def findAll (pattern : Pattern) (t : Text) : List Match :=
  (pattern.pieces t).filterMap fun
    | .found m => some m
    | .plain _ => none

def replace (pattern : Pattern) (f : Match → Text) (t : Text) : Text :=
  (pattern.pieces t).flatMap fun
    | .found m => f m
    | .plain c => [c]

end Pattern

end SourceScout
