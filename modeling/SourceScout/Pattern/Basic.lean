import SourceScout.Text.Basic
import SourceScout.Text.Blank
import SourceScout.Text.Word

/-!
# Line patterns

A pattern is matched at a place in a text and has several ways to match there, in order of
preference: repetitions prefer to be long, alternatives prefer the first. `Pattern.ways` lists the
places where a match can end, best first; the match proper is the first of them. A pattern records
the texts that its captures took, in the order in which they end.
-/

namespace SourceScout

structure Stretch where
  start : Text
  length : Nat
  deriving Repr, DecidableEq

def Stretch.toText (s : Stretch) : Text := s.start.take s.length

/-- A place in a text: the character before it, what is left to read, how much was read, and what
was captured on the way. -/
structure Place where
  prev : Option Char
  rest : Text
  offset : Nat
  captures : List Stretch
  deriving Repr, DecidableEq

namespace Place

def start (t : Text) : Place := ⟨none, t, 0, []⟩

def step (p : Place) (c : Char) (rest : Text) : Place :=
  { p with prev := some c, rest, offset := p.offset + 1 }

def stretchTo (p q : Place) : Stretch := ⟨p.rest, q.offset - p.offset⟩

def one? (cls : Char → Bool) (p : Place) : Option Place :=
  match p.rest with
  | [] => none
  | c :: cs => if cls c then some (p.step c cs) else none

def word? : Text → Place → Option Place
  | [], p => some p
  | w :: ws, p => (p.one? (· == w)).bind (word? ws)

/-- The places after zero, one, two ... characters of a class, added in front of `shorter`. -/
def run (cls : Char → Bool) : Text → Place → List Place → List Place
  | [], p, shorter => p :: shorter
  | c :: cs, p, shorter =>
    if cls c then run cls cs (p.step c cs) (p :: shorter) else p :: shorter

end Place

inductive Pattern where
  /-- Matches without reading. -/
  | nothing
  | one (cls : Char → Bool)
  /-- As many characters of a class as possible. -/
  | many (cls : Char → Bool)
  /-- As few characters of a class as possible. -/
  | few (cls : Char → Bool)
  /-- Exactly this text. -/
  | word (w : Text)
  | seq (first second : Pattern)
  /-- Either pattern, preferably the first. -/
  | either (first second : Pattern)
  /-- As many repetitions as possible of a pattern that reads something. -/
  | repeated (body : Pattern)
  /-- Only in front of the whole text. -/
  | atStart
  | atWordEdge
  /-- Records the text that the pattern takes. -/
  | capture (body : Pattern)

namespace Pattern

instance : Append Pattern := ⟨seq⟩

instance : OrElse Pattern := ⟨fun first second => either first (second ())⟩

/-- At most `n` repetitions of a step, the longest first. -/
def repeatUpTo (step : Place → List Place) : Nat → Place → List Place
  | 0, p => [p]
  | n + 1, p => (step p).flatMap (repeatUpTo step n) ++ [p]

def isWordEdge (p : Place) : Bool :=
  (match p.prev with | some c => isWordChar c | none => false) !=
    (match p.rest with | c :: _ => isWordChar c | [] => false)

/-- The places where a match that starts here can end, in order of preference. -/
def ways : Pattern → Place → List Place
  | nothing, p => [p]
  | one cls, p => (p.one? cls).toList
  | many cls, p => p.run cls p.rest []
  | few cls, p => (p.run cls p.rest []).reverse
  | word w, p => (p.word? w).toList
  | seq first second, p => (first.ways p).flatMap second.ways
  | either first second, p => first.ways p ++ second.ways p
  | repeated body, p => repeatUpTo body.ways p.rest.length p
  | atStart, p => if p.prev.isNone then [p] else []
  | atWordEdge, p => if isWordEdge p then [p] else []
  | capture body, p =>
    (body.ways p).map fun q => { q with captures := q.captures ++ [p.stretchTo q] }

def anyOf : List Text → Pattern
  | [] => one fun _ => false
  | [w] => word w
  | w :: ws => either (word w) (anyOf ws)

def optional (body : Pattern) : Pattern := either body nothing

def many1 (cls : Char → Bool) : Pattern := one cls ++ many cls

def blanks : Pattern := many isBlank

def blanks1 : Pattern := many1 isBlank

def char (c : Char) : Pattern := one (· == c)

def name : Pattern := capture (many1 isNameChar)

end Pattern

end SourceScout
