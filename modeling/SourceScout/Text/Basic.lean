/-!
# Text

Text is a list of characters, so that scanners recurse on it directly. This module has the
operations that do not depend on a character class: splitting, joining, searching, replacing,
cutting by signed positions, sorting by name, decimal numerals, and tables of code points.
-/

namespace SourceScout

abbrev Text := List Char

instance : Coe String Text := ⟨String.toList⟩

namespace Text

/-- The pieces between occurrences of `sep`: one more than there are occurrences. -/
def splitOn (sep : Char) : Text → List Text
  | [] => [[]]
  | c :: cs =>
    if c = sep then [] :: splitOn sep cs
    else match splitOn sep cs with
      | [] => [[c]]
      | piece :: pieces => (c :: piece) :: pieces

/-- The lines of a text. Only `\n` ends a line, so a `\r` stays in its line. -/
def lines (t : Text) : List Text := splitOn '\n' t

def join (sep : Text) : List Text → Text
  | [] => []
  | [piece] => piece
  | piece :: pieces => piece ++ sep ++ join sep pieces

def unlines (ls : List Text) : Text := join ['\n'] ls

theorem splitOn_ne_nil (sep : Char) (t : Text) : splitOn sep t ≠ [] := by
  cases t with
  | nil => simp [splitOn]
  | cons c cs =>
    simp only [splitOn]
    split
    · simp
    · split <;> simp

theorem join_cons_of_ne_nil (sep piece : Text) {pieces : List Text} (h : pieces ≠ []) :
    join sep (piece :: pieces) = piece ++ sep ++ join sep pieces := by
  cases pieces with
  | nil => exact absurd rfl h
  | cons next rest => rfl

theorem join_splitOn (sep : Char) (t : Text) : join [sep] (splitOn sep t) = t := by
  induction t with
  | nil => rfl
  | cons c cs ih =>
    simp only [splitOn]
    split
    · rename_i hc
      rw [join_cons_of_ne_nil _ _ (splitOn_ne_nil sep cs), ih, hc]
      rfl
    · split
      · rename_i hnil
        exact absurd hnil (splitOn_ne_nil sep cs)
      · rename_i piece pieces hcons
        rw [hcons] at ih
        cases pieces with
        | nil => simpa [join] using ih
        | cons next rest => simpa [join] using ih

@[simp]
theorem unlines_lines (t : Text) : unlines (lines t) = t := join_splitOn '\n' t

def startsWith (start t : Text) : Bool := start.isPrefixOf t

def endsWith (ending t : Text) : Bool := ending.isSuffixOf t

def hasPart (part : Text) : Text → Bool
  | [] => part.isEmpty
  | c :: cs => part.isPrefixOf (c :: cs) || hasPart part cs

def cutFirst? (sep : Text) : Text → Option (Text × Text)
  | [] => if sep.isEmpty then some ([], []) else none
  | c :: cs =>
    if sep.isPrefixOf (c :: cs) then some ([], (c :: cs).drop sep.length)
    else (cutFirst? sep cs).map fun (before, after) => (c :: before, after)

def cutLast? (sep : Text) : Text → Option (Text × Text)
  | [] => if sep.isEmpty then some ([], []) else none
  | c :: cs =>
    match cutLast? sep cs with
    | some (before, after) => some (c :: before, after)
    | none => if sep.isPrefixOf (c :: cs) then some ([], (c :: cs).drop sep.length) else none

/-- What follows the last `sep`, or the whole text if there is none. -/
def afterLast (sep : Char) (t : Text) : Text :=
  match cutLast? [sep] t with
  | some (_, after) => after
  | none => t

def replaceFirst (old new t : Text) : Text :=
  match cutFirst? old t with
  | some (before, after) => before ++ new ++ after
  | none => t

/-- Replaces occurrences from left to right; `skip` characters belong to an occurrence already
replaced. -/
def replaceFrom (old new : Text) : Nat → Text → Text
  | _, [] => []
  | skip + 1, _ :: cs => replaceFrom old new skip cs
  | 0, c :: cs =>
    if old.isPrefixOf (c :: cs) then new ++ replaceFrom old new (old.length - 1) cs
    else c :: replaceFrom old new 0 cs

def replaceAll (old new t : Text) : Text := replaceFrom old new 0 t

def occurrencesFrom (part : Text) : Nat → Text → Nat
  | _, [] => 0
  | skip + 1, _ :: cs => occurrencesFrom part skip cs
  | 0, c :: cs =>
    if part.isPrefixOf (c :: cs) then occurrencesFrom part (part.length - 1) cs + 1
    else occurrencesFrom part 0 cs

def occurrences (part t : Text) : Nat := occurrencesFrom part 0 t

/-- The pieces between the first `limit` occurrences of `sep`; the last piece has the rest. -/
def splitUpTo (sep : Text) : (limit : Nat) → Text → List Text
  | 0, t => [t]
  | limit + 1, t =>
    match cutFirst? sep t with
    | some (before, after) => before :: splitUpTo sep limit after
    | none => [t]

def splitAll (sep t : Text) : List Text := splitUpTo sep t.length t

def interior (t : Text) : Text := t.tail.dropLast

def slice (start length : Nat) (t : Text) : Text := (t.drop start).take length

def dropEndWhile (p : Char → Bool) (t : Text) : Text := (t.reverse.dropWhile p).reverse

def le : Text → Text → Bool
  | [], _ => true
  | _ :: _, [] => false
  | a :: as, b :: bs => if a = b then le as bs else a.val < b.val

def times (n : Nat) (t : Text) : Text := (List.replicate n t).flatten

def ofNat (n : Nat) : Text := Nat.toDigits 10 n

def ofInt : Int → Text
  | .ofNat n => ofNat n
  | .negSucc n => '-' :: ofNat (n + 1)

def ofHex (width n : Nat) : Text :=
  let digits := Nat.toDigits 16 n
  List.replicate (width - digits.length) '0' ++ digits

def inRanges (ranges : List (Nat × Nat)) (n : Nat) : Bool :=
  ranges.any fun range => range.1 ≤ n && n ≤ range.2

def utf8Length (t : Text) : Nat := t.foldl (fun n c => n + c.utf8Size) 0

end Text

/-- Turns a bound of a cut into a position: one below zero counts from the end, and all are brought
into the list. -/
def cutPosition (length : Nat) (bound : Int) : Nat :=
  if bound < 0 then (bound + length).toNat else min bound.toNat length

def cut {α : Type} (xs : List α) (start stop : Int) : List α :=
  let first := cutPosition xs.length start
  (xs.take (cutPosition xs.length stop)).drop first

theorem cut_of_nonneg {α : Type} (xs : List α) (first last : Nat) :
    cut xs first last = (xs.take last).drop first := by
  simp only [cut, cutPosition, Int.natCast_nonneg, Int.not_lt.mpr, if_false, Int.toNat_natCast]
  rcases Nat.le_total last xs.length with hlast | hlast
  · rw [Nat.min_eq_left hlast]
    rcases Nat.le_total first xs.length with hfirst | hfirst
    · rw [Nat.min_eq_left hfirst]
    · have hshort := List.length_take_le' last xs
      rw [Nat.min_eq_right hfirst, List.drop_eq_nil_of_le hshort,
        List.drop_eq_nil_of_le (Nat.le_trans hshort hfirst)]
  · rw [Nat.min_eq_right hlast, List.take_of_length_le hlast, List.take_length]
    rcases Nat.le_total first xs.length with hfirst | hfirst
    · rw [Nat.min_eq_left hfirst]
    · rw [Nat.min_eq_right hfirst, List.drop_length, List.drop_eq_nil_of_le hfirst]

section

variable {α : Type} (le : α → α → Bool)

def insertInOrder (x : α) : List α → List α
  | [] => [x]
  | y :: ys => if le x y then x :: y :: ys else y :: insertInOrder x ys

/-- Sorts by an order; elements that it does not tell apart keep their places. -/
def sortBy : List α → List α
  | [] => []
  | x :: xs => insertInOrder le x (sortBy xs)

end

def sortNamed {α : Type} (entries : List (Text × α)) : List (Text × α) :=
  sortBy (fun entry other => Text.le entry.1 other.1) entries

end SourceScout
