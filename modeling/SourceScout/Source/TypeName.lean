import SourceScout.Text.Blank

/-!
# Type names

Type expressions as they are written in a field: their generic arguments, and whether they name a
collaborator rather than a value.
-/

namespace SourceScout.TypeName

/-- A line without what stands between its first `<` and its last `>`. -/
def stripLine (line : Text) : Text :=
  match Text.cutFirst? ['<'] line with
  | none => line
  | some (before, inside) =>
    match Text.cutLast? ['>'] inside with
    | none => line
    | some (_, after) => before ++ after

def stripGenerics (t : Text) : Text := (Text.unlines (t.lines.map stripLine)).strip

def collapseBlanks : Text → Text
  | [] => []
  | c :: cs =>
    if isBlank c then
      if (cs.head?.map isBlank).getD false then collapseBlanks cs else ' ' :: collapseBlanks cs
    else c :: collapseBlanks cs

/-- What stands between the first `<` that has something after it and the next `>`. -/
def argument? : Text → Option Text
  | [] => none
  | c :: cs =>
    let inside := cs.takeWhile (· != '>')
    if c = '<' ∧ inside ≠ [] ∧ inside.length < cs.length then some inside else argument? cs

def scalars : List Text :=
  ["String", "Integer", "Long", "BigDecimal", "BigInteger", "Date", "LocalDate", "LocalDateTime",
   "LocalTime", "Duration", "Boolean", "boolean", "int", "long", "double", "float"]

/-- Types that count by their arguments. -/
def containers : List Text := ["List", "Map", "Set"]

theorem length_collapseBlanks_le (t : Text) : (collapseBlanks t).length ≤ t.length := by
  induction t with
  | nil => simp [collapseBlanks]
  | cons c cs ih => grind [collapseBlanks]

theorem length_argument?_lt {t inside : Text} (h : argument? t = some inside) :
    inside.length < t.length := by
  induction t with
  | nil => simp [argument?] at h
  | cons c cs ih => grind [argument?]

theorem length_le_of_mem_splitOn {sep : Char} {t part : Text} (h : part ∈ Text.splitOn sep t) :
    part.length ≤ t.length := by
  induction t generalizing part with
  | nil => simp_all [Text.splitOn]
  | cons c cs ih => grind [Text.splitOn]

theorem length_strip_le (t : Text) : t.strip.length ≤ t.length := by
  have hleft := (List.dropWhile_sublist isBlank (l := t)).length_le
  have hright := (List.dropWhile_sublist isBlank (l := (t.dropWhile isBlank).reverse)).length_le
  simp only [Text.strip, Text.stripRight, Text.stripLeft, Text.dropEndWhile, List.length_reverse]
    at *
  omega

/-- Whether a field of this type looks like a collaborator. A scalar is none; a container is one if
one of the arguments up to the first `>` is. -/
def isLikelyInjected (t : Text) : Bool :=
  let base := stripGenerics (collapseBlanks t)
  if scalars.contains base then false
  else if containers.contains base then
    match _h : argument? (collapseBlanks t) with
    | none => false
    | some inside =>
      (Text.splitOn ',' inside).attach.any fun part => isLikelyInjected (Text.strip part.1)
  else true
termination_by t.length
decreasing_by
  have hpart := length_le_of_mem_splitOn part.2
  have hinside := length_argument?_lt _h
  have htype := length_collapseBlanks_le t
  have hstrip := length_strip_le part.1
  omega

end SourceScout.TypeName
