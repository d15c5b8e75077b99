import SourceScout.Decimal.Shortest
import SourceScout.Moment

/-!
# Values

The values that requests and settings files hold. A table keeps its keys in the order in which they
were first set.
-/

namespace SourceScout

inductive Value where
  | null
  | bool (b : Bool)
  | int (n : Int)
  | real (x : Float)
  | text (t : Text)
  | list (items : List Value)
  | table (fields : List (Text × Value))
  /-- A table that is written inside a line. -/
  | inline (fields : List (Text × Value))
  | moment (m : Moment)
  deriving BEq, Inhabited

namespace Value

def fields? : Value → Option (List (Text × Value))
  | .table fields => some fields
  | .inline fields => some fields
  | _ => none

def withFields (fields : List (Text × Value)) : Value → Value
  | .inline _ => .inline fields
  | _ => .table fields

def get? (key : Text) : List (Text × Value) → Option Value
  | [] => none
  | (k, v) :: rest => if k = key then some v else get? key rest

/-- Sets a key: a new key comes last, a known one keeps its place. -/
def set (key : Text) (value : Value) : List (Text × Value) → List (Text × Value)
  | [] => [(key, value)]
  | (k, v) :: rest => if k = key then (key, value) :: rest else (k, v) :: set key value rest

def erase (key : Text) (fields : List (Text × Value)) : List (Text × Value) :=
  fields.filter fun field => field.1 != key

@[simp]
theorem get?_set_self (key : Text) (value : Value) (fields : List (Text × Value)) :
    get? key (set key value fields) = some value := by
  induction fields with
  | nil => simp [set, get?]
  | cons field rest ih =>
    simp only [set]
    split
    · simp [get?]
    · rename_i hne
      simp [get?, hne, ih]

theorem get?_set_of_ne {key other : Text} (h : other ≠ key) (value : Value)
    (fields : List (Text × Value)) : get? other (set key value fields) = get? other fields := by
  induction fields with
  | nil => simp [set, get?, h.symm]
  | cons field rest ih =>
    simp only [set]
    split
    · rename_i heq
      simp [get?, heq, h.symm]
    · simp only [get?, ih]

@[simp]
theorem get?_erase_self (key : Text) (fields : List (Text × Value)) :
    get? key (erase key fields) = none := by
  induction fields with
  | nil => rfl
  | cons field rest ih =>
    by_cases heq : field.1 = key
    · simpa [erase, heq] using ih
    · simpa [erase, heq, get?] using ih

theorem get?_erase_of_ne {key other : Text} (h : other ≠ key) (fields : List (Text × Value)) :
    get? other (erase key fields) = get? other fields := by
  induction fields with
  | nil => rfl
  | cons field rest ih =>
    by_cases heq : field.1 = key
    · simpa [erase, heq, get?, h.symm] using ih
    · simp only [erase, List.filter_cons, bne_iff_ne, ne_eq, heq, not_false_eq_true, if_true, get?]
      split
      · rfl
      · exact ih

def typeName : Value → Text
  | .null => "NoneType"
  | .bool _ => "bool"
  | .int _ => "int"
  | .real _ => "float"
  | .text _ => "str"
  | .list _ => "list"
  | .table _ => "dict"
  | .inline _ => "DynamicInlineTableDict"
  | .moment m => m.typeName

def ofBool (b : Bool) : Text := if b then "True" else "False"

/-- A value inside a message: a text as it is, a numeral in decimals, a word for the rest. Lists and
tables have no such form. -/
def display? : Value → Option Text
  | .null => some "None"
  | .bool b => some (ofBool b)
  | .int n => some (Text.ofInt n)
  | .real x => some (Decimal.ofFloat Decimal.plain x)
  | .text t => some t
  | .list _ => none
  | .table _ => none
  | .inline _ => none
  | .moment m => some (m.toText ' ')

end Value

end SourceScout
