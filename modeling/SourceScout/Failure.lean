import SourceScout.Text.Quoted
import SourceScout.Text.Utf8

/-!
# Failures

The causes for which an operation gives no answer, with their wording in one place.
-/

namespace SourceScout

inductive PathFault where
  | missing
  | denied
  | notDirectory
  | isDirectory
  | nameTooLong
  | linkLoop
  deriving Repr, DecidableEq

namespace PathFault

def number : PathFault → Nat
  | .missing => 2
  | .denied => 13
  | .notDirectory => 20
  | .isDirectory => 21
  | .nameTooLong => 36
  | .linkLoop => 40

def toText : PathFault → Text
  | .missing => "No such file or directory"
  | .denied => "Permission denied"
  | .notDirectory => "Not a directory"
  | .isDirectory => "Is a directory"
  | .nameTooLong => "File name too long"
  | .linkLoop => "Too many levels of symbolic links"

end PathFault

inductive NoTable where
  | list
  | plain (typeName : Text)
  deriving Repr, DecidableEq

inductive Failure where
  /-- A path cannot be used. -/
  | path (fault : PathFault) (file : Text)
  /-- A path has a NUL character where a directory is to be listed. -/
  | nulInPath
  /-- There is no setting of this name. -/
  | unknownSetting (key : Text)
  | notInteger (raw : Text)
  /-- A numeral has too many digits. -/
  | tooManyDigits (count : Nat)
  | negativeSetting (key : Text)
  /-- A pool of workers needs at least one. -/
  | noWorkers
  | sectionNotTable (found : NoTable)
  /-- A value that is not plain is used as a name. -/
  | notHashable (typeName : Text)
  | notText (index : Nat) (typeName : Text)
  /-- A text ends before the character that is asked for. -/
  | textTooShort
  | listTooShort
  /-- A plain value is asked for its last item. -/
  | notIndexed (typeName : Text)
  /-- A plain value is asked whether it has a name. -/
  | notSearchable (typeName : Text)
  /-- A plain value is asked for its items. -/
  | notIterable (typeName : Text)
  /-- A text is asked for the value of a name. -/
  | textByName
  /-- A table is to be added to something that is not a list. -/
  | notExtensible
  /-- The code of a character does not fit a machine word. -/
  | codeTooLarge
  /-- A text over several lines has an empty key. -/
  | valueMissing
  | malformedText (m : Utf8.Malformed)
  /-- A failure of the work on an entry of a batch, with its own text. -/
  | entry (text : Text)
  deriving Repr, DecidableEq

namespace Failure

def maxDigits : Nat := 4300

def message : Failure → Text
  | .path fault file =>
    "[Errno " ++ Text.ofNat fault.number ++ "] " ++ fault.toText ++ ": " ++ Text.quoted file
  | .nulInPath => "embedded null byte"
  | .unknownSetting key => Text.quoted key
  | .notInteger raw => "invalid literal for int() with base 10: " ++ (Text.quoted raw).take 200
  | .tooManyDigits count =>
    "Exceeds the limit (" ++ Text.ofNat maxDigits ++
      " digits) for integer string conversion: value has " ++ Text.ofNat count ++
      " digits; use sys.set_int_max_str_digits() to increase the limit"
  | .negativeSetting key => key ++ " must not be negative"
  | .noWorkers => "max_workers must be greater than 0"
  | .sectionNotTable .list => "list indices must be integers or slices, not str"
  | .sectionNotTable (.plain typeName) =>
    "'" ++ typeName ++ "' object does not support item assignment"
  | .notHashable typeName => "unhashable type: '" ++ typeName ++ "'"
  | .notText index typeName =>
    "sequence item " ++ Text.ofNat index ++ ": expected str instance, " ++ typeName ++ " found"
  | .textTooShort => "string index out of range"
  | .listTooShort => "list index out of range"
  | .notIndexed typeName => "'" ++ typeName ++ "' object is not subscriptable"
  | .notSearchable typeName => "argument of type '" ++ typeName ++ "' is not iterable"
  | .notIterable typeName => "'" ++ typeName ++ "' object is not iterable"
  | .textByName => "string indices must be integers, not 'str'"
  | .notExtensible => "You can only load a file descriptor, filename or list"
  | .codeTooLarge => "Python int too large to convert to C int"
  | .valueMissing =>
    "cannot access local variable 'value' where it is not associated with a value"
  | .malformedText m => m.message
  | .entry text => text

end Failure

theorem bind_eq_ok {ε α β : Type} {x : Except ε α} {f : α → Except ε β} {b : β} :
    (x >>= f) = .ok b ↔ ∃ a, x = .ok a ∧ f a = .ok b := by
  cases x <;> simp [bind, Except.bind]

end SourceScout
