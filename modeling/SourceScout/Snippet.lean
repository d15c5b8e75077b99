import SourceScout.Block
import SourceScout.Settings.Basic

/-!
# Snippets

The definition around the first line of a file that mentions a name. If its braces never close, a
window around that line takes its place.
-/

namespace SourceScout

/-- A piece of a file; lines are counted from one. -/
structure Snippet where
  path : Text
  item : Text
  startLine : Int
  endLine : Int
  code : Text
  deriving Repr, DecidableEq

inductive NoSnippet where
  | notFile (path : Text)
  | unreadable (path : Text) (failure : Failure)
  | notMentioned (path item : Text)
  deriving Repr, DecidableEq

namespace NoSnippet

def toText : NoSnippet → Text
  | .notFile path =>
    "--- File: " ++ path ++ " (error: file does not exist or is not a regular file) ---"
  | .unreadable path failure =>
    "--- File: " ++ path ++ " (error: read failed - " ++ failure.message ++ ") ---"
  | .notMentioned path item =>
    "--- File: " ++ path ++ " (error: item '" ++ item ++ "' not found) ---"

end NoSnippet

namespace Snippet

def header (s : Snippet) : Text :=
  "--- File: " ++ s.path ++ " (lines " ++ Text.ofInt s.startLine ++ "-" ++ Text.ofInt s.endLine ++
    ", item: '" ++ s.item ++ "') ---"

def toText (s : Snippet) : Text := s.header ++ "\n\n" ++ s.code

def hit? (item : Text) (lines : List Text) : Option Nat := lines.findIdx? (Text.hasPart item)

/-- The lines shown for a hit, from the first bound up to, not including, the second. -/
def bounds (lines : List Text) (hit : Nat) (before after : Int) : Int × Int :=
  match Block.around? lines hit with
  | some block => (block.first, block.last + 1)
  | none => Block.fallbackWindow lines.length hit before after

def ofBounds (path item : Text) (lines : List Text) (range : Int × Int) : Snippet :=
  { path := path
    item := item
    startLine := range.1 + 1
    endLine := range.2
    code := Text.unlines (cut lines range.1 range.2) }

def ofLines? (path item : Text) (lines : List Text) (before after : Int) : Option Snippet :=
  (hit? item lines).map fun hit => ofBounds path item lines (bounds lines hit before after)

def ofFile (w : Workspace) (path item : Text) (before after : Option Int) :
    Except Failure (Except NoSnippet Snippet) := do
  if ← w.tree.isFile (Path.ofText path) then
    match w.tree.readText (Path.ofText path) with
    | .error failure => return .error (.unreadable path failure)
    | .ok content =>
      match ofLines? path item content.lines (before.getD w.settings.snippetBefore)
          (after.getD w.settings.snippetAfter) with
      | some snippet => return .ok snippet
      | none => return .error (.notMentioned path item)
  else return .error (.notFile path)

end Snippet

end SourceScout
