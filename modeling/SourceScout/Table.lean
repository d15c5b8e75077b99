import SourceScout.OutlineReport
import SourceScout.Pattern.Search

/-!
# Tables

Tables of cell texts. Cells may hold markup in brackets, so text that only looks like markup is
escaped.
-/

namespace SourceScout

structure Table where
  title : Text
  columns : List Text
  rows : List (List Text)
  deriving Repr, DecidableEq

namespace Markup

open Pattern

def isTagStart (c : Char) : Bool := c.isLower || c == '#' || c == '/' || c == '@'

/-- Something in brackets that would be read as a tag, and the backslashes in front of it. -/
def tag : Pattern :=
  capture (many (· == '\\')) ++
    capture (char '[' ++ one isTagStart ++ few (· != '[') ++ char ']')

def closeBackslash (t : Text) : Text :=
  if Text.endsWith "\\" t && !Text.endsWith "\\\\" t then t ++ ['\\'] else t

/-- Escapes what would be read as a tag: the backslashes in front of it are doubled, and one more is
added. -/
def escape (t : Text) : Text :=
  closeBackslash (tag.replace (fun m => m.capture 0 ++ m.capture 0 ++ '\\' :: m.capture 1) t)

end Markup

namespace Table

/-- The lines of an entry: one number, or two if its last line is another one. A last line of zero
counts as none. -/
def span (startLine : Int) (endLine : Option Int) : Text :=
  match endLine with
  | some last =>
    if last ≠ 0 ∧ last ≠ startLine then Text.ofInt startLine ++ "-" ++ Text.ofInt last
    else Text.ofInt startLine
  | none => Text.ofInt startLine

def outlineRow (name kind : Text) (startLine : Int) (endLine : Option Int) (signature : Text) :
    List Text :=
  [span startLine endLine, kind, Markup.escape name, Markup.escape signature]

def outline (path : Text) (rows : List (List Text)) : Table :=
  ⟨"📄 " ++ Markup.escape path, ["Lines", "Type", "Name", "Signature"], rows⟩

def ofItems (path : Text) (items : List OutlineItem) : Table :=
  outline path (items.map fun item =>
    outlineRow item.name item.kind.toText item.startLine (some item.endLine) item.signature)

end Table

end SourceScout
