import SourceScout.FileTree.Edit
import SourceScout.Settings.Basic
import SourceScout.Settings.Reader
import SourceScout.Settings.Writer

/-!
# The settings file

Settings are kept in one section of a document; all else in the document stays as it is when they
change. A change of the file does not change the settings in force until they are loaded again.
-/

namespace SourceScout

namespace Document

def withSetting (key : Text) (value : Value) (document : Document) : Except Failure Document :=
  match Value.get? Setting.sectionName document with
  | none => .ok (Value.set Setting.sectionName (.table [(key, value)]) document)
  | some (.list _) => .error (.sectionNotTable .list)
  | some other =>
    match other.fields? with
    | some fields =>
      .ok (Value.set Setting.sectionName (other.withFields (Value.set key value fields)) document)
    | none => .error (.sectionNotTable (.plain other.typeName))

def withoutSettings (document : Document) : Document := Value.erase Setting.sectionName document

end Document

namespace Workspace

/-- The document in the settings file. A file that is missing, unreadable or malformed counts as
empty; it is a failure if it cannot be said whether there is a file, or if its bytes are no text. -/
def loadDocument (w : Workspace) : Except Failure Document := do
  if ← w.tree.contains w.settingsFile then
    match w.tree.readBytes w.settingsFile with
    | .error _ => .ok []
    | .ok bytes =>
      match Utf8.decodeStrict bytes with
      | .error malformed => .error (.malformedText malformed)
      | .ok t => Document.ofText (Utf8.plainLineEnds t)
  else .ok []

def loadSettings (w : Workspace) : Except Failure (List (Text × Value)) := do
  let document ← w.loadDocument
  return Setting.all.map fun setting => (setting.key, setting.valueIn document)

def reload (w : Workspace) : Except Failure Workspace := do
  return { w with settings := ← Settings.ofDocument (← w.loadDocument) }

/-- Writes the settings file; says whether that was possible. The file is emptied before the
document is written, so a document that has no written form leaves an empty file. -/
def saveDocument (w : Workspace) (document : Document) : Except Failure Bool × Workspace :=
  let (answer, content) : Except Failure Bool × Text := match document.toText with
    | .ok t => (.ok true, t)
    | .error failure => (.error failure, [])
  match w.tree.write w.settingsFile (Utf8.encode content) with
  | .ok tree => (answer, { w with tree := tree })
  | .error _ => (.ok false, w)

def saveSetting (w : Workspace) (key : Text) (value : Value) : Except Failure Bool × Workspace :=
  match Setting.ofKey? key with
  | none => (.error (.unknownSetting key), w)
  | some _ =>
    match w.loadDocument.bind (·.withSetting key value) with
    | .error failure => (.error failure, w)
    | .ok document => w.saveDocument document

def clearSettings (w : Workspace) : Except Failure Bool × Workspace :=
  match w.loadDocument with
  | .error failure => (.error failure, w)
  | .ok document => w.saveDocument document.withoutSettings

end Workspace

end SourceScout
