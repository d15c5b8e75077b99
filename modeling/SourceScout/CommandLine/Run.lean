import SourceScout.CommandLine.Command
import SourceScout.Settings.Store
import SourceScout.Table
import SourceScout.Tool

/-!
# Running commands

A command line is run in a workspace. The outcome holds all that is written, without terminal codes
in texts and errors; only commands on settings change the workspace.
-/

namespace SourceScout

namespace Text

open Pattern

def isCodeParameter (c : Char) : Bool := c.isDigit || c == ';' || c == '?'

/-- A terminal code, which changes colours or moves the cursor. -/
def terminalCode : Pattern :=
  char '\x1b' ++ char '[' ++ Pattern.many isCodeParameter ++ one Char.isAlpha

def withoutCodes (t : Text) : Text := terminalCode.replace (fun _ => []) t

end Text

namespace CommandLine

structure Outcome where
  exitCode : Nat
  output : Text
  errors : List Text
  usage : Option Text
  tables : List Table
  /-- A failure that the command does not deal with. -/
  escaped : Option Failure

namespace Outcome

def silent : Outcome := ⟨0, [], [], none, [], none⟩

def printed (t : Text) : Outcome := { silent with output := Text.withoutCodes t ++ ['\n'] }

def shown (tables : List Table) : Outcome := { silent with tables := tables }

def failed (message : Text) : Outcome := { silent with exitCode := 1, errors := [message] }

/-- The command line was used wrongly; the message is for mistakes in the values of words. -/
def misused (message : Option Text) : Outcome := { silent with exitCode := 2, usage := message }

def ended (failure : Failure) : Outcome := { silent with exitCode := 1, escaped := some failure }

def errorMark : Text := "❌ "

def errorLines (o : Outcome) : List Text :=
  (o.errors.flatMap fun message => (errorMark ++ Text.withoutCodes message).lines).filter
    (Text.startsWith "❌")

end Outcome

def versionText : Text := "CodeProbe CLI v1.2.0"

def printAnswer : Except Failure Text → Outcome
  | .ok t => .printed t
  | .error failure => .ended failure

def showReports (reports : List OutlineReport) : Outcome :=
  { Outcome.silent with
    tables := reports.filterMap fun
      | .outline path _ items => some (Table.ofItems path items)
      | .failed _ _ => none
    errors := reports.filterMap fun
      | .outline _ _ _ => none
      | .failed path reason => some (path ++ ": " ++ reason) }

def runOutline (w : Workspace) (paths : List Text) (asTable : Bool) : Outcome :=
  match Tool.outlineReports w ⟨paths⟩ with
  | .error failure => .ended failure
  | .ok reports =>
    if asTable then showReports reports
    else .printed (Json.write .page (.list (reports.map OutlineReport.toValue)))

def runContext (w : Workspace) (paths : List Text) (startLine : Int) (endLine : Option Int) :
    Outcome :=
  printAnswer ((Tool.contextTexts w ⟨paths, startLine, endLine⟩).map
    (Text.join FileContext.separator))

def readTarget? (target : Text) : Option Request.ItemQuery :=
  match Text.cutLast? [':'] target with
  | some (file, item) => if file.isEmpty || item.isEmpty then none else some ⟨file, item⟩
  | none => none

def readTargets : List Text → Except Text (List Request.ItemQuery)
  | [] => .ok []
  | target :: rest =>
    match readTarget? target with
    | none => .error target
    | some query => (readTargets rest).map (query :: ·)

def runItem (w : Workspace) (targets : List Text) : Outcome :=
  match readTargets targets with
  | .error target => .misused (some ("Expected FILE:ITEM_NAME, got '" ++ target ++ "'."))
  | .ok queries => printAnswer ((Tool.itemTexts w ⟨queries⟩).map (Text.join ItemView.separator))

/-- The text of a request: the standard input for a dash, or a file. -/
def requestText (w : Workspace) (input source : Text) : Except Failure Text :=
  if source = "-" then .ok (Utf8.plainLineEnds input)
  else do
    match Utf8.decodeStrict (← w.tree.readWritten source) with
    | .ok t => return Utf8.plainLineEnds t
    | .error malformed => .error (.malformedText malformed)

def runEnvelope (w : Workspace) (fields : List (Text × Value)) : Outcome :=
  let named := Value.get? "tool" fields
  let tool := match named with
    | some (.text name) => Tool.ofName? name
    | _ => none
  match tool with
  | some tool =>
    let arguments := match Value.get? "arguments" fields with
      | some (.table arguments) => arguments
      | _ => []
    printAnswer (tool.run w (.value (.table arguments)))
  | none =>
    let value := named.getD .null
    match value.display? with
    | none => .ended (.notHashable value.typeName)
    | some name =>
      .failed ("Unknown tool '" ++ name ++ "'. Available: " ++
        Text.join ", " (Tool.all.map Tool.name))

def runRequest (w : Workspace) (input source : Text) : Outcome :=
  match requestText w input source with
  | .error (.path fault file) =>
    .failed ("Cannot read request: " ++ Failure.message (.path fault file))
  | .error failure => .ended failure
  | .ok t =>
    match Json.read .envelope t with
    | .error fault =>
      if fault.cause = .longNumber then
        .ended (.tooManyDigits (fault.token.takeWhile Char.isDigit).length)
      else .failed ("Request is not valid JSON: " ++ fault.reportEnvelope t)
    | .ok (.table fields) => runEnvelope w fields
    | .ok _ => .failed "Request must be a JSON object."

/-- The texts of a list of names; another value among them is a failure. -/
def namesOf : (index : Nat) → List Value → Except Failure (List Text)
  | _, [] => .ok []
  | index, .text t :: rest => (namesOf (index + 1) rest).map (t :: ·)
  | index, other :: _ => .error (.notText index other.typeName)

def settingCell : Value → Except Failure Text
  | .list items => (namesOf 0 items).map (Text.join ", ")
  | value => .ok (value.display?.getD [])

def settingRow (document : Document) (setting : Setting) : Except Failure (List Text) := do
  return [setting.key, ← settingCell (setting.valueIn document), ← settingCell setting.default]

def settingsTable (w : Workspace) : Except Failure Table := do
  let document ← w.loadDocument
  let rows ← Setting.all.mapM (settingRow document)
  return ⟨"⚙️  " ++ w.settingsFile.toText, ["Key", "Value", "Default"], rows⟩

def runShow (w : Workspace) : Outcome :=
  match settingsTable w with
  | .ok table => .shown [table]
  | .error failure => .ended failure

def shownValue : Value → Text
  | .list items => Text.quotedList (items.filterMap fun
    | .text t => some t
    | _ => none)
  | value => value.display?.getD []

def saved (done : Text) : Except Failure Bool × Workspace → Outcome × Workspace
  | (.error failure, w) => (.ended failure, w)
  | (.ok false, w) => (.failed ("Failed to write " ++ w.settingsFile.toText), w)
  | (.ok true, w) => (.printed done, w)

def settingMisuse (key : Text) : Failure → Text
  | .unknownSetting key =>
    "Unknown setting '" ++ key ++ "'. Known: " ++ Text.join ", " (Setting.all.map Setting.key)
  | failure => "Invalid value for " ++ key ++ ": " ++ failure.message

def runSet (w : Workspace) (key raw : Text) : Outcome × Workspace :=
  match Setting.readByKey key raw with
  | .error failure => (.misused (some (settingMisuse key failure)), w)
  | .ok value => saved ("✅ " ++ key ++ " = " ++ shownValue value) (w.saveSetting key value)

def runReset (w : Workspace) : Outcome × Workspace :=
  saved "✅ Scanner settings reset to defaults" w.clearSettings

def Command.run (w : Workspace) (input : Text) : Command → Outcome × Workspace
  | .version => (.printed versionText, w)
  | .help => (.silent, w)
  | .outline paths asTable => (runOutline w paths asTable, w)
  | .context paths startLine endLine => (runContext w paths startLine endLine, w)
  | .item targets => (runItem w targets, w)
  | .request source => (runRequest w input source, w)
  | .showSettings => (runShow w, w)
  | .setSetting key value => runSet w key value
  | .resetSettings => runReset w

def run (w : Workspace) (input : Text) (args : List Text) : Outcome × Workspace :=
  match Command.read? args with
  | some command => command.run w input
  | none => (.misused none, w)

end CommandLine

end SourceScout
