import SourceScout.CommandLine.Run

/-!
# The command line program

Puts the files that a command may look at into a workspace, runs the command in it, writes what the
command says, and saves the settings file if the command changed it.

The program sees the files that are named on the command line and those listed, one path a line, in
the file that the environment variable `CODEPROBE_FILES` names.
-/

namespace SourceScout.Program

partial def readAll (stream : IO.FS.Stream) (before : String) : IO String := do
  let line ← stream.getLine
  if line.isEmpty then return before else readAll stream (before ++ line)

def loadFile? (path : String) : IO (Option Node) := do
  try
    let bytes ← IO.FS.readBinFile path
    return some (.file true bytes.toList)
  catch
    | .permissionDenied .. => return some (.file false [])
    | _ => return none

def addFile (tree : FileTree) (path : String) : IO FileTree := do
  match ← loadFile? path with
  | none => return tree
  | some node =>
    match tree.target false (Path.ofText path) with
    | .ok place => return tree.changeAt place fun _ => some node
    | .error _ => return tree

def listedFiles : IO (List String) := do
  match ← IO.getEnv "CODEPROBE_FILES" with
  | none => return []
  | some list =>
    let names ← try IO.FS.readFile list catch _ => pure ""
    return (names.splitOn "\n").filter (!·.isEmpty)

def pathsOf (word : String) : List String :=
  word :: ((CommandLine.readTarget? word).map fun query => String.ofList query.file).toList

def homeDirectory : IO String := do
  match ← IO.getEnv "CODEPROBE_HOME" with
  | some home => return home
  | none => return (← IO.getEnv "HOME").getD "" ++ "/.codeprobe"

def workspace (args : List String) : IO (Except Failure Workspace) := do
  let here := Path.ofText (toString (← IO.currentDir)).toList
  let home := Path.ofText (← homeDirectory).toList
  let empty : FileTree := ⟨.empty, here.names⟩
  let tree := (empty.makeDirectory here).toOption.getD empty
  let settings := String.ofList (home.child "config.toml").toText
  let paths := settings :: args.flatMap pathsOf ++ (← listedFiles)
  let tree ← paths.foldlM addFile tree
  return do
    let start : Workspace := ⟨tree, home, ← Settings.ofDocument []⟩
    start.reload

def tableText (table : Table) : String :=
  let rows := (table.columns :: table.rows).map fun row => Text.join ['\t'] row
  String.ofList (Text.unlines (table.title :: rows) ++ ['\n'])

def saveSettings (before after : Workspace) : IO Unit := do
  let settings (w : Workspace) := (w.tree.readBytes w.settingsFile).toOption
  match settings after with
  | some bytes =>
    if settings before != some bytes then
      IO.FS.createDirAll (String.ofList after.home.toText)
      IO.FS.writeBinFile (String.ofList after.settingsFile.toText) ⟨bytes.toArray⟩
  | none => return

def report (outcome : CommandLine.Outcome) : IO Unit := do
  let out ← IO.getStdout
  let err ← IO.getStderr
  out.putStr (String.ofList outcome.output)
  for table in outcome.tables do
    out.putStr (tableText table)
  for message in outcome.errors do
    err.putStrLn (String.ofList (CommandLine.Outcome.errorMark ++ message))
  for message in outcome.usage do
    err.putStrLn (String.ofList message)
  for failure in outcome.escaped do
    err.putStrLn (String.ofList failure.message)

def run (args : List String) : IO UInt32 := do
  match ← workspace args with
  | .error failure =>
    report (.ended failure)
    return 1
  | .ok before =>
    let input ← if args.contains "-" then readAll (← IO.getStdin) "" else pure ""
    let (outcome, after) := CommandLine.run before input.toList (args.map String.toList)
    saveSettings before after
    report outcome
    return outcome.exitCode.toUInt32

end SourceScout.Program

def main (args : List String) : IO UInt32 := SourceScout.Program.run args
