import SourceScout.Batch
import SourceScout.FileContext
import SourceScout.ItemView
import SourceScout.Json.Writer
import SourceScout.OutlineReport
import SourceScout.Request.Basic

/-!
# Tools

Each tool takes a request and answers with one text. A request with problems is answered by these
alone; within a good request each entry is worked on by itself, so that a bad entry hides no other.
-/

namespace SourceScout

inductive Tool where
  | items
  | contexts
  | outlines
  deriving Repr, DecidableEq

namespace Tool

def all : List Tool := [items, contexts, outlines]

def name : Tool → Text
  | .items => "view_code_items"
  | .contexts => "view_files_full_context"
  | .outlines => "view_files_outlines"

def ofName? (t : Text) : Option Tool := all.find? fun tool => tool.name == t

def errorText (message : Text) : Text :=
  Json.write .line (.table [("error".toList, .text message)])

def batch {α β : Type} (w : Workspace) (work : α → Except Failure β) (onFailure : α → Failure → β)
    (entries : List α) : Except Failure (List β) :=
  Batch.run work onFailure none w.settings.maxWorkers (List.range entries.length) entries

def outlineReports (w : Workspace) (request : Request.Outlines) :
    Except Failure (List OutlineReport) :=
  batch w (OutlineReport.ofFile w.tree) (fun path failure => .failed path failure.message)
    request.paths

def viewOutlines (w : Workspace) (payload : Payload) : Except Failure Text :=
  match Request.outlines payload with
  | .error problems => .ok (errorText (Problem.report problems))
  | .ok request => do
    let reports ← outlineReports w request
    return Json.write .page (.list (reports.map OutlineReport.toValue))

def contextTexts (w : Workspace) (request : Request.Contexts) : Except Failure (List Text) :=
  batch w (fun path => FileContext.ofFile w path (some request.startLine) request.endLine)
    (fun path failure => FileContext.unreadable path failure.message)
    (Role.sortPaths request.paths)

def viewContexts (w : Workspace) (payload : Payload) : Except Failure Text :=
  match Request.contexts payload with
  | .error problems => .ok ("Error: " ++ Problem.report problems)
  | .ok request => do
    return Text.join FileContext.separator (← contextTexts w request)

def itemTexts (w : Workspace) (request : Request.Items) : Except Failure (List Text) :=
  batch w (fun query => ItemView.ofFile w query.file query.item)
    (fun query failure => "--- File: " ++ query.file ++ " (error: " ++ failure.message ++ ") ---")
    request.queries

def viewItems (w : Workspace) (payload : Payload) : Except Failure Text :=
  match Request.items payload with
  | .error problems => .ok (errorText (Problem.report problems))
  | .ok request => do
    return Text.join ItemView.separator (← itemTexts w request)

def run (w : Workspace) : Tool → Payload → Except Failure Text
  | .items => viewItems w
  | .contexts => viewContexts w
  | .outlines => viewOutlines w

end Tool

end SourceScout
