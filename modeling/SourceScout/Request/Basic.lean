import SourceScout.Request.Check

/-!
# Requests

The requests of the tools. Each field has two names, and the first one wins.
-/

namespace SourceScout.Request

structure Outlines where
  paths : List Text
  deriving Repr, DecidableEq

structure Contexts where
  paths : List Text
  startLine : Int
  endLine : Option Int
  deriving Repr, DecidableEq

structure ItemQuery where
  file : Text
  item : Text
  deriving Repr, DecidableEq

structure Items where
  queries : List ItemQuery
  deriving Repr, DecidableEq

def paths (form : Form) (fields : List (Text × Value)) : Checked (List Text) :=
  required (list form text) [] "AbsolutePaths" "absolute_paths" fields

def outlines (payload : Payload) : Checked Outlines := do
  let (form, v) ← read payload
  let fields ← table form "OutlineRequest" [] v
  return ⟨← paths form fields⟩

def contexts (payload : Payload) : Checked Contexts := do
  let (form, v) ← read payload
  let fields ← table form "FullContextRequest" [] v
  let (paths, startLine, endLine) ←
    both (paths form fields)
      (both (optional line 1 [] "StartLine" "start_line" fields)
        (optional (nullable line) none [] "EndLine" "end_line" fields))
  return ⟨paths, startLine, endLine⟩

def itemQuery (form : Form) (location : List Text) (v : Value) : Checked ItemQuery := do
  let fields ← table form "CodeItemQuery" location v
  let (file, item) ←
    both (required text location "File" "file" fields)
      (required someText location "ItemName" "item_name" fields)
  return ⟨file, item⟩

def items (payload : Payload) : Checked Items := do
  let (form, v) ← read payload
  let fields ← table form "CodeItemRequest" [] v
  return ⟨← required (list form (itemQuery form)) [] "Items" "items" fields⟩

end SourceScout.Request
