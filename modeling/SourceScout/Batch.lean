import SourceScout.Failure

/-!
# Batches

Independent work on the entries of a list. Small batches are worked through in order. Larger ones
go to a pool of workers: each entry has a slot, filled when its work is complete, so the results are
in the order of the entries whatever the order of completion. A failure fills the slot of its own
entry and touches no other.
-/

namespace SourceScout.Batch

variable {α β ε : Type}

def poolThreshold : Nat := 4

def outcome (work : α → Except ε β) (onFailure : α → ε → β) (entry : α) : β :=
  match work entry with
  | .ok result => result
  | .error failure => onFailure entry failure

def complete (result : α → β) (entries : List α) (slots : List (Option β)) (index : Nat) :
    List (Option β) :=
  match entries[index]? with
  | some entry => slots.set index (some (result entry))
  | none => slots

def pooled (result : α → β) (entries : List α) (order : List Nat) : List (Option β) :=
  order.foldl (complete result entries) (List.replicate entries.length none)

/-- The size of a pool: what is asked for, or else what is configured, but no more than there are
entries. -/
def workerCount (requested : Option Int) (configured : Int) (count : Nat) : Int :=
  min ((requested.filter fun n => n != 0).getD configured) count

/-- The results of all entries; `order` is the order in which a pool completes them. -/
def run (work : α → Except ε β) (onFailure : α → ε → β) (requested : Option Int) (configured : Int)
    (order : List Nat) (entries : List α) : Except Failure (List β) :=
  let result := outcome work onFailure
  if entries.length < poolThreshold then .ok (entries.map result)
  else if workerCount requested configured entries.length ≤ 0 then .error .noWorkers
  else .ok ((pooled result entries order).filterMap id)

end SourceScout.Batch
