import Mathlib.Data.List.TakeWhile
import SourceScout.OutlineReport
import SourceScout.Proofs.FileTree.Descent
import SourceScout.Proofs.FileTree.Rewriting
import SourceScout.Proofs.FileTree.Routes

/-!
# Which files are reported on

Whether there is a file at a path is asked before the file is read. A file that cannot be read is
reported with the reason, and so is everything that is not there; but the question itself has no
answer if there is an obstacle on the route of the path, and then there is no report either.
-/

namespace SourceScout

namespace OutlineReport

section

variable {tree : FileTree} {path : Text}

end

end OutlineReport

end SourceScout
