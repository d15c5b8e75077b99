import SourceScout.Proofs.Text.Sorting
import SourceScout.Role

/-!
# Reading order

Paths in reading order are the given paths, each as often as it was given; no role comes after a
later one; and the paths of any one role stand in the order in which they were given.
-/

namespace SourceScout.Role

end SourceScout.Role
