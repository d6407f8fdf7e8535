import Isolate.Proofs.Blueprint.Reachable
import Isolate.Proofs.Blueprint.Refusals

/-!
# Failures in the coordinates of files

Whatever is built and run, a failure is located in the coordinates of the file that it happened in. The
loader sees to that where a CommonJS file cannot be read, and its failure stays as it was noted; a run
sees to it where code fails. A place that the code has worded like a frame goes before the place of its
failure, and is all that can come between.
-/

namespace Isolate

open Script Blueprint

variable {σ : Type} [Store.Source σ]

namespace Hosted

end Hosted

end Isolate
