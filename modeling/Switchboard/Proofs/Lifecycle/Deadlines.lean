import Switchboard.Proofs.Lifecycle.Completion

set_option autoImplicit false

/-! # Hooks wait for the end of serving or for a deadline

A shutdown comes to the hooks in two ways: it sees that serving has ended, or it sees that serving
has not ended although its deadline has passed (`Machine.Misses`). Only in the second case does it
return an error. A deadline that has passed does not make the call look at once, so serving may end
in between, and then the call returns without an error (`Machine.not_error_iff_expires`).
-/

namespace Switchboard

open Server (Touched)

variable {s : Server} {i : Nat} {e : Event}

/-! ## Deadlines that have passed -/

namespace Closing

variable {k : Closing} {timeout : Option Duration}

end Closing

namespace Machine

variable {m : Machine} {config : ServerConfig} {events : List Event}

end Machine

end Switchboard
