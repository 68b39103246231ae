import Errmark.Machine.Arch

/-
  Error numbers, answers to `ptrace` requests, and the
  traced program's memory as `PTRACE_PEEKDATA` shows it.

  Key definitions include:
    * `Errno`
    * `Reply`
    * `Memory`
    * `Memory.peekData`
-/

------------------------------------------------------------
-- Error Numbers And Replies
------------------------------------------------------------

namespace Errmark

/- The `errno` of a call that failed; it is never 0. -/
structure Errno where
  number : Nat
  ne_zero : number ≠ 0
  deriving DecidableEq, Repr

namespace Errno

/- There is no such process. -/
def ESRCH : Errno := ⟨3, by decide⟩

/- The word is not mapped in the traced process. -/
def EIO : Errno := ⟨5, by decide⟩

/- There is no memory for a block. -/
def ENOMEM : Errno := ⟨12, by decide⟩

end Errno

/- The answer to a request that returns no data. -/
inductive Reply where
  | ok
  | failed (errno : Errno)
  deriving DecidableEq, Repr

namespace Reply

/- What `ptrace` returns. -/
def rc : Reply → Int
| .ok => 0
| .failed _ => -1

/- The request found no live traced process. -/
def isGone (reply : Reply) : Bool :=
  reply = .failed Errno.ESRCH

end Reply

end Errmark

------------------------------------------------------------
-- Memory Of The Traced Program
------------------------------------------------------------

namespace Errmark

variable {arch : Arch}

/-
  The memory at one stop. A request at an address with a
  `fault` fails with that error.
-/
structure Memory (arch : Arch) where
  byteAt : arch.Word → UInt8
  fault : arch.Word → Option Errno

namespace Memory

/- The bytes of the word at an address. -/
def wordAt
    (memory : Memory arch)
    (addr : arch.Word) : List UInt8 :=
  (List.range arch.wordBytes).map fun i =>
    memory.byteAt (addr + BitVec.ofNat _ i)

/-
  `errno = 0; data.iword = ptrace(PTRACE_PEEKDATA, ...)`:
  the bytes left in the union, and `errno` after the call.
  A failure returns -1, which is a word of 0xff bytes.
-/
def peekData
    (memory : Memory arch)
    (addr : arch.Word) : List UInt8 × Nat :=
  match memory.fault addr with
  | none => (memory.wordAt addr, 0)
  | some errno =>
      (List.replicate arch.wordBytes 0xff, errno.number)

/- The request at an address as `ptrace` answers it. -/
def peekReply
    (memory : Memory arch)
    (addr : arch.Word) : Reply :=
  match memory.fault addr with
  | none => .ok
  | some errno => .failed errno

end Memory

end Errmark
