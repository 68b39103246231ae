import Errmark.Machine.WaitStatus
import Errmark.Program.Pmem
import Errmark.Foundation.Runs

/-
  The state of errmark while it traces a program.

  One record holds `cmd_t`, the statics of `mark-write.c`,
  the locals of `ptrace_cmd`, the registers the kernel keeps
  for the child, and what errmark has done so far: its
  output calls and its `ptrace` requests, each in order.

  Key definitions include:
    * `Mark`
    * `OutByte`
    * `Call`
    * `Request`
    * `Cmd`
    * `Marks`
    * `State`
    * `State.record`
    * `State.request`
-/

------------------------------------------------------------
-- Calls
------------------------------------------------------------

namespace Errmark

/- The `FILE *` values errmark writes to. -/
inductive File where
  | stdout
  | stderr
  | copyFh
  | traceFbt
  deriving DecidableEq, Repr

/- Which end of a group of writes a mark stands at. -/
inductive Edge where
  | start
  | finish
  deriving DecidableEq, Repr

/- A mark string written for a descriptor. -/
structure Mark where
  fd : Int
  edge : Edge
  text : List UInt8
  deriving DecidableEq, Repr

/-
  A byte handed to a stream for one of the program's writes,
  with the descriptor of that write.
-/
structure OutByte where
  fd : Int
  cell : Cell
  deriving DecidableEq, Repr

namespace OutByte

/- The byte itself. -/
def value (b : OutByte) : UInt8 :=
  b.cell.value

/- The byte was read from the traced program. -/
def isRead (b : OutByte) : Bool :=
  b.cell.isStored

end OutByte

/- Messages put together by other library functions. -/
inductive Diagnostic where
  | waitStatus (name : Option String) (status : CInt)
  | errno (msg : String) (errno : Errno)
  | explain (errno : Errno)
  | perror (msg : String)
  deriving DecidableEq, Repr

/- Calls of errmark that write, flush or sleep. -/
inductive Call where
  | fprintf (file : File) (text : String)
  | fwrite (file : File) (bytes : List OutByte)
  | fflush (file : File)
  | write (mark : Mark)
  | diagnose (file : File) (what : Diagnostic)
  | sleep (seconds : Nat)
  deriving DecidableEq, Repr

/- `enum __ptrace_request` with the data passed along. -/
inductive Request (arch : Arch) where
  | traceMe
  | peekData (addr : arch.Word)
  | getRegs
  | setRegs (regs : Regs arch)
  | syscall (data : arch.Word)

namespace Request

variable {arch : Arch}

/- The number of a request in <sys/ptrace.h>. -/
def number : Request arch → Nat
| .traceMe => 0
| .peekData _ => 2
| .getRegs => 12
| .setRegs _ => 13
| .syscall _ => 24

end Request

/- How errmark ends other than by returning to `main`. -/
inductive Halt where
  | exit (code : Nat)
  | abort
  | exec (path : Option String) (argv : List String)
  deriving DecidableEq, Repr

end Errmark

------------------------------------------------------------
-- The State
------------------------------------------------------------

namespace Errmark

/- `cmd_t`. A stream is kept as whether it is not NULL. -/
structure Cmd where
  cmdPath : Option String
  cmdName : Option String
  argv : List String
  verbose : Bool
  debug : Bool
  slow : Bool
  traceFbt : Bool
  nullify : Bool
  copyFh : Bool
  markState : Int
  child : Int
  childStatus : CInt
  rc : CInt
  childExited : Bool
  deriving Repr

/- `start1`, `end1`, `start2` and `end2`. -/
structure Marks where
  start1 : Option (List UInt8)
  end1 : Option (List UInt8)
  start2 : Option (List UInt8)
  end2 : Option (List UInt8)
  deriving DecidableEq, Repr

/- What errmark keeps, and what it has done so far. -/
structure State (arch : Arch) where
  cmd : Cmd
  debug : Bool
  errprintFh : File
  marks : Marks
  curFd : Int
  regs : Regs arch
  exitStatus : CInt
  toggle : Int
  wfd : Int
  waddr : arch.Word
  wlen : arch.Word
  childRegs : Regs arch
  calls : List Call
  requests : List (Request arch × Reply)

namespace State

variable {arch : Arch}

/- Make some output calls. -/
def record
    (s : State arch)
    (calls : List Call) : State arch :=
  { s with calls := s.calls ++ calls }

/- Make some `ptrace` requests that change no register. -/
def request
    (s : State arch)
    (requests : List (Request arch × Reply)) :
    State arch :=
  { s with requests := s.requests ++ requests }

end State

end Errmark

------------------------------------------------------------
-- Frame Lemmas
------------------------------------------------------------

namespace Errmark

namespace State

variable {arch : Arch}
variable
  (s : State arch)
  (calls more : List Call)
  (requests : List (Request arch × Reply))

/- Recording adds calls, and leaves all else alone. -/
@[simp] theorem record_nil : s.record [] = s := by
  simp [record]

@[simp] theorem record_record :
    (s.record calls).record more =
      s.record (calls ++ more) := by
  simp [record]

@[simp] theorem record_calls :
    (s.record calls).calls = s.calls ++ calls := rfl

@[simp] theorem record_requests :
    (s.record calls).requests = s.requests := rfl

@[simp] theorem record_cmd :
    (s.record calls).cmd = s.cmd := rfl

@[simp] theorem record_debug :
    (s.record calls).debug = s.debug := rfl

@[simp] theorem record_errprintFh :
    (s.record calls).errprintFh = s.errprintFh := rfl

@[simp] theorem record_marks :
    (s.record calls).marks = s.marks := rfl

@[simp] theorem record_curFd :
    (s.record calls).curFd = s.curFd := rfl

@[simp] theorem record_regs :
    (s.record calls).regs = s.regs := rfl

@[simp] theorem record_exitStatus :
    (s.record calls).exitStatus = s.exitStatus := rfl

@[simp] theorem record_toggle :
    (s.record calls).toggle = s.toggle := rfl

@[simp] theorem record_wfd :
    (s.record calls).wfd = s.wfd := rfl

@[simp] theorem record_waddr :
    (s.record calls).waddr = s.waddr := rfl

@[simp] theorem record_wlen :
    (s.record calls).wlen = s.wlen := rfl

@[simp] theorem record_childRegs :
    (s.record calls).childRegs = s.childRegs := rfl

/- Requests are added likewise. -/
@[simp] theorem request_requests :
    (s.request requests).requests =
      s.requests ++ requests := rfl

@[simp] theorem request_calls :
    (s.request requests).calls = s.calls := rfl

@[simp] theorem request_cmd :
    (s.request requests).cmd = s.cmd := rfl

@[simp] theorem request_debug :
    (s.request requests).debug = s.debug := rfl

@[simp] theorem request_errprintFh :
    (s.request requests).errprintFh =
      s.errprintFh := rfl

@[simp] theorem request_marks :
    (s.request requests).marks = s.marks := rfl

@[simp] theorem request_curFd :
    (s.request requests).curFd = s.curFd := rfl

@[simp] theorem request_regs :
    (s.request requests).regs = s.regs := rfl

@[simp] theorem request_exitStatus :
    (s.request requests).exitStatus =
      s.exitStatus := rfl

@[simp] theorem request_toggle :
    (s.request requests).toggle = s.toggle := rfl

@[simp] theorem request_wfd :
    (s.request requests).wfd = s.wfd := rfl

@[simp] theorem request_waddr :
    (s.request requests).waddr = s.waddr := rfl

@[simp] theorem request_wlen :
    (s.request requests).wlen = s.wlen := rfl

@[simp] theorem request_childRegs :
    (s.request requests).childRegs = s.childRegs := rfl

end State

end Errmark
