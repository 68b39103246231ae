import Errmark.Program.GuardPtrace

/-
  `run-program.c`: the loop that traces the child.

  A `Turn` is what the outside answers in one iteration: the
  status that `wait` stores, the child's registers and
  memory at that stop, the answer of `malloc`, and the
  answers to the `ptrace` requests. `iteration` is the body
  of the loop; `ptraceCmd` and `errmarkRunProgram` run it on
  a list of turns.

  Key definitions include:
    * `Turn`
    * `endsTracing`
    * `interceptWrite`
    * `writeEntry`
    * `writeExit`
    * `iteration`
    * `ptraceCmd`
    * `errmarkRunProgram`
-/

------------------------------------------------------------
-- Turns
------------------------------------------------------------

namespace Errmark

open Foundation

variable {arch : Arch}

/- What the outside answers in one iteration. -/
structure Turn (arch : Arch) where
  status : CInt
  regs : Regs arch
  memory : Memory arch
  malloc : Option (Nat → UInt8)
  getRegs : Reply
  setRegs : Reply
  resume : Reply

/-
  The test after `wait`: every report ends the tracing but
  a zero status and the stops of the two expected signals.
-/
def endsTracing (status : CInt) : Bool :=
  status ≠ 0 ∧
    ¬(wIfStopped status ∧
      (wStopSig status = Signal.trap.number ∨
        wStopSig status = Signal.chld.number))

/- `%x`, and `%p` with glibc's text for NULL. -/
def hexText (n : Nat) : String :=
  String.ofList (Nat.toDigits 16 n)

/- `%p` -/
def pointerText (n : Nat) : String :=
  if n = 0 then "(nil)" else "0x" ++ hexText n

/- `%02x` -/
def hexByteText (n : Nat) : String :=
  if n < 16 then "0" ++ hexText n else hexText n

end Errmark

------------------------------------------------------------
-- Emitting The Bytes Of A Write
------------------------------------------------------------

namespace Errmark

open Foundation

variable {arch : Arch}

/- The calls of `pmem_fwrite` as calls of errmark. -/
def PmemCall.lift
    (file : File)
    (fd : Int) : PmemCall arch → List Call
| .peekData _ => []
| .fwrite bytes =>
    [.fwrite file (bytes.map fun b => ⟨fd, .stored b⟩)]
| .fflush => [.fflush file]

/- Requests for words, with the answers they get. -/
def peekRequests
    (tracee : Memory arch)
    (addrs : List arch.Word) :
    List (Request arch × Reply) :=
  addrs.map fun addr =>
    (.peekData addr, tracee.peekReply addr)

/- `pmem_fwrite(stdout, cmd->child, waddr, wlen)` -/
def streamWrite
    (s : State arch)
    (t : Turn arch) : State arch :=
  let w := pmemFwrite t.memory s.waddr s.wlen.toNat
  (s.request (peekRequests t.memory w.requests)).record
    (w.calls.flatMap (PmemCall.lift .stdout s.wfd))

/- A block from `malloc` with whatever it holds. -/
def freshBuffer
    (block : Nat → UInt8)
    (len : Nat) : List Cell :=
  (List.range len).map fun i => .unset (block i)

/- `pmem_copy` to the new buffer, then two `fwrite` calls. -/
def copyWrite
    (s : State arch)
    (t : Turn arch)
    (block : Nat → UInt8) : State arch :=
  let c :=
    pmemCopy (freshBuffer block s.wlen.toNat) t.memory
      s.waddr s.wlen.toNat
  let ebuf : List OutByte :=
    c.buf.map fun cell => ⟨s.wfd, cell⟩
  (s.request (peekRequests t.memory c.requests)).record
    [.fwrite .stdout ebuf, .fwrite .copyFh ebuf]

/- `guard_malloc` complains and exits when there is none. -/
def guardMalloc
    (s : State arch)
    (size : Nat)
    (reply : Option (Nat → UInt8))
    (use : (Nat → UInt8) → State arch) :
    Outcome (State arch) Halt :=
  match reply with
  | some block => .next (use block)
  | none =>
      .halt (.exit 8)
        (s.record
          [.fprintf s.errprintFh
            ("malloc(" ++
              (if size = 0 then "0"
                else "0x" ++ hexText size) ++
              ") failed\n"),
            .diagnose s.errprintFh
              (.explain Errno.ENOMEM)])

end Errmark

------------------------------------------------------------
-- The Two Stops Of A Write
------------------------------------------------------------

namespace Errmark

open Foundation

variable {arch : Arch}

/- `mark_open`, at the first write that is intercepted. -/
def openMarks (s : State arch) : State arch :=
  if s.cmd.markState = 0 then
    let s := markOpen s
    { s with cmd := { s.cmd with markState := 1 } }
  else
    s

/- The kernel shall write nothing. -/
def nullifyWrite (s : State arch) : State arch :=
  if s.cmd.nullify then
    { s with regs := s.regs.set arch.regArg3 0 }
  else
    s

/- The bytes of the write go to a copy and to stdout. -/
def emitWrite
    (s : State arch)
    (t : Turn arch) : Outcome (State arch) Halt :=
  if s.wfd = 2 ∧ s.cmd.copyFh then
    guardMalloc s s.wlen.toNat t.malloc (copyWrite s t)
  else
    .next (streamWrite s t)

/-
  The entry of a write to fd 1 or 2, just before the kernel
  performs it.
-/
def interceptWrite
    (s : State arch)
    (t : Turn arch) : Outcome (State arch) Halt :=
  let s := openMarks s
  let s := beforeWrite s s.wfd s.waddr s.wlen
  let s := nullifyWrite s
  (guardPtrace s (.setRegs s.regs) t.setRegs).andThen
    fun s =>
      emitWrite (s.record (traceText s.cmd "> write\n")) t

/- The arguments of the write, which outlive the entry. -/
def takeArguments (s : State arch) : State arch :=
  let s :=
    { s with
      toggle := 1
      wfd := ((s.regs arch.regArg1).setWidth 32).toInt
      waddr := s.regs arch.regArg2
      wlen := s.regs arch.regArg3 }
  s.record
    (if s.debug then
      [.fprintf .stderr
          ("wfd  =" ++ toString s.wfd ++ "\n"),
        .fprintf .stderr
          ("waddr=" ++ pointerText s.waddr.toNat ++ "\n"),
        .fprintf .stderr
          ("wlen =" ++ toString s.wlen.toNat ++ "\n")]
    else [])

/- `toggle == 0`: the entry stop of a write. -/
def writeEntry
    (s : State arch)
    (t : Turn arch) : Outcome (State arch) Halt :=
  let s := takeArguments s
  if s.wfd = 1 ∨ s.wfd = 2 then
    interceptWrite s t
  else
    .next s

/-
  Since the write was nullified, its return value is the
  number of bytes the program wanted to write.
-/
def fakeReturn (s : State arch) : State arch :=
  if s.wfd = 1 ∨ s.wfd = 2 then
    let s := afterWrite s s.wfd s.waddr s.wlen
    if s.cmd.nullify then
      { s with regs := s.regs.set arch.regRetn s.wlen }
    else
      s
  else
    s

/- `toggle != 0`: the exit stop of a write. -/
def writeExit
    (s : State arch)
    (t : Turn arch) : Outcome (State arch) Halt :=
  let s := fakeReturn s
  (guardPtrace s (.setRegs s.regs) t.setRegs).andThen
    fun s =>
      let s := s.record (traceText s.cmd "< write\n")
      .next { s with toggle := 0 }

/- Debug output before and after a stop of a write. -/
def noteSysWrite (s : State arch) : State arch :=
  s.record
    (if s.debug then
      [.fprintf .stderr
        ("SYS_write; toggle=" ++ toString s.toggle ++
          "\n")]
    else [])

/- The dot after a write, if debug. -/
def noteDone (s : State arch) : State arch :=
  s.record
    (if s.cmd.debug then
      .fprintf .stderr ".\n" ::
        if s.cmd.slow then [.sleep 1] else []
    else [])

/- A stop that shows `SYS_write`. -/
def onSysWrite
    (s : State arch)
    (t : Turn arch) : Outcome (State arch) Halt :=
  let s := noteSysWrite s
  (if s.toggle = 0 then writeEntry s t
    else writeExit s t).andThen fun s =>
      .next (noteDone s)

end Errmark

------------------------------------------------------------
-- The Loop
------------------------------------------------------------

namespace Errmark

open Foundation

variable {arch : Arch}

/- `wait` found the child stopped with these registers. -/
def waitForChild
    (s : State arch)
    (t : Turn arch) : State arch :=
  { s with childRegs := t.regs }

/- The branch of the loop that takes the exit status. -/
def childEnded
    (s : State arch)
    (status : CInt) : State arch :=
  let s := { s with exitStatus := status }
  let s :=
    if s.cmd.markState ≠ 0 then markClose s else s
  s.record
    (if s.cmd.verbose then
      [.fprintf s.errprintFh
        ("status=0x" ++ hexByteText status.toNat ++ "\n")]
    else [])

/- The body of the loop once it has the registers. -/
def actOnStop
    (s : State arch)
    (t : Turn arch) : Outcome (State arch) Halt :=
  (if s.regs arch.regSyscall = arch.sysWrite then
    onSysWrite s t
  else
    .next s).andThen fun s =>
      guardPtrace s (.syscall 0) t.resume

/- The body of `while (1)`. -/
def iteration
    (s : State arch)
    (t : Turn arch) : Outcome (State arch) Halt :=
  let s := waitForChild s t
  if endsTracing t.status then
    .leave (childEnded s t.status)
  else
    (guardPtrace s .getRegs t.getRegs).andThen fun s =>
      if t.getRegs.rc = -1 ∧ s.cmd.childExited then
        .leave s
      else
        actOnStop s t

/- The end of `ptrace_cmd`, after the loop. -/
def afterLoop (s : State arch) : State arch :=
  let s :=
    if s.cmd.markState ≠ 0 then markClose s else s
  if s.exitStatus ≠ 0 then
    s.record
      (if s.cmd.verbose then
        [.diagnose .stderr
          (.waitStatus s.cmd.cmdName s.exitStatus)]
      else [])
  else
    s

/- `ptrace_cmd` -/
def ptraceCmd
    (s : State arch)
    (turns : List (Turn arch)) :
    Outcome (State arch) Halt :=
  let s := { s with exitStatus := 0, toggle := 0 }
  (run iteration s turns).onLeave afterLoop

end Errmark

------------------------------------------------------------
-- errmark_run_program
------------------------------------------------------------

namespace Errmark

open Foundation

variable {arch : Arch}

/-
  `fork` returns twice: in the child, which asks to be
  traced and executes the program, and in the parent, with
  the child's pid or -1.
-/
inductive Fork where
  | child (traceMe : Reply) (execvp : Reply)
  | parent (pid : Int) (ne_zero : pid ≠ 0)

/- The child's branch of `errmark_run_program`. -/
def runChild
    (s : State arch)
    (traceMe execvp : Reply) :
    Outcome (State arch) Halt :=
  (guardPtrace s .traceMe traceMe).andThen fun s =>
    match execvp with
    | .ok => .halt (.exec s.cmd.cmdPath s.cmd.argv) s
    | .failed _ =>
        .halt (.exit 2)
          (State.record
            { s with cmd := { s.cmd with rc := -1 } }
            [.diagnose .stderr (.perror "execvp()")])

/- The state in which the parent begins to trace. -/
def startTracing
    (s : State arch)
    (pid : Int) : State arch :=
  let s :=
    { s with
      cmd :=
        { s.cmd with
          markState := 0
          childExited := false
          child := pid } }
  s.record
    (if s.cmd.verbose then
      [.fprintf s.errprintFh
        ("child pid=" ++ toString pid ++ "\n")]
    else [])

/- What the parent does with the status it got. -/
def afterTracing (s : State arch) : State arch :=
  let s :=
    { s with cmd := { s.cmd with rc := s.exitStatus } }
  if s.cmd.markState ≠ 0 then markClose s else s

/- `errmark_run_program`, on either side of the fork. -/
def errmarkRunProgram
    (s : State arch)
    (fork : Fork)
    (turns : List (Turn arch)) :
    Outcome (State arch) Halt :=
  match fork with
  | .child traceMe execvp =>
      runChild
        { s with
          cmd :=
            { s.cmd with
              markState := 0
              childExited := false
              child := 0 } }
        traceMe execvp
  | .parent pid _ =>
      (ptraceCmd (startTracing s pid) turns).onLeave
        afterTracing

end Errmark
