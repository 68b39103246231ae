import Errmark.Program.RunProgram

/-
  The part of `errmark.c` around `errmark_run_program`: the
  command record `main` fills in, the stream for its own
  messages (`set-print-fh.c`), and the exit code it makes of
  the status it gets back.

  `Setup` collects what differs between two executions
  before any stop of the traced program: the options, the
  files behind fd 1 and fd 2, the marks, the pid, and the
  values that `ptrace_cmd` leaves uninitialised.

  Key definitions include:
    * `Options`
    * `setEprintFh`
    * `Setup`
    * `Setup.begin`
    * `Setup.errmark`
    * `mainExitCode`
-/

------------------------------------------------------------
-- What main Sets Up
------------------------------------------------------------

namespace Errmark

open Foundation

variable {arch : Arch}

/- The command line after `main` has processed it. -/
structure Options where
  verbose : Bool
  debug : Bool
  copyFh : Bool
  cmdPath : Option String
  cmdName : Option String
  argv : List String
  deriving Repr

namespace Options

/- The assignments of `main` to the static, zeroed `cmd`. -/
def cmd (o : Options) : Cmd where
  cmdPath := o.cmdPath
  cmdName := o.cmdName
  argv := o.argv
  verbose := o.verbose || o.debug
  debug := o.debug
  slow := true
  traceFbt := false
  nullify := true
  copyFh := o.copyFh
  markState := 0
  child := 0
  childStatus := 0
  rc := 0
  childExited := false

end Options

/- `struct fid`: what `fstat` says about an open file. -/
structure Fid where
  dev : Nat
  ino : Nat
  deriving DecidableEq, Repr

/- `stderr_redirected`, where a `fstat` may have failed. -/
def stderrRedirected
    (stdoutId stderrId : Option Fid) : Int :=
  match stdoutId, stderrId with
  | some stdoutId, some stderrId =>
      if stderrId ≠ stdoutId then 1 else 0
  | _, _ => -1

/- `set_eprint_fh`, while `errprint_fh` is still NULL. -/
def setEprintFh
    (stdoutId stderrId : Option Fid) : File :=
  if stderrRedirected stdoutId stderrId = 0 then .stdout
  else .stderr

/- Everything that is fixed before the first stop. -/
structure Setup (arch : Arch) where
  options : Options
  stdoutId : Option Fid
  stderrId : Option Fid
  marks : Marks
  pid : Int
  pid_ne_zero : pid ≠ 0
  regs : Regs arch
  wfd : Int
  waddr : arch.Word
  wlen : arch.Word

namespace Setup

/- The state in which `main` calls `errmark_run_program`. -/
def state (setup : Setup arch) : State arch where
  cmd := setup.options.cmd
  debug := setup.options.debug
  errprintFh :=
    setEprintFh setup.stdoutId setup.stderrId
  marks := setup.marks
  curFd := -1
  regs := setup.regs
  exitStatus := 0
  toggle := 0
  wfd := setup.wfd
  waddr := setup.waddr
  wlen := setup.wlen
  childRegs := setup.regs
  calls := []
  requests := []

/- The state in which `ptrace_cmd` enters its loop. -/
def begin (setup : Setup arch) : State arch :=
  { startTracing setup.state setup.pid with
    exitStatus := 0
    toggle := 0 }

/- errmark from the call of `errmark_run_program` on. -/
def errmark
    (setup : Setup arch)
    (turns : List (Turn arch)) :
    Outcome (State arch) Halt :=
  errmarkRunProgram setup.state
    (.parent setup.pid setup.pid_ne_zero) turns

/- errmark is its loop, and what it does on leaving it. -/
theorem errmark_eq
    (setup : Setup arch)
    (turns : List (Turn arch)) :
    setup.errmark turns =
      ((run iteration setup.begin turns).onLeave
        afterLoop).onLeave afterTracing := rfl

/- The same command with or without `--copy`. -/
def withCopy
    (setup : Setup arch)
    (copyFh : Bool) : Setup arch :=
  { setup with
    options := { setup.options with copyFh := copyFh } }

end Setup

/-
  `exit(cmd->child_status >> 8)`, where `child_status` is
  what `errmark_run_program` returned.
-/
def mainExitCode (s : State arch) : Nat :=
  exitCode s.cmd.rc

end Errmark
