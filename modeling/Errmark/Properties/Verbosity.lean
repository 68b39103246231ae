import Errmark.Foundation.Projections
import Errmark.Program.Halting

/-
  What `--verbose` and `--debug` change.

  Muting a state removes the two options and the calls that
  are only made for them. The code of errmark ignores what
  muting removes: the requests, the marks, the bytes of the
  program, the errors and the way errmark ends are the same
  with the options as without them.

  Key definitions include:
    * `Call.isChatter`
    * `State.muted`
    * `Setup.talking`

  Key theorems include:
    * `ignores_guardPtrace`
    * `ignores_iteration`
    * `verbosity_is_chatter`
-/

------------------------------------------------------------
-- Muted States
------------------------------------------------------------

namespace Errmark

open Foundation

variable {arch : Arch}

/-
  Texts, pauses, and the report about how the program ended.
  The text about a failed allocation counts as well, but not
  the error that is shown with it.
-/
def Call.isChatter : Call → Bool
| .fprintf _ _ => true
| .fwrite _ _ => false
| .fflush _ => false
| .write _ => false
| .diagnose _ (.waitStatus _ _) => true
| .diagnose _ (.errno _ _) => false
| .diagnose _ (.explain _) => false
| .diagnose _ (.perror _) => false
| .sleep _ => true

/- The calls that are not chatter. -/
def deedsOf (calls : List Call) : List Call :=
  calls.filter fun call => !call.isChatter

/- What is done, constructor by constructor. -/
@[simp] theorem deedsOf_nil : deedsOf [] = [] := rfl

@[simp] theorem deedsOf_fprintf
    (file : File)
    (text : String)
    (calls : List Call) :
    deedsOf (.fprintf file text :: calls) =
      deedsOf calls := rfl

@[simp] theorem deedsOf_sleep
    (seconds : Nat)
    (calls : List Call) :
    deedsOf (.sleep seconds :: calls) = deedsOf calls := rfl

@[simp] theorem deedsOf_waitStatus
    (file : File)
    (name : Option String)
    (status : CInt)
    (calls : List Call) :
    deedsOf
        (.diagnose file (.waitStatus name status) :: calls) =
      deedsOf calls := rfl

@[simp] theorem deedsOf_append
    (xs ys : List Call) :
    deedsOf (xs ++ ys) = deedsOf xs ++ deedsOf ys :=
  List.filter_append xs ys

@[simp] theorem deedsOf_deedsOf (calls : List Call) :
    deedsOf (deedsOf calls) = deedsOf calls := by
  simp [deedsOf]

@[simp] theorem deedsOf_ite_nil
    (p : Prop)
    [Decidable p]
    (xs : List Call) :
    deedsOf (if p then xs else []) =
      if p then deedsOf xs else [] := by
  split <;> rfl

@[simp] theorem deedsOf_traceText
    (cmd : Cmd)
    (text : String) :
    deedsOf (traceText cmd text) = [] := by
  unfold traceText
  split <;> rfl

namespace State

/- The state without the options, and without chatter. -/
def muted (s : State arch) : State arch :=
  { s with
    debug := false
    cmd :=
      { s.cmd with
        verbose := false
        debug := false
        slow := false
        traceFbt := false }
    calls := deedsOf s.calls }

end State

/- Code that ignores what muting removes. -/
theorem blind_record
    {calls : State arch → List Call}
    (hCalls :
      ∀ s, deedsOf (calls s) = deedsOf (calls s.muted)) :
    Blind State.muted (fun s => s.record (calls s)) := by
  apply blind_of_absorbed
  intro s
  simp only [State.muted, State.record, deedsOf_append,
    deedsOf_deedsOf]
  rw [hCalls s]
  rfl

end Errmark

------------------------------------------------------------
-- Requests
------------------------------------------------------------

namespace Errmark

open Foundation

variable {arch : Arch}

/- The functions of errmark, one by one. -/
theorem blind_answered
    (request : Request arch)
    (reply : Reply) :
    Blind State.muted
      (fun s => answered s request reply) := by
  apply blind_of_absorbed
  intro s
  simp [State.muted, answered, guardCalls]

theorem blind_aborted
    (request : Request arch)
    (errno : Errno) :
    Blind State.muted
      (fun s => aborted s request errno) := by
  apply blind_of_absorbed
  intro s
  simp [State.muted, aborted, answered, guardCalls,
    State.closingCalls, State.openedFd, State.record]
  rfl

/- A request goes on or aborts whatever is talked about. -/
theorem ignores_guardPtrace
    (request : Request arch)
    (reply : Reply) :
    Ignores State.muted
      (fun s => guardPtrace s request reply) :=
  ignores_guardPtrace_of request reply
    (blind_answered request reply) (blind_aborted request)

/- The registers are no part of what muting removes. -/
theorem ignores_setRegs (reply : Reply) :
    Ignores State.muted
      (fun s : State arch =>
        guardPtrace s (.setRegs s.regs) reply) := by
  intro s s' hSame
  have hRegs : s.muted.regs = s'.muted.regs := by
    rw [hSame]
  change s.regs = s'.regs at hRegs
  dsimp only
  rw [hRegs]
  exact ignores_guardPtrace _ reply s s' hSame

end Errmark

------------------------------------------------------------
-- Stops Of A Write
------------------------------------------------------------

namespace Errmark

open Foundation

variable {arch : Arch}

theorem blind_openMarks :
    Blind State.muted
      (openMarks : State arch → State arch) := by
  apply blind_of_absorbed
  intro s
  simp [State.muted, openMarks_eq]

theorem blind_beforeWrite :
    Blind State.muted
      (fun s : State arch =>
        beforeWrite s s.wfd s.waddr s.wlen) := by
  apply blind_of_absorbed
  intro s
  simp [State.muted, beforeWrite_eq, switchCalls,
    switchedFd]

theorem blind_nullifyWrite :
    Blind State.muted
      (nullifyWrite : State arch → State arch) := by
  apply blind_of_absorbed
  intro s
  simp [State.muted, nullifyWrite_eq]

theorem blind_fakeReturn :
    Blind State.muted
      (fakeReturn : State arch → State arch) := by
  apply blind_of_absorbed
  intro s
  simp [State.muted, fakeReturn_eq]

theorem blind_takeArguments :
    Blind State.muted
      (takeArguments : State arch → State arch) := by
  apply blind_of_absorbed
  intro s
  simp [State.muted, takeArguments]

theorem blind_noteSysWrite :
    Blind State.muted
      (noteSysWrite : State arch → State arch) := by
  apply blind_of_absorbed
  intro s
  simp [State.muted, noteSysWrite]

theorem blind_noteDone :
    Blind State.muted
      (noteDone : State arch → State arch) := by
  apply blind_of_absorbed
  intro s
  simp [State.muted, noteDone]

theorem blind_streamWrite (t : Turn arch) :
    Blind State.muted (fun s => streamWrite s t) := by
  apply blind_of_absorbed
  intro s
  simp [State.muted, streamWrite, State.record,
    State.request]

theorem blind_copyWrite
    (t : Turn arch)
    (block : Nat → UInt8) :
    Blind State.muted (fun s => copyWrite s t block) := by
  apply blind_of_absorbed
  intro s
  simp [State.muted, copyWrite, State.record,
    State.request]

/- The error about an allocation is shown in any case. -/
theorem ignores_emitWrite (t : Turn arch) :
    Ignores State.muted (fun s => emitWrite s t) := by
  apply Ignores.ite
  · intro s s' hSame
    have hFd : s.muted.wfd = s'.muted.wfd := by
      rw [hSame]
    have hCopy :
        s.muted.cmd.copyFh = s'.muted.cmd.copyFh := by
      rw [hSame]
    change s.wfd = s'.wfd at hFd
    change s.cmd.copyFh = s'.cmd.copyFh at hCopy
    rw [hFd, hCopy]
  · cases hBlock : t.malloc with
    | none =>
        apply Blind.halt
        apply blind_record
        intro s
        rfl
    | some block => exact (blind_copyWrite t block).next
  · exact (blind_streamWrite t).next

end Errmark

------------------------------------------------------------
-- The Loop
------------------------------------------------------------

namespace Errmark

open Foundation

variable {arch : Arch}

theorem ignores_interceptWrite (t : Turn arch) :
    Ignores State.muted (fun s => interceptWrite s t) := by
  have hTrace :
      Blind State.muted
        (fun s : State arch =>
          s.record (traceText s.cmd "> write\n")) := by
    apply blind_record
    intro s
    simp
  have hGuarded :
      Ignores State.muted
        (fun s : State arch =>
          (guardPtrace s (.setRegs s.regs) t.setRegs).andThen
            fun s =>
              emitWrite
                (s.record (traceText s.cmd "> write\n")) t) :=
    (ignores_setRegs t.setRegs).andThen
      ((ignores_emitWrite t).comp hTrace)
  exact
    ((hGuarded.comp blind_nullifyWrite).comp
      blind_beforeWrite).comp blind_openMarks

theorem ignores_writeEntry (t : Turn arch) :
    Ignores State.muted (fun s => writeEntry s t) := by
  have hEntered :
      Ignores State.muted
        (fun s : State arch =>
          if s.wfd = 1 ∨ s.wfd = 2 then interceptWrite s t
          else .next s) := by
    apply Ignores.ite
    · intro s s' hSame
      have hFd : s.muted.wfd = s'.muted.wfd := by
        rw [hSame]
      change s.wfd = s'.wfd at hFd
      rw [hFd]
    · exact ignores_interceptWrite t
    · exact Blind.id.next
  exact hEntered.comp blind_takeArguments

theorem ignores_writeExit (t : Turn arch) :
    Ignores State.muted (fun s => writeExit s t) := by
  have hLeft :
      Blind State.muted
        (fun s : State arch =>
          { s.record (traceText s.cmd "< write\n") with
            toggle := 0 }) := by
    apply blind_of_absorbed
    intro s
    simp [State.muted, State.record]
  have hGuarded :
      Ignores State.muted
        (fun s : State arch =>
          (guardPtrace s (.setRegs s.regs) t.setRegs).andThen
            fun s =>
              .next
                { s.record (traceText s.cmd "< write\n") with
                  toggle := 0 }) :=
    (ignores_setRegs t.setRegs).andThen hLeft.next
  exact hGuarded.comp blind_fakeReturn

theorem ignores_onSysWrite (t : Turn arch) :
    Ignores State.muted (fun s => onSysWrite s t) := by
  have hBranch :
      Ignores State.muted
        (fun s : State arch =>
          if s.toggle = 0 then writeEntry s t
          else writeExit s t) := by
    apply Ignores.ite
    · intro s s' hSame
      have hToggle : s.muted.toggle = s'.muted.toggle := by
        rw [hSame]
      change s.toggle = s'.toggle at hToggle
      rw [hToggle]
    · exact ignores_writeEntry t
    · exact ignores_writeExit t
  exact
    (hBranch.andThen blind_noteDone.next).comp
      blind_noteSysWrite

theorem blind_childEnded (status : CInt) :
    Blind State.muted
      (fun s : State arch => childEnded s status) := by
  apply blind_of_absorbed
  intro s
  simp [State.muted, childEnded_eq, State.closingCalls,
    State.openedFd, State.statusText, State.record]

theorem blind_waitForChild (t : Turn arch) :
    Blind State.muted
      (fun s : State arch => waitForChild s t) := by
  apply blind_of_absorbed
  intro s
  simp [State.muted, waitForChild]

/- An iteration does what it does without the options. -/
theorem ignores_iteration (t : Turn arch) :
    Ignores State.muted (fun s => iteration s t) := by
  apply ignores_iteration_of _ _ blind_waitForChild
    blind_childEnded ignores_guardPtrace ignores_onSysWrite
  · intro s s' hSame
    have hRegs : s.muted.regs = s'.muted.regs := by
      rw [hSame]
    exact hRegs
  · intro s s' hSame
    have hExited :
        s.muted.cmd.childExited =
          s'.muted.cmd.childExited := by
      rw [hSame]
    exact hExited

@[simp] theorem deedsOf_waitStatusText (s : State arch) :
    deedsOf s.waitStatusText = [] := by
  unfold State.waitStatusText
  split
  · split <;> rfl
  · rfl

theorem blind_afterLoop :
    Blind State.muted
      (afterLoop : State arch → State arch) := by
  apply blind_of_absorbed
  intro s
  simp only [afterLoop_eq]
  simp [State.muted, State.closingCalls, State.openedFd,
    State.record]
  rfl

theorem blind_afterTracing :
    Blind State.muted
      (afterTracing : State arch → State arch) := by
  apply blind_of_absorbed
  intro s
  simp only [afterTracing_eq]
  simp [State.muted, State.closingCalls, State.openedFd,
    State.record]
  rfl

end Errmark

------------------------------------------------------------
-- Two Commands
------------------------------------------------------------

namespace Errmark

open Foundation

variable {arch : Arch}

namespace Setup

/- The same command with other options to talk. -/
def talking
    (setup : Setup arch)
    (verbose debug : Bool) : Setup arch :=
  { setup with
    options :=
      { setup.options with
        verbose := verbose
        debug := debug } }

/- At first the options make no difference. -/
theorem muted_begin_talking
    (setup : Setup arch)
    (verbose debug : Bool) :
    (setup.talking verbose debug).begin.muted =
      setup.begin.muted := by
  simp [talking, begin, startTracing, state, State.muted,
    State.record, Options.cmd]

end Setup

/-
  Whatever the turns are, the command with any choice of
  `--verbose` and `--debug` ends in the same way, and in the
  same state but for the options and the chatter.
-/
theorem verbosity_is_chatter
    (setup : Setup arch)
    (verbose debug : Bool)
    (turns : List (Turn arch)) :
    ((setup.talking verbose debug).errmark turns).map
        State.muted =
      (setup.errmark turns).map State.muted := by
  have hLoop :
      Ignores State.muted
        (fun s : State arch => run iteration s turns) :=
    Ignores.run ignores_iteration turns
  have hAll :=
    (hLoop.onLeave blind_afterLoop).onLeave
      blind_afterTracing
  rw [Setup.errmark_eq, Setup.errmark_eq]
  exact
    hAll _ _ (setup.muted_begin_talking verbose debug)

end Errmark
