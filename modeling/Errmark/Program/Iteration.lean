import Errmark.Program.Main
import Errmark.Program.Observers

/-
  What one iteration of the loop can do.

  `Steps s t s'` lists the five ways in which an iteration
  goes on: a stop of another call, the entry of a write to a
  descriptor that is not watched, the entry of a watched
  write without and with a copy, and a stop taken for the
  exit of a write. `steps_of_iteration` is the inversion
  that all invariants of the loop are proved from.

  Key definitions include:
    * `Write`
    * `State.seen`
    * `State.intercepted`
    * `Steps`

  Key theorems include:
    * `iteration_of_seen`
    * `iteration_of_ends`
    * `steps_of_iteration`
-/

------------------------------------------------------------
-- The Registers An Iteration Acts On
------------------------------------------------------------

namespace Errmark

open Foundation

variable {arch : Arch}

/- The arguments of a write system call. -/
structure Write (arch : Arch) where
  fd : Int
  addr : arch.Word
  len : arch.Word

namespace Write

/- errmark only looks at fd 1 and fd 2. -/
def Watched (w : Write arch) : Prop :=
  w.fd = 1 ∨ w.fd = 2

instance (w : Write arch) : Decidable w.Watched := by
  unfold Watched
  infer_instance

/- The write also goes to the copy. -/
def IsCopied
    (w : Write arch)
    (copyFh : Bool) : Prop :=
  w.fd = 2 ∧ copyFh

instance (w : Write arch) (copyFh : Bool) :
    Decidable (w.IsCopied copyFh) := by
  unfold IsCopied
  infer_instance

end Write

namespace Regs

/- The stop shows the number of the write call. -/
def ShowsWrite (regs : Regs arch) : Prop :=
  regs arch.regSyscall = arch.sysWrite

instance (regs : Regs arch) :
    Decidable regs.ShowsWrite := by
  unfold ShowsWrite
  infer_instance

/- The argument registers, read as those of a write. -/
def write (regs : Regs arch) : Write arch where
  fd := ((regs arch.regArg1).setWidth 32).toInt
  addr := regs arch.regArg2
  len := regs arch.regArg3

end Regs

namespace State

/-
  The registers the loop acts on in this iteration, if it
  gets that far: those of the stop, or the ones it has from
  before when no request has ever succeeded.
-/
def seen
    (s : State arch)
    (t : Turn arch) : Option (Regs arch) :=
  if endsTracing t.status then
    none
  else if t.getRegs = .ok then
    some t.regs
  else if t.getRegs.isGone ∧ ¬ s.cmd.childExited then
    some s.regs
  else
    none

/- The write that this iteration intercepts, if any. -/
def intercepted
    (s : State arch)
    (t : Turn arch) : Option (Write arch) :=
  match s.seen t with
  | none => none
  | some regs =>
      if regs.ShowsWrite ∧ s.toggle = 0 ∧
          regs.write.Watched then
        some regs.write
      else
        none

end State

/- The state after the registers were asked for. -/
def fetched
    (s : State arch)
    (t : Turn arch) : State arch :=
  answered (waitForChild s t) .getRegs t.getRegs

/- The state after the child was asked to go on. -/
def resumed
    (s : State arch)
    (t : Turn arch) : State arch :=
  answered s (.syscall 0) t.resume

/- The loop acts on the registers it sees. -/
theorem fetched_regs
    {s : State arch}
    {t : Turn arch}
    {regs : Regs arch}
    (hSeen : s.seen t = some regs) :
    (fetched s t).regs = regs := by
  unfold State.seen at hSeen
  split at hSeen
  · simp at hSeen
  · split at hSeen
    · next hOk =>
        simp only [Option.some.injEq] at hSeen
        rw [fetched, hOk]
        exact hSeen
    · split at hSeen
      · next hGone =>
          simp only [Option.some.injEq] at hSeen
          rw [fetched]
          cases hReply : t.getRegs with
          | ok => simp [hReply, Reply.isGone] at hGone
          | failed errno => exact hSeen
      · simp at hSeen

/- What happens at a stop depends on the call it shows. -/
theorem actOnStop_eq
    {s : State arch}
    {regs : Regs arch}
    (hRegs : s.regs = regs)
    (t : Turn arch) :
    actOnStop s t =
      (if regs.ShowsWrite then onSysWrite s t
      else .next s).andThen fun s =>
        guardPtrace s (.syscall 0) t.resume := by
  rw [← hRegs]
  rfl

/- The toggle decides between entry and exit. -/
theorem onSysWrite_eq
    (s : State arch)
    (t : Turn arch) :
    onSysWrite s t =
      (if s.toggle = 0 then writeEntry (noteSysWrite s) t
      else writeExit (noteSysWrite s) t).andThen fun s =>
        .next (noteDone s) := rfl

/- A report that ends the tracing leaves the loop. -/
theorem iteration_of_ends
    (s : State arch)
    {t : Turn arch}
    (hEnds : endsTracing t.status = true) :
    iteration s t =
      .leave (childEnded (waitForChild s t) t.status) := by
  simp [iteration, hEnds]

/- The test on the answer to the request for registers. -/
theorem iteration_of_benign
    (s : State arch)
    {t : Turn arch}
    (hEnds : endsTracing t.status = false)
    (hBenign : t.getRegs.Benign) :
    iteration s t =
      if t.getRegs.rc = -1 ∧
          (fetched s t).cmd.childExited then
        .leave (fetched s t)
      else
        actOnStop (fetched s t) t := by
  simp only [iteration, hEnds, Bool.false_eq_true,
    if_false, guardPtrace_of_benign _ _ hBenign,
    Outcome.next_andThen]
  rfl

/- An iteration that sees registers acts on them. -/
theorem iteration_of_seen
    {s : State arch}
    {t : Turn arch}
    {regs : Regs arch}
    (hSeen : s.seen t = some regs) :
    iteration s t = actOnStop (fetched s t) t := by
  unfold State.seen at hSeen
  split at hSeen
  · simp at hSeen
  · next hGoesOn =>
      have hEnds : endsTracing t.status = false := by
        simpa using hGoesOn
      split at hSeen
      · next hOk =>
          rw [iteration_of_benign s hEnds (Or.inl hOk)]
          apply if_neg
          simp [hOk, Reply.rc]
      · split at hSeen
        · next hGone =>
            have hReply :
                t.getRegs = .failed Errno.ESRCH := by
              simpa [Reply.isGone] using hGone.1
            rw [iteration_of_benign s hEnds
              (Or.inr hReply)]
            apply if_neg
            simp [fetched, waitForChild, hGone]
        · simp at hSeen

/- Without registers the loop is left, or errmark aborts. -/
theorem iteration_of_not_seen
    {s : State arch}
    {t : Turn arch}
    (hSeen : s.seen t = none) :
    (endsTracing t.status = true ∧
        iteration s t =
          .leave
            (childEnded (waitForChild s t) t.status)) ∨
      (endsTracing t.status = false ∧
          t.getRegs = .failed Errno.ESRCH ∧
          s.cmd.childExited = true ∧
          iteration s t = .leave (fetched s t)) ∨
        ∃ s', ¬ t.getRegs.Benign ∧
          iteration s t = .halt .abort s' := by
  cases hEnds : endsTracing t.status with
  | true =>
      exact Or.inl ⟨rfl, iteration_of_ends s hEnds⟩
  | false =>
      right
      by_cases hBenign : t.getRegs.Benign
      · rcases hBenign with hOk | hReply
        · simp [State.seen, hEnds, hOk] at hSeen
        · left
          have hExited : s.cmd.childExited = true := by
            simpa [State.seen, hEnds, hReply,
              Reply.isGone] using hSeen
          refine ⟨rfl, hReply, hExited, ?_⟩
          rw [iteration_of_benign s hEnds (Or.inr hReply)]
          apply if_pos
          simp [hReply, Reply.rc, fetched, waitForChild,
            hExited]
      · right
        rcases guardPtrace_of_not_benign
            (waitForChild s t) .getRegs hBenign with
          ⟨s', hHalt⟩
        refine ⟨s', hBenign, ?_⟩
        simp [iteration, hEnds, hHalt]

end Errmark

------------------------------------------------------------
-- Iterations That Go On
------------------------------------------------------------

namespace Errmark

open Foundation

variable {arch : Arch}

/- The entry of a write, with its arguments taken. -/
def entered
    (s : State arch)
    (t : Turn arch) : State arch :=
  takeArguments (noteSysWrite (fetched s t))

/- The changes to errmark that come before the SETREGS. -/
def marked (s : State arch) : State arch :=
  let s := openMarks s
  nullifyWrite (beforeWrite s s.wfd s.waddr s.wlen)

/- The entry of a watched write, just before its output. -/
def armed
    (s : State arch)
    (t : Turn arch) : State arch :=
  let s :=
    answered (marked s) (.setRegs (marked s).regs)
      t.setRegs
  s.record (traceText s.cmd "> write\n")

/- The exit of a write. -/
def exited
    (s : State arch)
    (t : Turn arch) : State arch :=
  let s :=
    answered (fakeReturn s) (.setRegs (fakeReturn s).regs)
      t.setRegs
  let s := s.record (traceText s.cmd "< write\n")
  { s with toggle := 0 }

/-
  The ways in which an iteration goes on, each with the
  state it leads to.
-/
inductive Steps
    (s : State arch)
    (t : Turn arch) : State arch → Prop where
  | idle
      (regs : Regs arch)
      (hSeen : s.seen t = some regs)
      (hCall : ¬ regs.ShowsWrite) :
      Steps s t (resumed (fetched s t) t)
  | skipped
      (regs : Regs arch)
      (hSeen : s.seen t = some regs)
      (hCall : regs.ShowsWrite)
      (hToggle : s.toggle = 0)
      (hFd : ¬ regs.write.Watched) :
      Steps s t (resumed (noteDone (entered s t)) t)
  | streamed
      (regs : Regs arch)
      (hSeen : s.seen t = some regs)
      (hCall : regs.ShowsWrite)
      (hToggle : s.toggle = 0)
      (hFd : regs.write.Watched)
      (hCopy : ¬ regs.write.IsCopied s.cmd.copyFh) :
      Steps s t
        (resumed
          (noteDone
            (streamWrite (armed (entered s t) t) t)) t)
  | copied
      (regs : Regs arch)
      (hSeen : s.seen t = some regs)
      (hCall : regs.ShowsWrite)
      (hToggle : s.toggle = 0)
      (hFd : regs.write.Watched)
      (hCopy : regs.write.IsCopied s.cmd.copyFh)
      (block : Nat → UInt8)
      (hBlock : t.malloc = some block) :
      Steps s t
        (resumed
          (noteDone
            (copyWrite (armed (entered s t) t) t block))
          t)
  | left
      (regs : Regs arch)
      (hSeen : s.seen t = some regs)
      (hCall : regs.ShowsWrite)
      (hToggle : s.toggle ≠ 0) :
      Steps s t
        (resumed
          (noteDone
            (exited (noteSysWrite (fetched s t)) t)) t)

end Errmark

------------------------------------------------------------
-- Fields Along An Iteration
------------------------------------------------------------

namespace Errmark

variable {arch : Arch}

/- Opening the marks leaves the locals alone. -/
@[simp] theorem openMarks_wfd (s : State arch) :
    (openMarks s).wfd = s.wfd := by
  unfold openMarks
  split <;> rfl

@[simp] theorem openMarks_waddr (s : State arch) :
    (openMarks s).waddr = s.waddr := by
  unfold openMarks
  split <;> rfl

@[simp] theorem openMarks_wlen (s : State arch) :
    (openMarks s).wlen = s.wlen := by
  unfold openMarks
  split <;> rfl

/- `mark_open` happens once, at the first intercepted write. -/
theorem openMarks_eq (s : State arch) :
    openMarks s =
      { s with
        curFd :=
          if s.cmd.markState = 0 then -1 else s.curFd
        cmd :=
          { s.cmd with
            markState :=
              if s.cmd.markState = 0 then 1
              else s.cmd.markState } } := by
  unfold openMarks markOpen
  split <;> simp_all

/- The length is set to 0, unless that is switched off. -/
theorem nullifyWrite_eq (s : State arch) :
    nullifyWrite s =
      { s with
        regs :=
          if s.cmd.nullify then
            s.regs.set arch.regArg3 0
          else
            s.regs } := by
  unfold nullifyWrite
  split <;> simp_all

/- The result is the length, after a watched write. -/
theorem fakeReturn_eq (s : State arch) :
    fakeReturn s =
      { s with
        regs :=
          if (s.wfd = 1 ∨ s.wfd = 2) ∧ s.cmd.nullify then
            s.regs.set arch.regRetn s.wlen
          else
            s.regs } := by
  unfold fakeReturn
  by_cases hFd : s.wfd = 1 ∨ s.wfd = 2
  · by_cases hNullify : s.cmd.nullify = true
    · simp [hFd, hNullify]
    · simp [hFd, hNullify]
  · simp [hFd]

/- Asking for the registers changes nothing else. -/
@[simp] theorem fetched_toggle
    (s : State arch)
    (t : Turn arch) :
    (fetched s t).toggle = s.toggle := rfl

@[simp] theorem fetched_curFd
    (s : State arch)
    (t : Turn arch) :
    (fetched s t).curFd = s.curFd := rfl

@[simp] theorem fetched_marks
    (s : State arch)
    (t : Turn arch) :
    (fetched s t).marks = s.marks := rfl

@[simp] theorem fetched_debug
    (s : State arch)
    (t : Turn arch) :
    (fetched s t).debug = s.debug := rfl

@[simp] theorem fetched_errprintFh
    (s : State arch)
    (t : Turn arch) :
    (fetched s t).errprintFh = s.errprintFh := rfl

@[simp] theorem fetched_exitStatus
    (s : State arch)
    (t : Turn arch) :
    (fetched s t).exitStatus = s.exitStatus := rfl

@[simp] theorem fetched_wfd
    (s : State arch)
    (t : Turn arch) :
    (fetched s t).wfd = s.wfd := rfl

@[simp] theorem fetched_waddr
    (s : State arch)
    (t : Turn arch) :
    (fetched s t).waddr = s.waddr := rfl

@[simp] theorem fetched_wlen
    (s : State arch)
    (t : Turn arch) :
    (fetched s t).wlen = s.wlen := rfl

@[simp] theorem fetched_cmd
    (s : State arch)
    (t : Turn arch) :
    (fetched s t).cmd =
      { s.cmd with
        childExited :=
          s.cmd.childExited || !t.getRegs.isGone } := rfl

@[simp] theorem fetched_calls
    (s : State arch)
    (t : Turn arch) :
    (fetched s t).calls =
      s.calls ++ guardCalls s.cmd
        (.getRegs : Request arch) := rfl

@[simp] theorem fetched_requests
    (s : State arch)
    (t : Turn arch) :
    (fetched s t).requests =
      s.requests ++ [(.getRegs, t.getRegs)] := rfl

@[simp] theorem fetched_childRegs
    (s : State arch)
    (t : Turn arch) :
    (fetched s t).childRegs = t.regs := by
  simp [fetched, waitForChild]

/- The locals are those of the write that was entered. -/
theorem entered_write
    {s : State arch}
    {t : Turn arch}
    {regs : Regs arch}
    (hSeen : s.seen t = some regs) :
    (entered s t).wfd = regs.write.fd ∧
      (entered s t).waddr = regs.write.addr ∧
      (entered s t).wlen = regs.write.len := by
  simp [entered, takeArguments, noteSysWrite,
    fetched_regs hSeen, Regs.write]

/- The registers are those of the stop. -/
theorem entered_regs
    {s : State arch}
    {t : Turn arch}
    {regs : Regs arch}
    (hSeen : s.seen t = some regs) :
    (entered s t).regs = regs := by
  simp [entered, takeArguments, noteSysWrite,
    fetched_regs hSeen]

/- The toggle is set at the entry, and little else. -/
@[simp] theorem entered_toggle
    (s : State arch)
    (t : Turn arch) :
    (entered s t).toggle = 1 := rfl

@[simp] theorem entered_curFd
    (s : State arch)
    (t : Turn arch) :
    (entered s t).curFd = s.curFd := rfl

@[simp] theorem entered_marks
    (s : State arch)
    (t : Turn arch) :
    (entered s t).marks = s.marks := rfl

@[simp] theorem entered_cmd
    (s : State arch)
    (t : Turn arch) :
    (entered s t).cmd = (fetched s t).cmd := rfl

@[simp] theorem entered_requests
    (s : State arch)
    (t : Turn arch) :
    (entered s t).requests =
      s.requests ++ [(.getRegs, t.getRegs)] := rfl

@[simp] theorem entered_childRegs
    (s : State arch)
    (t : Turn arch) :
    (entered s t).childRegs = t.regs := by
  simp [entered, takeArguments, noteSysWrite]

/- What is done before the output, field by field. -/
@[simp] theorem armed_toggle
    (s : State arch)
    (t : Turn arch) :
    (armed s t).toggle = s.toggle := by
  simp [armed, marked, nullifyWrite_eq, beforeWrite_eq,
    openMarks_eq]

@[simp] theorem armed_wfd
    (s : State arch)
    (t : Turn arch) :
    (armed s t).wfd = s.wfd := by
  simp [armed, marked, nullifyWrite_eq, beforeWrite_eq]

@[simp] theorem armed_waddr
    (s : State arch)
    (t : Turn arch) :
    (armed s t).waddr = s.waddr := by
  simp [armed, marked, nullifyWrite_eq, beforeWrite_eq]

@[simp] theorem armed_wlen
    (s : State arch)
    (t : Turn arch) :
    (armed s t).wlen = s.wlen := by
  simp [armed, marked, nullifyWrite_eq, beforeWrite_eq]

@[simp] theorem armed_copyFh
    (s : State arch)
    (t : Turn arch) :
    (armed s t).cmd.copyFh = s.cmd.copyFh := by
  simp [armed, marked, nullifyWrite_eq, beforeWrite_eq,
    openMarks_eq]

@[simp] theorem armed_errprintFh
    (s : State arch)
    (t : Turn arch) :
    (armed s t).errprintFh = s.errprintFh := by
  simp [armed, marked, nullifyWrite_eq, beforeWrite_eq,
    openMarks_eq]

@[simp] theorem armed_cmdDebug
    (s : State arch)
    (t : Turn arch) :
    (armed s t).cmd.debug = s.cmd.debug := by
  simp [armed, marked, nullifyWrite_eq, beforeWrite_eq,
    openMarks_eq]

@[simp] theorem armed_slow
    (s : State arch)
    (t : Turn arch) :
    (armed s t).cmd.slow = s.cmd.slow := by
  simp [armed, marked, nullifyWrite_eq, beforeWrite_eq,
    openMarks_eq]

@[simp] theorem armed_traceFbt
    (s : State arch)
    (t : Turn arch) :
    (armed s t).cmd.traceFbt = s.cmd.traceFbt := by
  simp [armed, marked, nullifyWrite_eq, beforeWrite_eq,
    openMarks_eq]

@[simp] theorem armed_markState
    (s : State arch)
    (t : Turn arch) :
    (armed s t).cmd.markState =
      if s.cmd.markState = 0 then 1
      else s.cmd.markState := by
  simp [armed, marked, nullifyWrite_eq, beforeWrite_eq,
    openMarks_eq]

@[simp] theorem armed_childExited
    (s : State arch)
    (t : Turn arch) :
    (armed s t).cmd.childExited =
      (s.cmd.childExited || !t.setRegs.isGone) := by
  simp [armed, marked, nullifyWrite_eq, beforeWrite_eq,
    openMarks_eq]

@[simp] theorem armed_curFd
    (s : State arch)
    (t : Turn arch) :
    (armed s t).curFd =
      switchedFd (openMarks s) s.wfd s.waddr s.wlen := by
  simp [armed, marked, nullifyWrite_eq, beforeWrite_eq]

@[simp] theorem armed_requests
    (s : State arch)
    (t : Turn arch) :
    (armed s t).requests =
      s.requests ++
        [(.setRegs
          (if s.cmd.nullify then s.regs.set arch.regArg3 0
          else s.regs), t.setRegs)] := by
  simp [armed, marked, nullifyWrite_eq, beforeWrite_eq,
    openMarks_eq]

/- The one request at the exit of a write. -/
@[simp] theorem exited_requests
    (s : State arch)
    (t : Turn arch) :
    (exited s t).requests =
      s.requests ++
        [(.setRegs
          (if (s.wfd = 1 ∨ s.wfd = 2) ∧ s.cmd.nullify then
            s.regs.set arch.regRetn s.wlen
          else s.regs), t.setRegs)] := by
  simp [exited, fakeReturn_eq]

/- The copy stays open. -/
theorem entered_copyFh
    (s : State arch)
    (t : Turn arch) :
    (entered s t).cmd.copyFh = s.cmd.copyFh := rfl

end Errmark

------------------------------------------------------------
-- Inversion
------------------------------------------------------------

namespace Errmark

open Foundation

variable {arch : Arch}

/- An intercepted write that goes on was emitted. -/
theorem emitWrite_of_interceptWrite
    {s s' : State arch}
    {t : Turn arch}
    (hNext : interceptWrite s t = .next s') :
    emitWrite (armed s t) t = .next s' := by
  unfold interceptWrite at hNext
  rcases Outcome.andThen_eq_next_iff.mp hNext with
    ⟨mid, hGuard, hEmit⟩
  rcases guardPtrace_eq_next_iff.mp hGuard with
    ⟨_, hMid⟩
  rw [← hMid] at hEmit
  exact hEmit

/- The output of a write goes one of two ways. -/
theorem emitWrite_cases
    {s s' : State arch}
    {t : Turn arch}
    (hNext : emitWrite s t = .next s') :
    ((s.wfd = 2 ∧ s.cmd.copyFh) ∧
        ∃ block, t.malloc = some block ∧
          s' = copyWrite s t block) ∨
      (¬ (s.wfd = 2 ∧ s.cmd.copyFh) ∧
        s' = streamWrite s t) := by
  unfold emitWrite at hNext
  split at hNext
  · next hCopy =>
      left
      refine ⟨hCopy, ?_⟩
      cases hBlock : t.malloc with
      | none => simp [guardMalloc, hBlock] at hNext
      | some block =>
          simp only [guardMalloc, hBlock,
            Outcome.next.injEq] at hNext
          exact ⟨block, rfl, hNext.symm⟩
  · next hCopy =>
      right
      simp only [Outcome.next.injEq] at hNext
      exact ⟨hCopy, hNext.symm⟩

/- The exit of a write that goes on. -/
theorem writeExit_eq_next
    {s s' : State arch}
    {t : Turn arch}
    (hNext : writeExit s t = .next s') :
    s' = exited s t := by
  unfold writeExit at hNext
  rcases Outcome.andThen_eq_next_iff.mp hNext with
    ⟨mid, hGuard, hRest⟩
  rcases guardPtrace_eq_next_iff.mp hGuard with
    ⟨_, hMid⟩
  rw [← hMid] at hRest
  simp only [Outcome.next.injEq] at hRest
  exact hRest.symm

/- The entry of a write that goes on. -/
theorem writeEntry_eq_next
    {s s' : State arch}
    {t : Turn arch}
    {regs : Regs arch}
    (hSeen : s.seen t = some regs)
    (hNext :
      writeEntry (noteSysWrite (fetched s t)) t =
        .next s') :
    (¬ regs.write.Watched ∧ s' = entered s t) ∨
      (regs.write.Watched ∧
        ((∃ block,
            regs.write.IsCopied s.cmd.copyFh ∧
              t.malloc = some block ∧
              s' =
                copyWrite (armed (entered s t) t) t
                  block) ∨
          (¬ regs.write.IsCopied s.cmd.copyFh ∧
            s' =
              streamWrite (armed (entered s t) t) t))) := by
  have hWrite := entered_write hSeen
  unfold writeEntry at hNext
  change
    (if (entered s t).wfd = 1 ∨ (entered s t).wfd = 2 then
      interceptWrite (entered s t) t
    else
      .next (entered s t)) = .next s' at hNext
  rw [hWrite.1] at hNext
  change
    (if regs.write.Watched then
      interceptWrite (entered s t) t
    else
      .next (entered s t)) = .next s' at hNext
  by_cases hFd : regs.write.Watched
  · right
    refine ⟨hFd, ?_⟩
    rw [if_pos hFd] at hNext
    have hCases :=
      emitWrite_cases (emitWrite_of_interceptWrite hNext)
    rw [armed_wfd, armed_copyFh, entered_copyFh,
      hWrite.1] at hCases
    rcases hCases with
      ⟨hCopy, block, hBlock, hLast⟩ | ⟨hCopy, hLast⟩
    · exact Or.inl ⟨block, hCopy, hBlock, hLast⟩
    · exact Or.inr ⟨hCopy, hLast⟩
  · left
    rw [if_neg hFd] at hNext
    simp only [Outcome.next.injEq] at hNext
    exact ⟨hFd, hNext.symm⟩

/- Every iteration that goes on is one of the five steps. -/
theorem steps_of_iteration
    {s s' : State arch}
    {t : Turn arch}
    (hNext : iteration s t = .next s') :
    Steps s t s' := by
  cases hSeen : s.seen t with
  | none =>
      rcases iteration_of_not_seen hSeen with
        ⟨_, hLeave⟩ | ⟨_, _, _, hLeave⟩ | ⟨_, _, hHalt⟩
      · simp [hLeave] at hNext
      · simp [hLeave] at hNext
      · simp [hHalt] at hNext
  | some regs =>
      rw [iteration_of_seen hSeen,
        actOnStop_eq (fetched_regs hSeen)] at hNext
      rcases Outcome.andThen_eq_next_iff.mp hNext with
        ⟨mid, hAct, hResume⟩
      rcases guardPtrace_eq_next_iff.mp hResume with
        ⟨_, hAnswer⟩
      rw [← hAnswer]
      by_cases hCall : regs.ShowsWrite
      · rw [if_pos hCall] at hAct
        rw [onSysWrite_eq, fetched_toggle] at hAct
        rcases Outcome.andThen_eq_next_iff.mp hAct with
          ⟨last, hBranch, hDone⟩
        simp only [Outcome.next.injEq] at hDone
        rw [← hDone]
        by_cases hToggle : s.toggle = 0
        · rw [if_pos hToggle] at hBranch
          rcases writeEntry_eq_next hSeen hBranch with
            ⟨hFd, hLast⟩ |
              ⟨hFd, ⟨block, hCopy, hBlock, hLast⟩ |
                ⟨hCopy, hLast⟩⟩
          · rw [hLast]
            exact Steps.skipped regs hSeen hCall hToggle hFd
          · rw [hLast]
            exact Steps.copied regs hSeen hCall hToggle hFd
              hCopy block hBlock
          · rw [hLast]
            exact Steps.streamed regs hSeen hCall hToggle
              hFd hCopy
        · rw [if_neg hToggle] at hBranch
          rw [writeExit_eq_next hBranch]
          exact Steps.left regs hSeen hCall hToggle
      · rw [if_neg hCall] at hAct
        simp only [Outcome.next.injEq] at hAct
        rw [← hAct]
        exact Steps.idle regs hSeen hCall

end Errmark

------------------------------------------------------------
-- Iterations With Benign Answers
------------------------------------------------------------

namespace Errmark

open Foundation

variable {arch : Arch}

/- The message about a failed allocation, before `exit`. -/
def outOfMemory (s : State arch) : State arch :=
  s.record
    [.fprintf s.errprintFh
      ("malloc(" ++
        (if s.wlen.toNat = 0 then "0"
          else "0x" ++ hexText s.wlen.toNat) ++
        ") failed\n"),
      .diagnose s.errprintFh (.explain Errno.ENOMEM)]

/- The entry of a write, where SETREGS does not fail. -/
theorem writeEntry_of_benign
    {s : State arch}
    {t : Turn arch}
    {regs : Regs arch}
    (hSeen : s.seen t = some regs)
    (hSetRegs : t.setRegs.Benign) :
    writeEntry (noteSysWrite (fetched s t)) t =
      if regs.write.Watched then
        emitWrite (armed (entered s t) t) t
      else
        .next (entered s t) := by
  have hWrite := entered_write hSeen
  have hIntercept :
      interceptWrite (entered s t) t =
        emitWrite (armed (entered s t) t) t := by
    simp only [interceptWrite,
      guardPtrace_of_benign _ _ hSetRegs,
      Outcome.next_andThen]
    rfl
  unfold writeEntry
  change
    (if (entered s t).wfd = 1 ∨ (entered s t).wfd = 2 then
      interceptWrite (entered s t) t
    else
      .next (entered s t)) = _
  rw [hWrite.1, hIntercept]
  rfl

/- The exit of a write, where SETREGS does not fail. -/
theorem writeExit_of_benign
    (s : State arch)
    {t : Turn arch}
    (hSetRegs : t.setRegs.Benign) :
    writeExit s t = .next (exited s t) := by
  simp only [writeExit, guardPtrace_of_benign _ _ hSetRegs,
    Outcome.next_andThen]
  rfl

/- A write is emitted if a copy finds a block. -/
theorem emitWrite_of_block
    {s : State arch}
    {t : Turn arch}
    (hBlock :
      s.wfd = 2 ∧ s.cmd.copyFh → t.malloc.isSome) :
    ∃ s', emitWrite s t = .next s' := by
  unfold emitWrite
  by_cases hCopy : s.wfd = 2 ∧ s.cmd.copyFh = true
  · rcases Option.isSome_iff_exists.mp (hBlock hCopy) with
      ⟨block, hSome⟩
    exact ⟨copyWrite s t block,
      by simp [hCopy, guardMalloc, hSome]⟩
  · exact ⟨streamWrite s t, by rw [if_neg hCopy]⟩

/-
  With benign answers to its later requests an iteration
  that sees registers goes on, unless a copy finds no room.
-/
theorem iteration_goes_on
    {s : State arch}
    {t : Turn arch}
    {regs : Regs arch}
    (hSeen : s.seen t = some regs)
    (hSetRegs : t.setRegs.Benign)
    (hResume : t.resume.Benign)
    (hBlock :
      ∀ w, s.intercepted t = some w →
        w.IsCopied s.cmd.copyFh → t.malloc.isSome) :
    ∃ s', iteration s t = .next s' := by
  rw [iteration_of_seen hSeen,
    actOnStop_eq (fetched_regs hSeen)]
  have hAct :
      ∃ mid,
        (if regs.ShowsWrite then
          onSysWrite (fetched s t) t
        else
          .next (fetched s t)) = .next mid := by
    by_cases hCall : regs.ShowsWrite
    · rw [if_pos hCall]
      rw [onSysWrite_eq, fetched_toggle]
      by_cases hToggle : s.toggle = 0
      · rw [if_pos hToggle,
          writeEntry_of_benign hSeen hSetRegs]
        by_cases hFd : regs.write.Watched
        · have hWrite :
              s.intercepted t = some regs.write := by
            simp [State.intercepted, hSeen, hCall,
              hToggle, hFd]
          rw [if_pos hFd]
          have hRoom := hBlock regs.write hWrite
          rw [Write.IsCopied, ← (entered_write hSeen).1,
            ← armed_wfd (entered s t) t,
            ← entered_copyFh s t,
            ← armed_copyFh (entered s t) t] at hRoom
          rcases emitWrite_of_block hRoom with
            ⟨mid, hMid⟩
          exact ⟨noteDone mid, by rw [hMid]; rfl⟩
        · rw [if_neg hFd]
          exact ⟨_, rfl⟩
      · rw [if_neg hToggle,
          writeExit_of_benign _ hSetRegs]
        exact ⟨_, rfl⟩
    · rw [if_neg hCall]
      exact ⟨_, rfl⟩
  rcases hAct with ⟨mid, hMid⟩
  rw [hMid, Outcome.next_andThen,
    guardPtrace_of_benign _ _ hResume]
  exact ⟨_, rfl⟩

/- A copy that finds no room ends errmark. -/
theorem iteration_out_of_memory
    {s : State arch}
    {t : Turn arch}
    {w : Write arch}
    (hWrite : s.intercepted t = some w)
    (hCopy : w.IsCopied s.cmd.copyFh)
    (hSetRegs : t.setRegs.Benign)
    (hBlock : t.malloc = none) :
    iteration s t =
      .halt (.exit 8)
        (outOfMemory (armed (entered s t) t)) := by
  cases hSeen : s.seen t with
  | none => simp [State.intercepted, hSeen] at hWrite
  | some regs =>
      simp only [State.intercepted, hSeen] at hWrite
      split at hWrite
      · next hAll =>
          rcases hAll with ⟨hCall, hToggle, hFd⟩
          simp only [Option.some.injEq] at hWrite
          have hEmit :
              emitWrite (armed (entered s t) t) t =
                .halt (.exit 8)
                  (outOfMemory
                    (armed (entered s t) t)) := by
            unfold Write.IsCopied at hCopy
            unfold emitWrite
            rw [armed_wfd, armed_copyFh, entered_copyFh,
              (entered_write hSeen).1, hWrite,
              if_pos hCopy, hBlock]
            rfl
          rw [iteration_of_seen hSeen,
            actOnStop_eq (fetched_regs hSeen),
            if_pos hCall, onSysWrite_eq, fetched_toggle,
            if_pos hToggle,
            writeEntry_of_benign hSeen hSetRegs,
            if_pos hFd, hEmit]
          rfl
      · simp at hWrite

end Errmark
