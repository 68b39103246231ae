import Errmark.Program.Effects

/-
  How the loop is left, and what errmark still does then.

  The loop has two ways out: a report that ends the tracing,
  and a request for registers that finds no child. Each way
  passes a different number of the `mark_close` calls.

  Key definitions include:
    * `closings`
    * `State.leavingCalls`

  Key theorems include:
    * `leave_cases`
    * `Setup.errmark_leave`
    * `calls_leave`
    * `marksWritten_leave`
-/

------------------------------------------------------------
-- The Two Ways Out
------------------------------------------------------------

namespace Errmark

open Foundation

variable {arch : Arch}

/-
  Nothing that is done at the entry of a write leaves the
  loop.
-/
theorem interceptWrite_ne_leave
    (s s' : State arch)
    (t : Turn arch) :
    interceptWrite s t ≠ .leave s' := by
  intro hLeave
  unfold interceptWrite at hLeave
  rcases Outcome.andThen_eq_leave_iff.mp hLeave with
    hGuard | ⟨mid, _, hEmit⟩
  · exact guardPtrace_ne_leave _ _ _ _ hGuard
  · unfold emitWrite guardMalloc at hEmit
    split at hEmit
    · split at hEmit <;> simp at hEmit
    · simp at hEmit

/- Nothing that is done at its exit does, either. -/
theorem onSysWrite_ne_leave
    (s s' : State arch)
    (t : Turn arch) :
    onSysWrite s t ≠ .leave s' := by
  intro hLeave
  rw [onSysWrite_eq] at hLeave
  rcases Outcome.andThen_eq_leave_iff.mp hLeave with
    hBranch | ⟨mid, _, hDone⟩
  · split at hBranch
    · unfold writeEntry at hBranch
      dsimp only at hBranch
      split at hBranch
      · exact interceptWrite_ne_leave _ _ _ hBranch
      · simp at hBranch
    · unfold writeExit at hBranch
      rcases Outcome.andThen_eq_leave_iff.mp hBranch with
        hGuard | ⟨mid, _, hRest⟩
      · exact guardPtrace_ne_leave _ _ _ _ hGuard
      · simp at hRest
  · simp at hDone

/- No stop that errmark acts on ends the loop. -/
theorem actOnStop_ne_leave
    (s s' : State arch)
    (t : Turn arch) :
    actOnStop s t ≠ .leave s' := by
  intro hLeave
  rw [actOnStop_eq rfl] at hLeave
  rcases Outcome.andThen_eq_leave_iff.mp hLeave with
    hAct | ⟨mid, _, hResume⟩
  · split at hAct
    · exact onSysWrite_ne_leave _ _ _ hAct
    · simp at hAct
  · exact guardPtrace_ne_leave _ _ _ _ hResume

/- An iteration that leaves saw no registers. -/
theorem seen_of_leave
    {s s' : State arch}
    {t : Turn arch}
    (hLeave : iteration s t = .leave s') :
    s.seen t = none := by
  cases hSeen : s.seen t with
  | none => rfl
  | some regs =>
      rw [iteration_of_seen hSeen] at hLeave
      exact absurd hLeave (actOnStop_ne_leave _ _ _)

/- Without registers no write is intercepted. -/
theorem intercepted_of_seen_none
    {s : State arch}
    {t : Turn arch}
    (hSeen : s.seen t = none) :
    s.intercepted t = none := by
  simp [State.intercepted, hSeen]

/- The two ways out of the loop. -/
theorem leave_cases
    {s s' : State arch}
    {t : Turn arch}
    (hLeave : iteration s t = .leave s') :
    (endsTracing t.status = true ∧
        s' = childEnded (waitForChild s t) t.status) ∨
      (endsTracing t.status = false ∧
        t.getRegs = .failed Errno.ESRCH ∧
        s.cmd.childExited = true ∧
        s' = fetched s t) := by
  rcases iteration_of_not_seen (seen_of_leave hLeave) with
    ⟨hEnds, hEq⟩ | ⟨hGoesOn, hReply, hExited, hEq⟩ |
      ⟨_, _, hHalt⟩
  · left
    rw [hEq, Outcome.leave.injEq] at hLeave
    exact ⟨hEnds, hLeave.symm⟩
  · right
    rw [hEq, Outcome.leave.injEq] at hLeave
    exact ⟨hGoesOn, hReply, hExited, hLeave.symm⟩
  · rw [hHalt] at hLeave
    cases hLeave

/- A request that finds no child ends the loop. -/
theorem iteration_of_gone
    {s : State arch}
    {t : Turn arch}
    (hEnds : endsTracing t.status = false)
    (hGone : t.getRegs = .failed Errno.ESRCH)
    (hExited : s.cmd.childExited = true) :
    iteration s t = .leave (fetched s t) := by
  rw [iteration_of_benign s hEnds (Or.inr hGone)]
  apply if_pos
  simp [hGone, Reply.rc, hExited]

/- Once it is known to be there, a lost child ends the loop. -/
theorem leave_of_gone
    {s : State arch}
    {t : Turn arch}
    (hGone : t.getRegs = .failed Errno.ESRCH)
    (hExited : s.cmd.childExited = true) :
    ∃ s', iteration s t = .leave s' := by
  cases hEnds : endsTracing t.status with
  | true => exact ⟨_, iteration_of_ends s hEnds⟩
  | false =>
      exact ⟨_, iteration_of_gone hEnds hGone hExited⟩

/- errmark returns by leaving its loop at some turn. -/
theorem Setup.errmark_leave
    {setup : Setup arch}
    {turns : List (Turn arch)}
    {s' : State arch}
    (hLeave : setup.errmark turns = .leave s') :
    ∃ pre t post mid last,
      turns = pre ++ t :: post ∧
        run iteration setup.begin pre = .next mid ∧
        iteration mid t = .leave last ∧
        s' = afterTracing (afterLoop last) := by
  rw [Setup.errmark_eq] at hLeave
  rcases Outcome.onLeave_eq_leave_iff.mp hLeave with
    ⟨looped, hLooped, hAfter⟩
  rcases Outcome.onLeave_eq_leave_iff.mp hLooped with
    ⟨last, hRun, hLast⟩
  have hEnds :
      ∀ s, run iteration setup.begin turns ≠ .next s := by
    intro s
    rw [hRun]
    simp
  rcases exists_last_of_run hEnds with
    ⟨pre, t, post, mid, hSplit, hPre, hStep, _⟩
  refine ⟨pre, t, post, mid, last, hSplit, hPre, ?_, ?_⟩
  · rw [hStep, hRun]
  · rw [hLast, hAfter]

end Errmark

------------------------------------------------------------
-- Closing Marks
------------------------------------------------------------

namespace Errmark

open Foundation

variable {arch : Arch}

/- The group that is open after an iteration. -/
theorem Steps.openedFd
    {s s' : State arch}
    {t : Turn arch}
    (hStep : Steps s t s') :
    s'.openedFd =
      match s.intercepted t with
      | none => s.openedFd
      | some w =>
          if IsIgnored w.addr w.len then s.openedFd
          else w.fd := by
  rw [State.openedFd, hStep.markState, hStep.curFd]
  cases s.intercepted t with
  | none => rfl
  | some w =>
      by_cases hState : s.cmd.markState = 0
      · simp [hState]
      · simp [hState]

namespace State

/- The calls of one `mark_close`, if any. -/
def closingCalls (s : State arch) : List Call :=
  s.marks.calls s.openedFd .finish

/- The mark one `mark_close` writes, if any. -/
def closing (s : State arch) : List Mark :=
  s.marks.edgeMarks s.openedFd .finish

/- What is printed about the status, if verbose. -/
def statusText
    (s : State arch)
    (status : CInt) : List Call :=
  if s.cmd.verbose then
    [.fprintf s.errprintFh
      ("status=0x" ++ hexByteText status.toNat ++ "\n")]
  else
    []

/- What `fshow_wait_status` is asked to print, if verbose. -/
def waitStatusText (s : State arch) : List Call :=
  if s.exitStatus ≠ 0 then
    if s.cmd.verbose then
      [.diagnose .stderr
        (.waitStatus s.cmd.cmdName s.exitStatus)]
    else
      []
  else
    []

end State

/- Without an open group no end mark is written. -/
@[simp] theorem marks_calls_neg_one
    (marks : Marks)
    (edge : Edge) :
    marks.calls (-1) edge = [] := by
  simp [Marks.calls, Marks.text, markCalls]

/- The close that three places of the code guard alike. -/
theorem guardedClose_eq (s : State arch) :
    (if s.cmd.markState ≠ 0 then markClose s else s) =
      s.record s.closingCalls := by
  by_cases hState : s.cmd.markState = 0
  · simp [hState, State.closingCalls, State.openedFd]
  · simp [hState, State.closingCalls, State.openedFd,
      markClose_eq]

/- The group is closed, and the status told and kept. -/
theorem childEnded_eq
    (s : State arch)
    (status : CInt) :
    childEnded s status =
      { s.record (s.closingCalls ++ s.statusText status) with
        exitStatus := status } := by
  unfold childEnded
  dsimp only
  rw [guardedClose_eq { s with exitStatus := status },
    State.record_record]
  rfl

/- After the loop the group is closed again. -/
theorem afterLoop_eq (s : State arch) :
    afterLoop s =
      s.record (s.closingCalls ++ s.waitStatusText) := by
  unfold afterLoop State.waitStatusText
  dsimp only
  rw [guardedClose_eq]
  split
  · next hStatus =>
      rw [State.record_exitStatus] at hStatus
      rw [State.record_record, if_pos hStatus]
      rfl
  · next hStatus =>
      rw [State.record_exitStatus] at hStatus
      rw [if_neg hStatus, List.append_nil]

/- So it is before `errmark_run_program` returns. -/
theorem afterTracing_eq (s : State arch) :
    afterTracing s =
      { s.record s.closingCalls with
        cmd := { s.cmd with rc := s.exitStatus } } := by
  unfold afterTracing
  dsimp only
  rw [guardedClose_eq
    { s with cmd := { s.cmd with rc := s.exitStatus } }]
  rfl

/- The number of times the open group is closed. -/
def closings (status : CInt) : Nat :=
  if endsTracing status then 3 else 2

/-
  What errmark still does once it leaves its loop: it closes
  the open group two or three times, with some text between.
-/
def State.leavingCalls
    (s : State arch)
    (t : Turn arch)
    (last : State arch) : List Call :=
  (if endsTracing t.status then
    s.closingCalls ++ s.statusText t.status
  else
    guardCalls s.cmd (.getRegs : Request arch)) ++
    s.closingCalls ++ last.waitStatusText ++
    s.closingCalls

/- All that is done from the last iteration on. -/
theorem calls_leave
    {s last : State arch}
    {t : Turn arch}
    (hLeave : iteration s t = .leave last) :
    (afterTracing (afterLoop last)).calls =
      s.calls ++ s.leavingCalls t last := by
  have hCalls :
      (afterTracing (afterLoop last)).calls =
        last.calls ++ last.closingCalls ++
          last.waitStatusText ++ last.closingCalls := by
    rw [afterTracing_eq, afterLoop_eq]
    simp only [State.record_calls, List.append_assoc]
    rfl
  rw [hCalls, State.leavingCalls]
  rcases leave_cases hLeave with
    ⟨hEnds, hLast⟩ | ⟨hGoesOn, _, _, hLast⟩
  · have hClosing : last.closingCalls = s.closingCalls := by
      rw [hLast, childEnded_eq]
      rfl
    have hText :
        last.calls =
          s.calls ++ s.closingCalls ++
            s.statusText t.status := by
      rw [hLast, childEnded_eq]
      simp only [State.record_calls, List.append_assoc]
      rfl
    rw [hClosing, hText, if_pos hEnds]
    simp only [List.append_assoc]
  · have hClosing : last.closingCalls = s.closingCalls := by
      rw [hLast]
      rfl
    have hText :
        last.calls =
          s.calls ++ guardCalls s.cmd
            (.getRegs : Request arch) := by
      rw [hLast, fetched_calls]
    rw [hClosing, hText, hGoesOn]
    simp only [Bool.false_eq_true, if_false,
      List.append_assoc]

/- Without `--verbose` there is nothing but the closing. -/
theorem leavingCalls_of_silent
    (s : State arch)
    (t : Turn arch)
    {last : State arch}
    (hVerbose : s.cmd.verbose = false)
    (hTrace : s.cmd.traceFbt = false)
    (hLast : last.cmd.verbose = false) :
    s.leavingCalls t last =
      (List.replicate (closings t.status)
        s.closingCalls).flatten := by
  unfold State.leavingCalls closings State.statusText
    State.waitStatusText guardCalls traceText
  by_cases hEnds : endsTracing t.status = true
  · simp [hEnds, hVerbose, hLast, List.replicate]
  · simp [hEnds, hTrace, hLast, List.replicate]

/- The end marks after the last iteration. -/
theorem marksWritten_leave
    {s last : State arch}
    {t : Turn arch}
    (hLeave : iteration s t = .leave last) :
    (afterTracing (afterLoop last)).marksWritten =
      s.marksWritten ++
        (List.replicate (closings t.status)
          s.closing).flatten := by
  have hMarks :
      (s.leavingCalls t last).flatMap Call.marks =
        (List.replicate (closings t.status)
          s.closing).flatten := by
    unfold State.leavingCalls closings State.statusText
      State.waitStatusText guardCalls traceText
      State.closingCalls State.closing
    by_cases hEnds : endsTracing t.status = true
    · simp [hEnds, List.replicate]
    · simp [hEnds, List.replicate]
  rw [State.marksWritten, calls_leave hLeave,
    List.flatMap_append, hMarks]
  rfl

/- Leaving emits no byte of the program. -/
theorem stdoutBytes_leave
    {s last : State arch}
    {t : Turn arch}
    (hLeave : iteration s t = .leave last) :
    (afterTracing (afterLoop last)).stdoutBytes =
      s.stdoutBytes := by
  rw [State.stdoutBytes, calls_leave hLeave,
    List.flatMap_append, State.leavingCalls]
  simp [State.statusText, State.waitStatusText, guardCalls,
    traceText, State.closingCalls, State.stdoutBytes]

/- Leaving copies no byte either. -/
theorem copyBytes_leave
    {s last : State arch}
    {t : Turn arch}
    (hLeave : iteration s t = .leave last) :
    (afterTracing (afterLoop last)).copyBytes =
      s.copyBytes := by
  rw [State.copyBytes, calls_leave hLeave,
    List.flatMap_append, State.leavingCalls]
  simp [State.statusText, State.waitStatusText, guardCalls,
    traceText, State.closingCalls, State.copyBytes]

/- Nor does errmark say anything to the copy. -/
theorem textTo_copyFh_leave
    {s last : State arch}
    {t : Turn arch}
    (hLeave : iteration s t = .leave last)
    (hFile : s.errprintFh ≠ .copyFh) :
    (afterTracing (afterLoop last)).textTo .copyFh =
      s.textTo .copyFh := by
  rw [State.textTo, calls_leave hLeave,
    List.flatMap_append, State.leavingCalls]
  simp [State.statusText, State.waitStatusText, guardCalls,
    traceText, State.closingCalls, State.textTo, hFile]

end Errmark

------------------------------------------------------------
-- The Value Handed To main
------------------------------------------------------------

namespace Errmark

open Foundation

variable {arch : Arch}

/- `errmark_run_program` returns the status it was left with. -/
theorem rc_afterTracing (s : State arch) :
    (afterTracing s).cmd.rc = s.exitStatus := by
  rw [afterTracing_eq]

/- The status is kept after the loop. -/
theorem exitStatus_afterLoop (s : State arch) :
    (afterLoop s).exitStatus = s.exitStatus := by
  rw [afterLoop_eq]
  rfl

/- It is the one that `wait` reported. -/
theorem exitStatus_childEnded
    (s : State arch)
    (status : CInt) :
    (childEnded s status).exitStatus = status := by
  rw [childEnded_eq]

end Errmark
