import Errmark.Foundation.Projections
import Errmark.Program.Leaving

/-
  How an iteration ends errmark.

  A `ptrace` request that fails with anything but `ESRCH`
  aborts errmark, after one `mark_close`; a copy that finds
  no room makes it exit. The state before a request that
  aborts is the state of an iteration in which that request
  is answered.

  Key definitions include:
    * `aborted`
    * `Halts`

  Key theorems include:
    * `guardPtrace_of_failed`
    * `halts_of_iteration`
    * `Setup.errmark_halt`
    * `ignores_iteration_of`
-/

------------------------------------------------------------
-- Aborting
------------------------------------------------------------

namespace Errmark

open Foundation

variable {arch : Arch}

/- The state in which `guard_ptrace` calls `abort`. -/
def aborted
    (s : State arch)
    (request : Request arch)
    (errno : Errno) : State arch :=
  (answered s request (.failed errno)).record
    (s.closingCalls ++
      [.diagnose .stderr
        (.errno "ptrace() failed - " errno)])

/- Any other failure aborts errmark. -/
theorem guardPtrace_of_failed
    (s : State arch)
    (request : Request arch)
    {errno : Errno}
    (hErrno : errno ≠ Errno.ESRCH) :
    guardPtrace s request (.failed errno) =
      .halt .abort (aborted s request errno) := by
  have hNumber : errno.number ≠ Errno.ESRCH.number := by
    intro hEq
    apply hErrno
    cases errno
    cases hEq
    rfl
  have hZero := errno.ne_zero
  have hGone : (Reply.failed errno).isGone = false := by
    simp [Reply.isGone, hErrno]
  by_cases hState : s.cmd.markState = 0
  · cases request <;>
      simp [guardPtrace, aborted, answered, ptrace,
        guardCalls, Reply.err, hNumber, hZero, hGone,
        hState, State.record, State.request,
        State.closingCalls, State.openedFd]
  · cases request <;>
      simp [guardPtrace, aborted, answered, ptrace,
        guardCalls, Reply.err, hNumber, hZero, hGone,
        hState, markClose_eq, State.record, State.request,
        State.closingCalls, State.openedFd]

/- A request goes on or aborts errmark. -/
theorem guardPtrace_cases
    (s : State arch)
    (request : Request arch)
    (reply : Reply) :
    (reply.Benign ∧
        guardPtrace s request reply =
          .next (answered s request reply)) ∨
      ∃ errno, reply = .failed errno ∧
        errno ≠ Errno.ESRCH ∧
        guardPtrace s request reply =
          .halt .abort (aborted s request errno) := by
  by_cases hReply : reply.Benign
  · exact Or.inl
      ⟨hReply, guardPtrace_of_benign s request hReply⟩
  · right
    cases reply with
    | ok => exact absurd Reply.benign_ok hReply
    | failed errno =>
        have hErrno : errno ≠ Errno.ESRCH := by
          intro hEq
          exact hReply (Or.inr (by rw [hEq]))
        exact ⟨errno, rfl, hErrno,
          guardPtrace_of_failed s request hErrno⟩

/- There is no other way for a request to halt. -/
theorem guardPtrace_eq_halt
    {s s' : State arch}
    {request : Request arch}
    {reply : Reply}
    {cause : Halt}
    (hHalt : guardPtrace s request reply = .halt cause s') :
    cause = .abort ∧
      ∃ errno, reply = .failed errno ∧
        errno ≠ Errno.ESRCH ∧
        s' = aborted s request errno := by
  rcases guardPtrace_cases s request reply with
    ⟨_, hNext⟩ | ⟨errno, hReply, hErrno, hAbort⟩
  · rw [hNext] at hHalt
    cases hHalt
  · rw [hAbort] at hHalt
    cases hHalt
    exact ⟨rfl, errno, hReply, hErrno, rfl⟩

end Errmark

------------------------------------------------------------
-- Compositions That Halt
------------------------------------------------------------

namespace Foundation

variable {σ ε : Type}

namespace Outcome

/- Why an iteration halts, if it does. -/
def cause : Outcome σ ε → Option ε
| .next _ => none
| .leave _ => none
| .halt e _ => some e

/- An outcome with a cause is a halt. -/
theorem eq_halt_of_cause
    {o : Outcome σ ε}
    {e : ε}
    (hCause : o.cause = some e) :
    o = .halt e o.final := by
  cases o with
  | next s => cases hCause
  | leave s => cases hCause
  | halt e s =>
      cases hCause
      rfl

/- A composition halts in its first or its second part. -/
theorem andThen_eq_halt_iff
    {o : Outcome σ ε}
    {f : σ → Outcome σ ε}
    {cause : ε}
    {s' : σ} :
    o.andThen f = halt cause s' ↔
      o = halt cause s' ∨
        ∃ s, o = next s ∧ f s = halt cause s' := by
  cases o <;> simp [andThen]

/- What halts is not touched on leaving. -/
theorem onLeave_eq_halt_iff
    {o : Outcome σ ε}
    {f : σ → σ}
    {cause : ε}
    {s' : σ} :
    o.onLeave f = halt cause s' ↔ o = halt cause s' := by
  cases o <;> simp [onLeave]

end Outcome

end Foundation

------------------------------------------------------------
-- The Ways To Halt
------------------------------------------------------------

namespace Errmark

open Foundation

variable {arch : Arch}

/- The turn in which the child is resumed after all. -/
def Turn.resumable (t : Turn arch) : Turn arch :=
  { t with resume := .ok }

/- The ways in which an iteration ends errmark. -/
inductive Halts
    (s : State arch)
    (t : Turn arch) : Halt → State arch → Prop where
  | unread
      (errno : Errno)
      (hEnds : endsTracing t.status = false)
      (hReply : t.getRegs = .failed errno)
      (hErrno : errno ≠ Errno.ESRCH) :
      Halts s t .abort
        (aborted (waitForChild s t) .getRegs errno)
  | unarmed
      (w : Write arch)
      (errno : Errno)
      (hWrite : s.intercepted t = some w)
      (hReply : t.setRegs = .failed errno)
      (hErrno : errno ≠ Errno.ESRCH) :
      Halts s t .abort
        (aborted (marked (entered s t))
          (.setRegs (marked (entered s t)).regs) errno)
  | outOfMemory
      (w : Write arch)
      (hWrite : s.intercepted t = some w)
      (hCopy : w.IsCopied s.cmd.copyFh)
      (hSetRegs : t.setRegs.Benign)
      (hBlock : t.malloc = none) :
      Halts s t (.exit 8)
        (outOfMemory (armed (entered s t) t))
  | unfaked
      (regs : Regs arch)
      (errno : Errno)
      (hSeen : s.seen t = some regs)
      (hCall : regs.ShowsWrite)
      (hToggle : s.toggle ≠ 0)
      (hReply : t.setRegs = .failed errno)
      (hErrno : errno ≠ Errno.ESRCH) :
      Halts s t .abort
        (aborted (fakeReturn (noteSysWrite (fetched s t)))
          (.setRegs
            (fakeReturn (noteSysWrite (fetched s t))).regs)
          errno)
  | unresumed
      (mid : State arch)
      (errno : Errno)
      (hStep :
        Steps s t.resumable
          (answered mid (.syscall 0) .ok))
      (hReply : t.resume = .failed errno)
      (hErrno : errno ≠ Errno.ESRCH) :
      Halts s t .abort (aborted mid (.syscall 0) errno)

/- An iteration without registers halts in one way only. -/
theorem halts_of_not_seen
    {s s' : State arch}
    {t : Turn arch}
    {cause : Halt}
    (hSeen : s.seen t = none)
    (hHalt : iteration s t = .halt cause s') :
    Halts s t cause s' := by
  rcases iteration_of_not_seen hSeen with
    ⟨_, hLeave⟩ | ⟨_, _, _, hLeave⟩ | ⟨_, hReply, _⟩
  · rw [hLeave] at hHalt
    cases hHalt
  · rw [hLeave] at hHalt
    cases hHalt
  · have hEnds : endsTracing t.status = false := by
      cases hEnds : endsTracing t.status with
      | false => rfl
      | true =>
          rw [iteration_of_ends s hEnds] at hHalt
          cases hHalt
    simp only [iteration, hEnds, Bool.false_eq_true,
      if_false] at hHalt
    rcases Outcome.andThen_eq_halt_iff.mp hHalt with
      hGuard | ⟨mid, hGuard, _⟩
    · rcases guardPtrace_eq_halt hGuard with
        ⟨rfl, errno, hFailed, hErrno, rfl⟩
      exact Halts.unread errno hEnds hFailed hErrno
    · exact
        absurd (guardPtrace_eq_next_iff.mp hGuard).1 hReply

/- The entry of a write halts in one of two ways. -/
theorem halts_of_writeEntry
    {s s' : State arch}
    {t : Turn arch}
    {regs : Regs arch}
    {cause : Halt}
    (hSeen : s.seen t = some regs)
    (hCall : regs.ShowsWrite)
    (hToggle : s.toggle = 0)
    (hHalt :
      writeEntry (noteSysWrite (fetched s t)) t =
        .halt cause s') :
    Halts s t cause s' := by
  have hWrite := entered_write hSeen
  unfold writeEntry at hHalt
  change
    (if (entered s t).wfd = 1 ∨ (entered s t).wfd = 2 then
      interceptWrite (entered s t) t
    else
      .next (entered s t)) = .halt cause s' at hHalt
  rw [hWrite.1] at hHalt
  split at hHalt
  · next hFd =>
      have hTaken :=
        State.intercepted_eq_some hSeen hCall hToggle hFd
      unfold interceptWrite at hHalt
      rcases Outcome.andThen_eq_halt_iff.mp hHalt with
        hGuard | ⟨mid, hGuard, hEmit⟩
      · rcases guardPtrace_eq_halt hGuard with
          ⟨rfl, errno, hFailed, hErrno, rfl⟩
        exact
          Halts.unarmed regs.write errno hTaken hFailed
            hErrno
      · rcases guardPtrace_eq_next_iff.mp hGuard with
          ⟨hSetRegs, hMid⟩
        rw [← hMid] at hEmit
        change
          emitWrite (armed (entered s t) t) t =
            .halt cause s' at hEmit
        unfold emitWrite at hEmit
        split at hEmit
        · next hCopy =>
            rw [armed_wfd, armed_copyFh, entered_copyFh,
              hWrite.1] at hCopy
            cases hBlock : t.malloc with
            | some block =>
                simp [guardMalloc, hBlock] at hEmit
            | none =>
                simp only [guardMalloc, hBlock,
                  Outcome.halt.injEq] at hEmit
                rcases hEmit with ⟨rfl, rfl⟩
                exact
                  Halts.outOfMemory regs.write hTaken hCopy
                    hSetRegs hBlock
        · cases hEmit
  · cases hHalt

/- The exit of a write halts in one way only. -/
theorem halts_of_writeExit
    {s s' : State arch}
    {t : Turn arch}
    {regs : Regs arch}
    {cause : Halt}
    (hSeen : s.seen t = some regs)
    (hCall : regs.ShowsWrite)
    (hToggle : s.toggle ≠ 0)
    (hHalt :
      writeExit (noteSysWrite (fetched s t)) t =
        .halt cause s') :
    Halts s t cause s' := by
  unfold writeExit at hHalt
  rcases Outcome.andThen_eq_halt_iff.mp hHalt with
    hGuard | ⟨mid, _, hRest⟩
  · rcases guardPtrace_eq_halt hGuard with
      ⟨rfl, errno, hFailed, hErrno, rfl⟩
    exact
      Halts.unfaked regs errno hSeen hCall hToggle hFailed
        hErrno
  · cases hRest

/- Nothing before the resume looks at the answer to it. -/
theorem onSysWrite_resumable
    (s : State arch)
    (t : Turn arch) :
    onSysWrite s t.resumable = onSysWrite s t := rfl

/- Every iteration that ends errmark is one of the five. -/
theorem halts_of_iteration
    {s s' : State arch}
    {t : Turn arch}
    {cause : Halt}
    (hHalt : iteration s t = .halt cause s') :
    Halts s t cause s' := by
  cases hSeen : s.seen t with
  | none => exact halts_of_not_seen hSeen hHalt
  | some regs =>
      rw [iteration_of_seen hSeen,
        actOnStop_eq (fetched_regs hSeen)] at hHalt
      rcases Outcome.andThen_eq_halt_iff.mp hHalt with
        hAct | ⟨mid, hAct, hResume⟩
      · split at hAct
        · next hCall =>
            rw [onSysWrite_eq, fetched_toggle] at hAct
            rcases Outcome.andThen_eq_halt_iff.mp hAct with
              hBranch | ⟨last, _, hDone⟩
            · split at hBranch
              · next hToggle =>
                  exact
                    halts_of_writeEntry hSeen hCall hToggle
                      hBranch
              · next hToggle =>
                  exact
                    halts_of_writeExit hSeen hCall hToggle
                      hBranch
            · cases hDone
        · cases hAct
      · rcases guardPtrace_eq_halt hResume with
          ⟨rfl, errno, hFailed, hErrno, rfl⟩
        apply Halts.unresumed mid errno _ hFailed hErrno
        apply steps_of_iteration
        have hSeen' : s.seen t.resumable = some regs := hSeen
        rw [iteration_of_seen hSeen',
          actOnStop_eq (fetched_regs hSeen')]
        change
          (if regs.ShowsWrite then
            onSysWrite (fetched s t) t.resumable
          else
            .next (fetched s t)).andThen _ = _
        rw [onSysWrite_resumable, hAct,
          Outcome.next_andThen]
        exact guardPtrace_of_benign _ _ Reply.benign_ok

/- errmark halts in its loop, at some turn. -/
theorem Setup.errmark_halt
    {setup : Setup arch}
    {turns : List (Turn arch)}
    {cause : Halt}
    {s' : State arch}
    (hHalt : setup.errmark turns = .halt cause s') :
    ∃ pre t post mid,
      turns = pre ++ t :: post ∧
        run iteration setup.begin pre = .next mid ∧
        iteration mid t = .halt cause s' := by
  rw [Setup.errmark_eq, Outcome.onLeave_eq_halt_iff,
    Outcome.onLeave_eq_halt_iff] at hHalt
  have hEnds :
      ∀ s, run iteration setup.begin turns ≠ .next s := by
    intro s
    rw [hHalt]
    simp
  rcases exists_last_of_run hEnds with
    ⟨pre, t, post, mid, hSplit, hPre, hStep, _⟩
  exact ⟨pre, t, post, mid, hSplit, hPre, by rw [hStep, hHalt]⟩

end Errmark

------------------------------------------------------------
-- What An Iteration Ignores
------------------------------------------------------------

namespace Errmark

open Foundation

variable {arch : Arch}
variable {ρ : Type}
variable {f : State arch → ρ}

/- A request ignores what both its ends ignore. -/
theorem ignores_guardPtrace_of
    (request : Request arch)
    (reply : Reply)
    (hAnswered :
      Blind f (fun s => answered s request reply))
    (hAborted :
      ∀ errno, Blind f (fun s => aborted s request errno)) :
    Ignores f (fun s => guardPtrace s request reply) := by
  intro s s' hSame
  dsimp only
  rcases guardPtrace_cases s request reply with
    ⟨hReply, hNext⟩ | ⟨errno, hReply, hErrno, hHalt⟩
  · rw [hNext, guardPtrace_of_benign s' request hReply]
    exact hAnswered.next s s' hSame
  · rw [hHalt, hReply,
      guardPtrace_of_failed s' request hErrno]
    exact (hAborted errno).halt Halt.abort s s' hSame

/-
  An iteration ignores what its parts ignore, as long as the
  registers and `child_exited` are kept.
-/
theorem ignores_iteration_of
    (hRegs : ∀ s s', f s = f s' → s.regs = s'.regs)
    (hExited :
      ∀ s s', f s = f s' →
        s.cmd.childExited = s'.cmd.childExited)
    (hWaited : ∀ t, Blind f (fun s => waitForChild s t))
    (hEnded :
      ∀ status, Blind f (fun s => childEnded s status))
    (hGuard :
      ∀ request reply,
        Ignores f (fun s => guardPtrace s request reply))
    (hWrite : ∀ t, Ignores f (fun s => onSysWrite s t))
    (t : Turn arch) :
    Ignores f (fun s => iteration s t) := by
  have hAct :
      Ignores f
        (fun s : State arch =>
          if s.regs arch.regSyscall = arch.sysWrite then
            onSysWrite s t
          else
            .next s) := by
    apply Ignores.ite
    · intro s s' hSame
      rw [hRegs s s' hSame]
    · exact hWrite t
    · exact Blind.id.next
  have hStop : Ignores f (fun s => actOnStop s t) :=
    hAct.andThen (hGuard (.syscall 0) t.resume)
  have hFetched :
      Ignores f
        (fun s : State arch =>
          if t.getRegs.rc = -1 ∧ s.cmd.childExited then
            .leave s
          else
            actOnStop s t) := by
    apply Ignores.ite
    · intro s s' hSame
      rw [hExited s s' hSame]
    · exact Blind.id.leave
    · exact hStop
  have hReported :
      Ignores f
        (fun s : State arch =>
          if endsTracing t.status then
            .leave (childEnded s t.status)
          else
            (guardPtrace s .getRegs t.getRegs).andThen
              fun s =>
                if t.getRegs.rc = -1 ∧
                    s.cmd.childExited then
                  .leave s
                else
                  actOnStop s t) :=
    Ignores.ite (fun _ _ _ => Iff.rfl)
      (hEnded t.status).leave
      ((hGuard .getRegs t.getRegs).andThen hFetched)
  exact hReported.comp (hWaited t)

end Errmark
