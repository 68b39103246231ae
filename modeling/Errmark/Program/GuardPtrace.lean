import Errmark.Program.MarkWrite

/-
  `guard-ptrace.c`: a `ptrace` request with its errors.

  `guardPtrace` goes on after a success and after `ESRCH`,
  and aborts errmark after any other error. It sets
  `child_exited` in every case but `ESRCH`.

  Key definitions include:
    * `ptrace`
    * `guardPtrace`
    * `answered`

  Key theorems include:
    * `guardPtrace_of_benign`
    * `guardPtrace_eq_next_iff`
    * `guardPtrace_ne_leave`
-/

------------------------------------------------------------
-- guard_ptrace
------------------------------------------------------------

namespace Errmark

open Foundation

variable {arch : Arch}

/- `err` after a request: 0, or the error it failed with. -/
def Reply.err : Reply → Nat
| .ok => 0
| .failed errno => errno.number

/- Text for `trace_fbt`, if it is set. -/
def traceText
    (cmd : Cmd)
    (text : String) : List Call :=
  if cmd.traceFbt then [.fprintf .traceFbt text] else []

/-
  The request itself: with success the kernel copies the
  registers of the stopped child out or in.
-/
def ptrace
    (s : State arch)
    (request : Request arch)
    (reply : Reply) : State arch :=
  let s := s.request [(request, reply)]
  match reply, request with
  | .ok, .getRegs => { s with regs := s.childRegs }
  | .ok, .setRegs regs => { s with childRegs := regs }
  | _, _ => s

/- `guard_ptrace`: only ESRCH and success are put up with. -/
def guardPtrace
    (s : State arch)
    (request : Request arch)
    (reply : Reply) : Outcome (State arch) Halt :=
  let s := s.record (traceText s.cmd
    ("> ptrace(" ++ toString request.number ++ ")\n"))
  let s := ptrace s request reply
  let s := s.record (traceText s.cmd "< ptrace\n")
  let s :=
    if reply.err ≠ Errno.ESRCH.number then
      { s with cmd := { s.cmd with childExited := true } }
    else
      s
  match reply with
  | .ok => .next s
  | .failed errno =>
      if reply.err ≠ 0 ∧
          reply.err ≠ Errno.ESRCH.number then
        let s :=
          if s.cmd.markState ≠ 0 then markClose s else s
        .halt .abort
          (s.record [.diagnose .stderr
            (.errno "ptrace() failed - " errno)])
      else
        .next s

end Errmark

------------------------------------------------------------
-- Requests That Return
------------------------------------------------------------

namespace Errmark

open Foundation

variable {arch : Arch}

namespace Reply

/- The answers `guard_ptrace` returns from. -/
def Benign (reply : Reply) : Prop :=
  reply = .ok ∨ reply = .failed Errno.ESRCH

instance (reply : Reply) : Decidable reply.Benign := by
  unfold Benign
  infer_instance

/- Success is put up with. -/
theorem benign_ok : Benign .ok := Or.inl rfl

/- So is a child that is gone. -/
theorem benign_gone : Benign (.failed Errno.ESRCH) :=
  Or.inr rfl

end Reply

/- The lines `guard_ptrace` traces around a request. -/
def guardCalls
    (cmd : Cmd)
    (request : Request arch) : List Call :=
  traceText cmd
      ("> ptrace(" ++ toString request.number ++ ")\n") ++
    traceText cmd "< ptrace\n"

/- The state after a request that `guard_ptrace` returns from. -/
def answered
    (s : State arch)
    (request : Request arch)
    (reply : Reply) : State arch :=
  { s with
    calls := s.calls ++ guardCalls s.cmd request
    requests := s.requests ++ [(request, reply)]
    regs :=
      match reply, request with
      | .ok, .getRegs => s.childRegs
      | _, _ => s.regs
    childRegs :=
      match reply, request with
      | .ok, .setRegs regs => regs
      | _, _ => s.childRegs
    cmd :=
      { s.cmd with
        childExited :=
          s.cmd.childExited || !reply.isGone } }

/- Success and `ESRCH` let `guard_ptrace` return. -/
theorem guardPtrace_of_benign
    (s : State arch)
    (request : Request arch)
    {reply : Reply}
    (hReply : reply.Benign) :
    guardPtrace s request reply =
      .next (answered s request reply) := by
  rcases hReply with rfl | rfl
  · have hNe : (0 : Nat) ≠ Errno.ESRCH.number := by decide
    cases request <;>
      simp [guardPtrace, answered, ptrace, guardCalls,
        Reply.err, Reply.isGone, hNe, State.record,
        State.request]
  · cases request <;>
      simp [guardPtrace, answered, ptrace, guardCalls,
        Reply.err, Reply.isGone, State.record,
        State.request]

/- Any other error aborts errmark. -/
theorem guardPtrace_of_not_benign
    (s : State arch)
    (request : Request arch)
    {reply : Reply}
    (hReply : ¬ reply.Benign) :
    ∃ s', guardPtrace s request reply =
      .halt .abort s' := by
  cases reply with
  | ok => exact absurd Reply.benign_ok hReply
  | failed errno =>
      have hNe : errno.number ≠ Errno.ESRCH.number := by
        intro hEq
        apply hReply
        right
        cases errno
        cases hEq
        rfl
      have hZero := errno.ne_zero
      simp [guardPtrace, Reply.err, hNe, hZero]

/- A request goes on exactly from such an answer. -/
theorem guardPtrace_eq_next_iff
    {s s' : State arch}
    {request : Request arch}
    {reply : Reply} :
    guardPtrace s request reply = .next s' ↔
      reply.Benign ∧ answered s request reply = s' := by
  by_cases hReply : reply.Benign
  · rw [guardPtrace_of_benign s request hReply]
    simp [hReply]
  · rcases guardPtrace_of_not_benign s request hReply with
      ⟨s'', hHalt⟩
    simp [hHalt, hReply]

/- `guard_ptrace` never breaks out of the loop. -/
theorem guardPtrace_ne_leave
    (s s' : State arch)
    (request : Request arch)
    (reply : Reply) :
    guardPtrace s request reply ≠ .leave s' := by
  by_cases hReply : reply.Benign
  · rw [guardPtrace_of_benign s request hReply]
    simp
  · rcases guardPtrace_of_not_benign s request hReply with
      ⟨s'', hHalt⟩
    simp [hHalt]

end Errmark

------------------------------------------------------------
-- Fields After A Request
------------------------------------------------------------

namespace Errmark

variable {arch : Arch}
variable
  (s : State arch)
  (request : Request arch)
  (reply : Reply)

/-
  A request is traced, noted with its answer, and changes
  no more than its kind does.
-/
@[simp] theorem answered_calls :
    (answered s request reply).calls =
      s.calls ++ guardCalls s.cmd request := rfl

@[simp] theorem answered_requests :
    (answered s request reply).requests =
      s.requests ++ [(request, reply)] := rfl

@[simp] theorem answered_marks :
    (answered s request reply).marks = s.marks := rfl

@[simp] theorem answered_curFd :
    (answered s request reply).curFd = s.curFd := rfl

@[simp] theorem answered_debug :
    (answered s request reply).debug = s.debug := rfl

@[simp] theorem answered_errprintFh :
    (answered s request reply).errprintFh =
      s.errprintFh := rfl

@[simp] theorem answered_exitStatus :
    (answered s request reply).exitStatus =
      s.exitStatus := rfl

@[simp] theorem answered_toggle :
    (answered s request reply).toggle = s.toggle := rfl

@[simp] theorem answered_wfd :
    (answered s request reply).wfd = s.wfd := rfl

@[simp] theorem answered_waddr :
    (answered s request reply).waddr = s.waddr := rfl

@[simp] theorem answered_wlen :
    (answered s request reply).wlen = s.wlen := rfl

@[simp] theorem answered_cmd :
    (answered s request reply).cmd =
      { s.cmd with
        childExited :=
          s.cmd.childExited || !reply.isGone } := rfl

/- GETREGS fetches the registers of the child. -/
@[simp] theorem answered_getRegs_regs :
    (answered s .getRegs .ok).regs = s.childRegs := rfl

@[simp] theorem answered_getRegs_childRegs :
    (answered s .getRegs reply).childRegs =
      s.childRegs := by
  cases reply <;> rfl

/- SETREGS overwrites them. -/
@[simp] theorem answered_setRegs_regs (regs : Regs arch) :
    (answered s (.setRegs regs) reply).regs =
      s.regs := by
  cases reply <;> rfl

@[simp] theorem answered_setRegs_childRegs
    (regs : Regs arch) :
    (answered s (.setRegs regs) .ok).childRegs =
      regs := rfl

/- PTRACE_SYSCALL leaves them alone. -/
@[simp] theorem answered_syscall_regs (data : arch.Word) :
    (answered s (.syscall data) reply).regs =
      s.regs := by
  cases reply <;> rfl

@[simp] theorem answered_syscall_childRegs
    (data : arch.Word) :
    (answered s (.syscall data) reply).childRegs =
      s.childRegs := by
  cases reply <;> rfl

end Errmark
