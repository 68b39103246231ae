import Errmark.Foundation.Projections
import Errmark.Program.Halting
import Errmark.Tracee.Stops

/-
  The locals that `ptrace_cmd` leaves uninitialised.

  The arguments of a write are taken at its entry, and used
  until its exit: while the toggle is 0, nothing looks at
  what they were before. The registers are those of the
  child once a request for them has succeeded. What errmark
  does therefore depends on its uninitialised locals only if
  its first request for registers finds no child.

  Key definitions include:
    * `State.settled`
    * `State.forgotten`
    * `Setup.withLocals`

  Key theorems include:
    * `onSysWrite_of_settled`
    * `ignores_iteration_settled`
    * `related_first`
    * `unset_locals_unused`
-/

------------------------------------------------------------
-- Arguments Between Writes
------------------------------------------------------------

namespace Errmark

open Foundation

variable {arch : Arch}

namespace State

/- Other values for the arguments of a write. -/
def withArguments
    (s : State arch)
    (fd : Int)
    (addr len : arch.Word) : State arch :=
  { s with
    wfd := fd
    waddr := addr
    wlen := len }

/- The state without arguments that are not in use. -/
def settled (s : State arch) : State arch :=
  if s.toggle = 0 then s.withArguments 0 0 0 else s

/- While the toggle is down, the locals are forgotten. -/
theorem settled_of_zero
    {s : State arch}
    (hToggle : s.toggle = 0) :
    s.settled = s.withArguments 0 0 0 :=
  if_pos hToggle

/- While it is up, they are kept. -/
theorem settled_of_ne_zero
    {s : State arch}
    (hToggle : s.toggle ≠ 0) :
    s.settled = s :=
  if_neg hToggle

/- The toggle, the registers and the options are kept. -/
theorem settled_toggle (s : State arch) :
    s.settled.toggle = s.toggle := by
  unfold settled
  split <;> rfl

theorem settled_regs (s : State arch) :
    s.settled.regs = s.regs := by
  unfold settled
  split <;> rfl

theorem settled_cmd (s : State arch) :
    s.settled.cmd = s.cmd := by
  unfold settled
  split <;> rfl

/- States alike are the same, or differ in arguments. -/
theorem eq_or_of_settled
    {s s' : State arch}
    (hSame : s.settled = s'.settled) :
    s = s' ∨
      (s.toggle = 0 ∧
        s.withArguments 0 0 0 = s'.withArguments 0 0 0) := by
  have hToggle : s.toggle = s'.toggle := by
    rw [← settled_toggle s, hSame, settled_toggle]
  by_cases hZero : s.toggle = 0
  · right
    rw [settled_of_zero hZero,
      settled_of_zero (hToggle ▸ hZero)] at hSame
    exact ⟨hZero, hSame⟩
  · left
    rw [settled_of_ne_zero hZero,
      settled_of_ne_zero (hToggle ▸ hZero)] at hSame
    exact hSame

/- Changes that leave the toggle and the arguments alone. -/
theorem blind_settled
    {h : State arch → State arch}
    (hToggle : ∀ s, (h s).toggle = s.toggle)
    (hCommutes :
      ∀ s, (h s).withArguments 0 0 0 =
        h (s.withArguments 0 0 0)) :
    Blind settled h := by
  intro s s' hSame
  rcases eq_or_of_settled hSame with hEq | ⟨hZero, hEq⟩
  · rw [hEq]
  · have hZero' : s'.toggle = 0 := by
      rw [← settled_toggle, ← hSame, settled_toggle, hZero]
    rw [settled_of_zero ((hToggle s).trans hZero),
      settled_of_zero ((hToggle s').trans hZero'),
      hCommutes, hCommutes, hEq]

end State

end Errmark

------------------------------------------------------------
-- The Loop
------------------------------------------------------------

namespace Errmark

open Foundation

variable {arch : Arch}

/- At an entry the arguments are taken anew. -/
theorem onSysWrite_of_settled
    {s s' : State arch}
    (hSame : s.settled = s'.settled)
    (t : Turn arch) :
    onSysWrite s t = onSysWrite s' t := by
  rcases State.eq_or_of_settled hSame with
    hEq | ⟨hZero, hEq⟩
  · rw [hEq]
  · have hZero' : s'.toggle = 0 := by
      rw [← State.settled_toggle, ← hSame,
        State.settled_toggle, hZero]
    have hTaken :
        takeArguments (noteSysWrite s) =
          takeArguments (noteSysWrite s') := by
      have hBoth :=
        congrArg
          (fun s => takeArguments (noteSysWrite s)) hEq
      exact hBoth
    rw [onSysWrite_eq, onSysWrite_eq, if_pos hZero,
      if_pos hZero']
    unfold writeEntry
    rw [hTaken]

/- A request does not look at the locals. -/
theorem ignores_guardPtrace_settled
    (request : Request arch)
    (reply : Reply) :
    Ignores State.settled
      (fun s => guardPtrace s request reply) :=
  ignores_guardPtrace_of request reply
    (State.blind_settled (fun _ => rfl) (fun _ => rfl))
    (fun _ =>
      State.blind_settled (fun _ => rfl) (fun _ => rfl))

/- Nor does the end of the child. -/
theorem blind_childEnded_settled (status : CInt) :
    Blind State.settled
      (fun s : State arch => childEnded s status) := by
  apply State.blind_settled
  · intro s
    rw [childEnded_eq]
    rfl
  · intro s
    rw [childEnded_eq, childEnded_eq]
    rfl

/- An iteration ignores unset locals. -/
theorem ignores_iteration_settled (t : Turn arch) :
    Ignores State.settled (fun s => iteration s t) := by
  apply ignores_iteration_of _ _ _ blind_childEnded_settled
    ignores_guardPtrace_settled
  · intro t s s' hSame
    dsimp only
    rw [onSysWrite_of_settled hSame t]
  · intro s s' hSame
    rw [← State.settled_regs s, hSame,
      State.settled_regs s']
  · intro s s' hSame
    rw [← State.settled_cmd s, hSame,
      State.settled_cmd s']
  · intro t
    exact
      State.blind_settled (fun _ => rfl) (fun _ => rfl)

end Errmark

------------------------------------------------------------
-- The First Iteration
------------------------------------------------------------

namespace Errmark

open Foundation

variable {arch : Arch}

namespace State

/- The state without registers. -/
def unread (s : State arch) : State arch :=
  { s with
    regs := fun _ => 0
    childRegs := fun _ => 0 }

/- The state without registers and arguments. -/
def forgotten (s : State arch) : State arch :=
  s.unread.withArguments 0 0 0

/- Afterwards they are forgotten altogether. -/
theorem forgotten_of_settled
    {s s' : State arch}
    (hSame : s.settled = s'.settled) :
    s.forgotten = s'.forgotten := by
  rcases eq_or_of_settled hSame with hEq | ⟨_, hEq⟩
  · rw [hEq]
  · have hBoth := congrArg State.unread hEq
    exact hBoth

end State

/- What follows the loop does not look at them. -/
theorem blind_childEnded_forgotten (status : CInt) :
    Blind State.forgotten
      (fun s : State arch => childEnded s status) := by
  apply blind_of_absorbed
  intro s
  rw [childEnded_eq, childEnded_eq]
  rfl

theorem blind_afterLoop_forgotten :
    Blind State.forgotten
      (afterLoop : State arch → State arch) := by
  apply blind_of_absorbed
  intro s
  rw [afterLoop_eq, afterLoop_eq]
  rfl

theorem blind_afterTracing_forgotten :
    Blind State.forgotten
      (afterTracing : State arch → State arch) := by
  apply blind_of_absorbed
  intro s
  rw [afterTracing_eq, afterTracing_eq]
  rfl

theorem blind_aborted_forgotten
    (request : Request arch)
    (errno : Errno) :
    Blind State.forgotten
      (fun s => aborted s request errno) :=
  blind_of_absorbed fun _ => rfl

/- Registers that were fetched replace what was there. -/
theorem iteration_of_fetched
    (s : State arch)
    {t : Turn arch}
    (hEnds : endsTracing t.status = false)
    (hReply : t.getRegs = .ok) :
    iteration s.unread t = iteration s t := by
  have hFetched : fetched s.unread t = fetched s t := by
    unfold fetched
    rw [hReply]
    rfl
  have hBenign : t.getRegs.Benign := Or.inl hReply
  rw [iteration_of_benign _ hEnds hBenign,
    iteration_of_benign _ hEnds hBenign, hFetched]

/- A request that finds a child tells the locals apart no more. -/
theorem related_first
    {s s' : State arch}
    {t : Turn arch}
    (hSame : s.forgotten = s'.forgotten)
    (hToggle : s.toggle = 0)
    (hFound : t.getRegs ≠ .failed Errno.ESRCH) :
    (iteration s t).Related
      (fun a b => a.settled = b.settled)
      (fun a b => a.forgotten = b.forgotten)
      (iteration s' t) := by
  have hWaited :
      (waitForChild s t).forgotten =
        (waitForChild s' t).forgotten := by
    have hBoth :=
      congrArg
        (fun s => (waitForChild s t).forgotten) hSame
    exact hBoth
  cases hEnds : endsTracing t.status with
  | true =>
      rw [iteration_of_ends s hEnds,
        iteration_of_ends s' hEnds]
      exact blind_childEnded_forgotten t.status _ _ hWaited
  | false =>
      cases hReply : t.getRegs with
      | ok =>
          have hToggle' : s'.toggle = 0 := by
            have hBoth :
                s.forgotten.toggle = s'.forgotten.toggle := by
              rw [hSame]
            exact hBoth.symm.trans hToggle
          have hSettled :
              s.unread.settled = s'.unread.settled := by
            rw [State.settled_of_zero (s := s.unread) hToggle,
              State.settled_of_zero (s := s'.unread) hToggle']
            exact hSame
          rw [← iteration_of_fetched s hEnds hReply,
            ← iteration_of_fetched s' hEnds hReply]
          exact
            ((ignores_iteration_settled t).related
              hSettled).mono (fun _ _ hMid => hMid)
              fun _ _ => State.forgotten_of_settled
      | failed errno =>
          have hErrno : errno ≠ Errno.ESRCH := by
            intro hEq
            exact hFound (by rw [hReply, hEq])
          have hHalt :
              ∀ s : State arch,
                iteration s t =
                  .halt .abort
                    (aborted (waitForChild s t) .getRegs
                      errno) := by
            intro s
            simp only [iteration, hEnds,
              Bool.false_eq_true, if_false, hReply,
              guardPtrace_of_failed _ _ hErrno,
              Outcome.halt_andThen]
          rw [hHalt, hHalt]
          exact
            ⟨rfl,
              blind_aborted_forgotten .getRegs errno _ _
                hWaited⟩

end Errmark

------------------------------------------------------------
-- Two Sets Of Locals
------------------------------------------------------------

namespace Errmark

open Foundation

variable {arch : Arch}

namespace Setup

/- The same command, with other values in the locals. -/
def withLocals
    (setup : Setup arch)
    (regs : Regs arch)
    (fd : Int)
    (addr len : arch.Word) : Setup arch :=
  { setup with
    regs := regs
    wfd := fd
    waddr := addr
    wlen := len }

/- At first they are whatever was in memory. -/
theorem forgotten_begin_withLocals
    (setup : Setup arch)
    (regs : Regs arch)
    (fd : Int)
    (addr len : arch.Word) :
    (setup.withLocals regs fd addr len).begin.forgotten =
      setup.begin.forgotten := by
  unfold begin startTracing withLocals
  rfl

end Setup

/-
  Unless the first request for registers finds no child,
  errmark makes the same calls and the same requests and
  ends in the same way, whatever its locals hold at first.
-/
theorem unset_locals_unused
    (setup : Setup arch)
    (regs : Regs arch)
    (fd : Int)
    (addr len : arch.Word)
    (turns : List (Turn arch))
    (hFound :
      ∀ t ∈ turns.head?, t.getRegs ≠ .failed Errno.ESRCH) :
    ((setup.withLocals regs fd addr len).errmark turns).map
        State.forgotten =
      (setup.errmark turns).map State.forgotten := by
  have hBegin :=
    setup.forgotten_begin_withLocals regs fd addr len
  have hLoop :
      (run iteration
          (setup.withLocals regs fd addr len).begin
          turns).Related
        (fun a b => a.forgotten = b.forgotten)
        (fun a b => a.forgotten = b.forgotten)
        (run iteration setup.begin turns) := by
    cases turns with
    | nil => exact hBegin
    | cons t turns =>
        rw [run_cons, run_cons]
        apply
          (related_first hBegin rfl
            (hFound t rfl)).andThen
        intro mid mid' hMid
        exact
          ((Ignores.run ignores_iteration_settled
            turns).related hMid).mono
              (fun _ _ => State.forgotten_of_settled)
              fun _ _ => State.forgotten_of_settled
  rw [Setup.errmark_eq, Setup.errmark_eq]
  exact
    Outcome.map_eq_map_iff.mpr
      ((hLoop.onLeave blind_afterLoop_forgotten).onLeave
        blind_afterTracing_forgotten)

/- The sample command with other locals. -/
theorem sample_unset_locals_unused :
    (((sampleSetup true).withLocals (fun _ => 1) 2 4096
          1).errmark ((sampleStops 1 3).map Stop.turn)).map
        State.forgotten =
      ((sampleSetup true).errmark
        ((sampleStops 1 3).map Stop.turn)).map
          State.forgotten := by
  apply unset_locals_unused
  intro t hFirst
  cases hFirst
  exact Reply.noConfusion

end Errmark
