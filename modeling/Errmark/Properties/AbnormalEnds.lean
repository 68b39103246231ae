import Errmark.Program.Halting
import Errmark.Properties.Bracketing

/-
  The marks of a run in which errmark does not return.

  A request that aborts errmark closes the open group once,
  and no code after it closes it again. Running out of
  memory closes nothing: the copy that finds no room leaves
  the group open that its write has just opened.

  Key definitions include:
    * `Grouped`

  Key theorems include:
    * `Grouped.of_halts`
    * `halted_marks_bracketed_iff`
-/

------------------------------------------------------------
-- Groups At A Halt
------------------------------------------------------------

namespace Errmark

open Foundation

variable {arch : Arch}

/- The turn in which every request is answered. -/
def Turn.granted (t : Turn arch) : Turn arch :=
  { t with
    malloc := some fun _ => 0
    setRegs := .ok
    resume := .ok }

/- Closed groups, then one that is open if there are any. -/
structure Grouped (s : State arch) : Prop where
  groups : GroupsOpen s
  lasting :
    s.marksWritten = [] ∨ openGroup s.openedFd ≠ none

/- It depends on the marks and the open group alone. -/
theorem Grouped.of_eq
    {s s' : State arch}
    (hGrouped : Grouped s)
    (hMarks : s'.marks = s.marks)
    (hWritten : s'.marksWritten = s.marksWritten)
    (hOpened : s'.openedFd = s.openedFd) :
    Grouped s' := by
  constructor
  · unfold GroupsOpen
    rw [hMarks, hWritten, hOpened]
    exact hGrouped.groups
  · rw [hWritten, hOpened]
    exact hGrouped.lasting

/- Each iteration opens and closes groups one by one. -/
theorem Grouped.step
    {s s' : State arch}
    {t : Turn arch}
    (hMarks : s.marks.AllSet)
    (hGrouped : Grouped s)
    (hStep : Steps s t s') :
    Grouped s' := by
  refine ⟨hGrouped.groups.step hMarks hStep, ?_⟩
  have hWritten := hStep.marksWritten
  have hOpened := hStep.openedFd
  cases hWrite : s.intercepted t with
  | none =>
      simp only [hWrite, List.append_nil]
        at hWritten hOpened
      rw [hWritten, hOpened]
      exact hGrouped.lasting
  | some w =>
      simp only [hWrite, State.switchMarks]
        at hWritten hOpened
      by_cases hIgnored : IsIgnored w.addr w.len
      · simp only [hIgnored, not_true_eq_false, false_and,
          if_false, if_true, List.append_nil]
          at hWritten hOpened
        rw [hWritten, hOpened]
        exact hGrouped.lasting
      · right
        rw [if_neg hIgnored] at hOpened
        rw [hOpened]
        have hWatched : w.fd = 1 ∨ w.fd = 2 :=
          State.intercepted_watched hWrite
        simp [openGroup, hWatched]

/- What is noise or a trace writes no marks. -/
theorem marksWritten_of_output
    {s s' : State arch}
    {marks : List Mark}
    (hOutput :
      s'.output.flatMap Call.marks =
        s.output.flatMap Call.marks ++ marks) :
    s'.marksWritten = s.marksWritten ++ marks := by
  rw [← State.output_marks, ← State.output_marks, hOutput]

/- An abort closes the group that is open before it. -/
theorem marksWritten_aborted
    (s : State arch)
    (request : Request arch)
    (errno : Errno) :
    (aborted s request errno).marksWritten =
      s.marksWritten ++ s.closing := by
  simp [aborted, State.marksWritten, guardCalls, traceText,
    State.closingCalls, State.closing]

/- Before a write is emitted, its group is switched to. -/
theorem outputOf_marked_entered
    {s : State arch}
    {t : Turn arch}
    {regs : Regs arch}
    (hSeen : s.seen t = some regs)
    (hFd : regs.write.Watched) :
    outputOf (marked (entered s t)).calls =
      outputOf s.calls ++ s.switching regs.write := by
  have hArmed := output_armed hSeen hFd
  simpa [armed] using hArmed

/- The group that is open once a write is armed. -/
theorem openedFd_armed
    {s : State arch}
    {t : Turn arch}
    {regs : Regs arch}
    (hSeen : s.seen t = some regs)
    (hFd : regs.write.Watched) :
    (armed (entered s t) t).openedFd =
      if IsIgnored regs.write.addr regs.write.len then
        s.openedFd
      else
        regs.write.fd := by
  have hState :
      (armed (entered s t) t).cmd.markState ≠ 0 := by
    rw [armed_markState]
    split
    · decide
    · next hNot => exact hNot
  rw [State.openedFd, if_neg hState, armed_curFd]
  exact switchedFd_entered hSeen hFd

/-
  Where a write is intercepted, the marks are those of the
  iteration in which all goes well, whatever comes of it.
-/
theorem Grouped.of_intercepted
    {s s' : State arch}
    {t : Turn arch}
    {w : Write arch}
    (hMarks : s.marks.AllSet)
    (hGrouped : Grouped s)
    (hWrite : s.intercepted t = some w)
    (hSame : s'.marks = s.marks)
    (hWritten :
      s'.marksWritten = s.marksWritten ++ s.switchMarks w)
    (hOpened :
      s'.openedFd =
        if IsIgnored w.addr w.len then s.openedFd
        else w.fd) :
    Grouped s' := by
  rcases State.intercepted_eq_some_iff.mp hWrite with
    ⟨regs, hSeen, _⟩
  have hSeen' : s.seen t.granted = some regs := hSeen
  have hWrite' : s.intercepted t.granted = some w := hWrite
  rcases iteration_goes_on hSeen' Reply.benign_ok
      Reply.benign_ok (fun _ _ _ => rfl) with
    ⟨after, hNext⟩
  have hStep := steps_of_iteration hNext
  have hAfterMarks := hStep.sameOptions.marks
  have hAfterWritten := hStep.marksWritten
  have hAfterOpened := hStep.openedFd
  simp only [hWrite'] at hAfterWritten hAfterOpened
  apply (hGrouped.step hMarks hStep).of_eq
  · rw [hSame, hAfterMarks]
  · rw [hWritten, hAfterWritten]
  · rw [hOpened, hAfterOpened]

/- Closing the group that is open leaves none open. -/
theorem GroupsOpen.closed
    {s : State arch}
    (hMarks : s.marks.AllSet)
    (hOpen : GroupsOpen s) :
    s.marks.WellBracketed
      (s.marksWritten ++ s.closing) := by
  unfold GroupsOpen at hOpen
  rw [State.closing, edgeMarks_openGroup hMarks]
  cases hGroup : openGroup s.openedFd with
  | none =>
      rw [hGroup] at hOpen
      have hBracketed := partlyBracketed_none_iff.mp hOpen
      simpa [Marks.WellBracketed] using hBracketed
  | some fd =>
      rw [hGroup] at hOpen
      exact hOpen.close (openGroup_known hGroup)

/-
  The state before an abort, and the one in which errmark
  runs out of memory, have their groups open as before.
-/
theorem Grouped.of_halts
    {s s' : State arch}
    {t : Turn arch}
    {cause : Halt}
    (hMarks : s.marks.AllSet)
    (hGrouped : Grouped s)
    (hHalts : Halts s t cause s') :
    (cause = .abort ∧
        ∃ mid : State arch,
          Grouped mid ∧ mid.marks = s.marks ∧
            s'.marksWritten =
              mid.marksWritten ++ mid.closing) ∨
      (cause = .exit 8 ∧ Grouped s' ∧
        s'.marks = s.marks) := by
  cases hHalts with
  | unread errno hEnds hReply hErrno =>
      left
      exact
        ⟨rfl, waitForChild s t,
          hGrouped.of_eq rfl rfl rfl, rfl,
          marksWritten_aborted _ _ _⟩
  | unarmed w errno hWrite hReply hErrno =>
      left
      refine
        ⟨rfl, marked (entered s t), ?_, ?_,
          marksWritten_aborted _ _ _⟩
      · rcases State.intercepted_eq_some_iff.mp hWrite with
          ⟨regs, hSeen, _, _, hFd, rfl⟩
        apply Grouped.of_intercepted hMarks hGrouped hWrite
        · simp [marked, nullifyWrite_eq, beforeWrite_eq,
            openMarks_eq]
        · apply marksWritten_of_output
          rw [State.output,
            outputOf_marked_entered hSeen hFd,
            List.flatMap_append, State.switching_marks]
          rfl
        · exact openedFd_armed hSeen hFd
      · simp [marked, nullifyWrite_eq, beforeWrite_eq,
          openMarks_eq]
  | outOfMemory w hWrite hCopy hSetRegs hBlock =>
      right
      rcases State.intercepted_eq_some_iff.mp hWrite with
        ⟨regs, hSeen, _, _, hFd, rfl⟩
      have hSame :
          (outOfMemory (armed (entered s t) t)).marks =
            s.marks := by
        simp [outOfMemory, armed, marked, nullifyWrite_eq,
          beforeWrite_eq, openMarks_eq]
      refine ⟨rfl, ?_, hSame⟩
      apply Grouped.of_intercepted hMarks hGrouped hWrite
        hSame
      · have hOutput := output_armed hSeen hFd
        have hWritten :
            (armed (entered s t) t).marksWritten =
              s.marksWritten ++ s.switchMarks regs.write := by
          apply marksWritten_of_output
          rw [State.output, hOutput, List.flatMap_append,
            State.switching_marks]
          rfl
        rw [← hWritten]
        simp [outOfMemory, State.marksWritten]
      · exact openedFd_armed hSeen hFd
  | unfaked regs errno hSeen hCall hToggle hReply hErrno =>
      left
      refine
        ⟨rfl, fakeReturn (noteSysWrite (fetched s t)), ?_,
          ?_, marksWritten_aborted _ _ _⟩
      · apply hGrouped.of_eq
        · simp [fakeReturn_eq, noteSysWrite]
        · simp [fakeReturn_eq, noteSysWrite,
            State.marksWritten, guardCalls, traceText]
        · simp [fakeReturn_eq, noteSysWrite,
            State.openedFd]
      · simp [fakeReturn_eq, noteSysWrite]
  | unresumed mid errno hStep hReply hErrno =>
      left
      refine
        ⟨rfl, mid, ?_, ?_, marksWritten_aborted _ _ _⟩
      · apply (hGrouped.step hMarks hStep).of_eq
        · rfl
        · simp [State.marksWritten, guardCalls, traceText]
        · rfl
      · exact hStep.sameOptions.marks

end Errmark

------------------------------------------------------------
-- Runs That Halt
------------------------------------------------------------

namespace Errmark

open Foundation

variable {arch : Arch}

/- So does every run. -/
theorem grouped_of_run
    {setup : Setup arch}
    (hMarks : setup.marks.AllSet)
    {turns : List (Turn arch)}
    {s' : State arch}
    (hRun : run iteration setup.begin turns = .next s') :
    Grouped s' := by
  have hBoth : s'.marks = setup.marks ∧ Grouped s' := by
    apply invariant_of_run
      (fun s : State arch =>
        s.marks = setup.marks ∧ Grouped s) _ _ hRun
    · rintro s t s' ⟨hSame, hGrouped⟩ hNext
      have hStep := steps_of_iteration hNext
      refine ⟨hStep.sameOptions.marks.trans hSame, ?_⟩
      exact hGrouped.step (hSame ▸ hMarks) hStep
    · have hGroups : GroupsOpen setup.begin :=
        groupsOpen_of_run hMarks (run_nil iteration _)
      refine ⟨rfl, hGroups, Or.inl ?_⟩
      unfold Setup.begin startTracing
      simp only [State.marksWritten]
      split <;> rfl
  exact hBoth.2

/-
  When errmark halts, its marks are well bracketed exactly
  if it aborted, or wrote none at all.
-/
theorem halted_marks_bracketed_iff
    (setup : Setup arch)
    (turns : List (Turn arch))
    (cause : Halt)
    (s' : State arch)
    (hMarks : setup.marks.AllSet)
    (hHalt : setup.errmark turns = .halt cause s') :
    setup.marks.WellBracketed s'.marksWritten ↔
      cause = .abort ∨ s'.marksWritten = [] := by
  rcases Setup.errmark_halt hHalt with
    ⟨pre, t, post, mid, _, hPre, hLast⟩
  have hSame : mid.marks = setup.marks :=
    (sameOptions_of_run hPre).marks
  have hMid := grouped_of_run hMarks hPre
  rcases hMid.of_halts (hSame ▸ hMarks)
      (halts_of_iteration hLast) with
    ⟨hCause, before, hBefore, hBeforeMarks, hWritten⟩ |
      ⟨hCause, hGrouped, hAfterMarks⟩
  · have hClosed :=
      hBefore.groups.closed
        (by rw [hBeforeMarks, hSame]; exact hMarks)
    rw [hBeforeMarks, hSame] at hClosed
    rw [hWritten]
    exact iff_of_true hClosed (Or.inl hCause)
  · have hNot : cause ≠ .abort := by
      rw [hCause]
      decide
    simp only [hNot, false_or]
    have hGroups := hGrouped.groups
    unfold GroupsOpen at hGroups
    rw [hAfterMarks, hSame] at hGroups
    constructor
    · intro hBracketed
      rcases hGrouped.lasting with hNone | hOpen
      · exact hNone
      · rcases Option.ne_none_iff_exists'.mp hOpen with
          ⟨fd, hFd⟩
        rw [hFd] at hGroups
        exact absurd hBracketed hGroups.not_bracketed
    · intro hNone
      rw [hNone]
      exact ⟨[], by simp, rfl⟩

/- The program cannot be resumed from its write. -/
def sampleLostTurns : List (Turn .x86_64) :=
  sampleExec.turn ::
    [{ (sampleWrite .entry 2 1 (-38) none).turn with
        resume := .failed Errno.EIO }]

/- The group of the write is closed once. -/
theorem sample_halted_marks_bracketed :
    ∃ s',
      (sampleSetup false).errmark sampleLostTurns =
          .halt .abort s' ∧
        s'.marksWritten =
            [⟨2, .start, [0x5b]⟩, ⟨2, .finish, [0x5d]⟩] ∧
          sampleMarks.WellBracketed s'.marksWritten := by
  have hHalt :=
    Outcome.eq_halt_of_cause
      (show
        ((sampleSetup false).errmark
          sampleLostTurns).cause = some .abort by
        decide +kernel)
  refine ⟨_, hHalt, by decide +kernel, ?_⟩
  exact
    (halted_marks_bracketed_iff (sampleSetup false)
      sampleLostTurns .abort _ sampleMarks_allSet
      hHalt).mpr (Or.inl rfl)

end Errmark
