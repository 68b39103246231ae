import Errmark.Foundation.Brackets
import Errmark.Tracee.Stops

/-
  The marks that a run of errmark writes.

  While the loop runs, the marks are groups of the form
  `start_d end_d`, the last of which may still be open. The
  end mark of that one is then written by each of the
  `mark_close` calls on the way out, since none of them
  resets `mark_state` or `cur_fd`.

  Key definitions include:
    * `Marks.WellBracketed`
    * `GroupsOpen`

  Key theorems include:
    * `groupsOpen_of_run`
    * `errmark_marks_bracketed_iff`
-/

------------------------------------------------------------
-- Groups
------------------------------------------------------------

namespace Errmark

open Foundation

variable {arch : Arch}

namespace Marks

/- All four marks are set. -/
def AllSet (marks : Marks) : Prop :=
  ∀ fd edge, fd = 1 ∨ fd = 2 →
    (marks.text fd edge).isSome

/- The marks around a group of a descriptor. -/
def opening (marks : Marks) (fd : Int) : Mark :=
  ⟨fd, .start, (marks.text fd .start).getD []⟩

/- The mark that closes a group. -/
def closing (marks : Marks) (fd : Int) : Mark :=
  ⟨fd, .finish, (marks.text fd .finish).getD []⟩

/- The marks come in pairs of one descriptor. -/
def WellBracketed
    (marks : Marks)
    (word : List Mark) : Prop :=
  Bracketed marks.opening marks.closing
    (fun fd => fd = 1 ∨ fd = 2) word

/- With all marks set, a group starts with its opening mark. -/
theorem edgeMarks_start
    {marks : Marks}
    (hMarks : marks.AllSet)
    {fd : Int}
    (hFd : fd = 1 ∨ fd = 2) :
    marks.edgeMarks fd .start = [marks.opening fd] := by
  rcases Option.isSome_iff_exists.mp
      (hMarks fd .start hFd) with ⟨text, hText⟩
  simp [edgeMarks, opening, hText]

/- It ends with its closing mark. -/
theorem edgeMarks_finish
    {marks : Marks}
    (hMarks : marks.AllSet)
    {fd : Int}
    (hFd : fd = 1 ∨ fd = 2) :
    marks.edgeMarks fd .finish = [marks.closing fd] := by
  rcases Option.isSome_iff_exists.mp
      (hMarks fd .finish hFd) with ⟨text, hText⟩
  simp [edgeMarks, closing, hText]

end Marks

/- The descriptor of a group that is open, if one is. -/
def openGroup (fd : Int) : Option Int :=
  if fd = 1 ∨ fd = 2 then some fd else none

/- Groups are opened for fd 1 and 2 only. -/
theorem openGroup_known
    {fd d : Int}
    (hOpen : openGroup fd = some d) :
    d = 1 ∨ d = 2 := by
  unfold openGroup at hOpen
  split at hOpen
  · next hFd =>
      cases hOpen
      exact hFd
  · cases hOpen

/- The end mark of the open group. -/
theorem edgeMarks_openGroup
    {marks : Marks}
    (hMarks : marks.AllSet)
    (fd : Int) :
    marks.edgeMarks fd .finish =
      (openGroup fd).toList.map marks.closing := by
  by_cases hFd : fd = 1 ∨ fd = 2
  · rw [Marks.edgeMarks_finish hMarks hFd]
    simp [openGroup, hFd]
  · have hNone := not_or.mp hFd
    simp [Marks.edgeMarks, Marks.text, openGroup,
      hNone.1, hNone.2]

/-
  The marks written in a state: closed groups, then the
  start of the group that is open.
-/
def GroupsOpen (s : State arch) : Prop :=
  PartlyBracketed s.marks.opening s.marks.closing
    (fun fd => fd = 1 ∨ fd = 2) (openGroup s.openedFd)
    s.marksWritten

/- A step writes nothing, or closes and opens a group. -/
theorem GroupsOpen.step
    {s s' : State arch}
    {t : Turn arch}
    (hMarks : s.marks.AllSet)
    (hOpen : GroupsOpen s)
    (hStep : Steps s t s') :
    GroupsOpen s' := by
  have hWritten := hStep.marksWritten
  have hFd := hStep.openedFd
  unfold GroupsOpen
  rw [hStep.sameOptions.marks]
  cases hWrite : s.intercepted t with
  | none =>
      simp only [hWrite, List.append_nil]
        at hWritten hFd
      rw [hWritten, hFd]
      exact hOpen
  | some w =>
      have hWatched := State.intercepted_watched hWrite
      simp only [hWrite, State.switchMarks]
        at hWritten hFd
      by_cases hIgnored : IsIgnored w.addr w.len
      · simp only [hIgnored, not_true_eq_false, false_and,
          if_false, if_true, List.append_nil]
          at hWritten hFd
        rw [hWritten, hFd]
        exact hOpen
      · by_cases hSame : w.fd = s.openedFd
        · simp only [hIgnored, hSame, ne_eq,
            not_true_eq_false, and_false, if_false,
            List.append_nil] at hWritten hFd
          rw [hWritten, hFd]
          exact hOpen
        · have hNew : openGroup w.fd = some w.fd := by
            unfold openGroup
            exact if_pos hWatched
          simp only [hIgnored, ne_eq, hSame,
            not_false_eq_true, and_self, if_true, if_false]
            at hWritten hFd
          rw [hWritten, hFd, hNew,
            edgeMarks_openGroup hMarks,
            Marks.edgeMarks_start hMarks hWatched,
            ← List.append_assoc]
          exact hOpen.switch (fun c => openGroup_known) w.fd

/- The marks of a run that is still in the loop. -/
theorem groupsOpen_of_run
    {setup : Setup arch}
    (hMarks : setup.marks.AllSet)
    {turns : List (Turn arch)}
    {s' : State arch}
    (hRun : run iteration setup.begin turns = .next s') :
    GroupsOpen s' := by
  have hBoth : s'.marks = setup.marks ∧ GroupsOpen s' := by
    apply invariant_of_run
      (fun s : State arch =>
        s.marks = setup.marks ∧ GroupsOpen s) _ _ hRun
    · rintro s t s' ⟨hSame, hOpen⟩ hNext
      have hStep := steps_of_iteration hNext
      refine ⟨?_, ?_⟩
      · rw [hStep.sameOptions.marks, hSame]
      · apply hOpen.step _ hStep
        rw [hSame]
        exact hMarks
    · refine ⟨rfl, ?_⟩
      have hNone : setup.begin.marksWritten = [] := by
        unfold Setup.begin startTracing
        simp only [State.marksWritten]
        split <;> rfl
      unfold GroupsOpen
      rw [hNone]
      exact partlyBracketed_nil
  exact hBoth.2

end Errmark

------------------------------------------------------------
-- The Marks Of A Whole Run
------------------------------------------------------------

namespace Errmark

open Foundation

variable {arch : Arch}

/- The iteration intercepts no write that opens a group. -/
def OpensNothing
    (s : State arch)
    (t : Turn arch) : Prop :=
  ∀ w, s.intercepted t = some w → IsIgnored w.addr w.len

/- A group that was opened never goes away. -/
theorem openGroup_step
    {s s' : State arch}
    {t : Turn arch}
    (hNext : iteration s t = .next s') :
    openGroup s'.openedFd = none ↔
      openGroup s.openedFd = none ∧ OpensNothing s t := by
  have hFd := (steps_of_iteration hNext).openedFd
  unfold OpensNothing
  cases hWrite : s.intercepted t with
  | none =>
      simp only [hWrite] at hFd
      simp [hFd]
  | some w =>
      have hWatched := State.intercepted_watched hWrite
      have hNew : openGroup w.fd = some w.fd := by
        unfold openGroup
        exact if_pos hWatched
      simp only [hWrite] at hFd
      by_cases hIgnored : IsIgnored w.addr w.len
      · simp [hFd, hIgnored]
      · simp [hFd, hIgnored, hNew]

/-
  The marks of a run that returns are well bracketed exactly
  when it wrote none: a group that was opened is closed two
  or three times.
-/
theorem errmark_marks_bracketed_iff
    (setup : Setup arch)
    (turns : List (Turn arch))
    (s' : State arch)
    (hMarks : setup.marks.AllSet)
    (hLeave : setup.errmark turns = .leave s') :
    setup.marks.WellBracketed s'.marksWritten ↔
      Everywhere iteration OpensNothing setup.begin
        turns := by
  rcases Setup.errmark_leave hLeave with
    ⟨pre, t, post, mid, last, hSplit, hPre, hLast, hAfter⟩
  have hOpen := groupsOpen_of_run hMarks hPre
  have hSame : mid.marks = setup.marks :=
    (sameOptions_of_run hPre).marks
  have hStays :
      Everywhere iteration OpensNothing setup.begin turns ↔
        openGroup mid.openedFd = none := by
    have hFlag :=
      flag_of_run (fun s t s' hStep => openGroup_step hStep)
        hPre
    have hTail :
        Everywhere iteration OpensNothing mid
          (t :: post) := by
      refine ⟨?_, ?_⟩
      · intro w hWrite
        rw [intercepted_of_seen_none (seen_of_leave hLast)]
          at hWrite
        cases hWrite
      · intro s hNext
        rw [hLast] at hNext
        cases hNext
    have hStart : openGroup setup.begin.openedFd = none :=
      rfl
    rw [hSplit, everywhere_append_iff, hFlag]
    constructor
    · rintro ⟨hAll, _⟩
      exact ⟨hStart, hAll⟩
    · rintro ⟨_, hAll⟩
      refine ⟨hAll, ?_⟩
      intro s hRun
      rw [hPre] at hRun
      cases hRun
      exact hTail
  rw [hStays, hAfter, marksWritten_leave hLast,
    State.closing, hSame, edgeMarks_openGroup hMarks]
  unfold GroupsOpen at hOpen
  rw [hSame] at hOpen
  cases hGroup : openGroup mid.openedFd with
  | none =>
      rw [hGroup] at hOpen
      have hBracketed := partlyBracketed_none_iff.mp hOpen
      simpa [Marks.WellBracketed] using hBracketed
  | some fd =>
      rw [hGroup] at hOpen
      have hTimes : 2 ≤ closings t.status := by
        unfold closings
        split <;> omega
      have hNot :=
        hOpen.not_close_twice
          (fun mark => mark.edge = .start)
          (fun _ => rfl) (fun _ => rfl) hTimes
      have hFlat :
          (List.replicate (closings t.status)
            ((some fd).toList.map
              setup.marks.closing)).flatten =
            List.replicate (closings t.status)
              (setup.marks.closing fd) := by
        simp
      rw [hFlat]
      simp only [reduceCtorEq, iff_false]
      exact hNot

/- In the sample, all four marks are set. -/
theorem sampleMarks_allSet : sampleMarks.AllSet := by
  intro fd edge hFd
  rcases hFd with rfl | rfl <;> cases edge <;> rfl

/- One write to fd 2, then a clean exit. -/
def sampleTurns : List (Turn .x86_64) :=
  (sampleStops 2 1).map Stop.turn ++ [goneTurn 0]

/- A group with one start mark gets two end marks. -/
theorem sample_marks_not_bracketed :
    ∃ s',
      (sampleSetup false).errmark sampleTurns =
          .leave s' ∧
        ¬ sampleMarks.WellBracketed s'.marksWritten := by
  refine
    ⟨_, Outcome.eq_leave_of_leaves (by decide +kernel), ?_⟩
  rintro ⟨keys, _, hEq⟩
  have hEven := congrArg List.length hEq
  rw [length_groups] at hEven
  have hThree :
      ((sampleSetup false).errmark
        sampleTurns).final.marksWritten.length = 3 := by
    decide +kernel
  omega

/- The same run, in which a group was opened. -/
theorem sample_marks_bracketed_iff :
    sampleMarks.WellBracketed
        ((sampleSetup false).errmark
          sampleTurns).final.marksWritten ↔
      Everywhere iteration OpensNothing
        (sampleSetup false).begin
        sampleTurns :=
  errmark_marks_bracketed_iff
    (sampleSetup false) sampleTurns _
    sampleMarks_allSet
    (Outcome.eq_leave_of_leaves (by decide +kernel))

end Errmark
