import Errmark.Tracee.Stops

/-
  The child as `wait` meets it, from `fork` to the end.

  An iteration finds a report about the child, or nobody to
  wait for. What it may find depends on what is left of the
  child: `fork` may have failed, a child that a request did
  not find was killed while it was stopped, and only a child
  that has stopped before can end with a status of 0.

  Key definitions include:
    * `Found`
    * `WaitTurn`
    * `Child`
    * `Child.Allows`
    * `Child.Lives`
    * `Child.Known`

  Key theorems include:
    * `leave_at_end`
    * `Child.Known.step`
    * `Child.known_of_run`
-/

------------------------------------------------------------
-- What wait Finds
------------------------------------------------------------

namespace Errmark

variable {arch : Arch}

/- What one call of `wait` comes back with. -/
inductive Found where
  | told (report : Report)
  | nobody
  deriving DecidableEq, Repr

namespace Found

/- The word `status` holds after the call. -/
def status : Found → CInt
| .told report => report.status
| .nobody => 0

/- The child was reaped, or there is none to wait for. -/
def IsEnd : Found → Prop
| .told (.exited _) => True
| .told (.killed _ _) => True
| .told (.stopped _) => False
| .nobody => True

instance (found : Found) : Decidable found.IsEnd := by
  unfold IsEnd
  split <;> infer_instance

end Found

namespace Turn

/- The child was there for no request of the turn. -/
structure Gone (t : Turn arch) : Prop where
  getRegs : t.getRegs = .failed Errno.ESRCH
  setRegs : t.setRegs = .failed Errno.ESRCH
  resume : t.resume = .failed Errno.ESRCH
  memory : ∀ addr, t.memory.fault addr = some Errno.ESRCH

instance (t : Turn arch) : Decidable t.Answers := by
  unfold Answers
  infer_instance

end Turn

/-
  A turn of the loop with what its `wait` found. Requests
  find no child once there is none, and a child that was
  just reported to be stopped may be killed at any moment.
-/
structure WaitTurn (arch : Arch) where
  found : Found
  turn : Turn arch
  status_eq : turn.status = found.status
  gone : found.IsEnd → turn.Gone
  benign : ¬ found.IsEnd → turn.Benign

end Errmark

------------------------------------------------------------
-- What Is Left Of The Child
------------------------------------------------------------

namespace Errmark

variable {arch : Arch}

/-
  There is no child, it has not stopped yet, it has stopped
  and was resumed, or it was killed while it was stopped.
-/
inductive Child where
  | absent
  | young
  | traced
  | killed
  deriving DecidableEq, Repr

namespace Child

/- What `fork` leaves to wait for. -/
def ofPid (pid : Int) : Child :=
  if pid = -1 then .absent else .young

/- What `wait` may find. -/
def Allows
    (child : Child)
    (found : Found) : Prop :=
  match child, found with
  | .absent, .nobody => True
  | .young, .told (.exited code) => code % 256 ≠ 0
  | .young, .told (.killed _ _) => True
  | .young, .told (.stopped _) => True
  | .traced, .told _ => True
  | .killed, .told (.killed _ _) => True
  | _, _ => False

/- What a turn leaves of the child. -/
def afterTurn (t : WaitTurn arch) : Child :=
  match t.found with
  | .told (.exited _) => .absent
  | .told (.killed _ _) => .absent
  | .told (.stopped _) =>
      if t.turn.Answers then .traced else .killed
  | .nobody => .absent

/- The turns are those of one child, in order. -/
def Lives : Child → List (WaitTurn arch) → Prop
| _, [] => True
| child, t :: turns =>
    child.Allows t.found ∧ (afterTurn t).Lives turns

end Child

end Errmark

------------------------------------------------------------
-- The Iteration That Finds The End
------------------------------------------------------------

namespace Errmark

open Foundation

variable {arch : Arch}

/- No end of the child is taken for a stop. -/
theorem Found.wIfStopped_of_end
    {found : Found}
    (hEnd : found.IsEnd) :
    wIfStopped found.status = false := by
  cases found with
  | nobody => exact wIfStopped_zero
  | told report =>
      cases report with
      | exited code => exact Report.wIfStopped_exited code
      | killed sig core =>
          exact (Report.status_killed sig core).2.1
      | stopped sig => cases hEnd

/-
  The end of the child leaves the loop if it shows in the
  status, or if a request has succeeded before.
-/
theorem leave_at_end
    {s : State arch}
    {t : WaitTurn arch}
    (hEnd : t.found.IsEnd)
    (hTold :
      t.found.status ≠ 0 ∨ s.cmd.childExited = true) :
    ∃ s', iteration s t.turn = .leave s' := by
  rcases hTold with hStatus | hExited
  · have hEnds : endsTracing t.turn.status = true := by
      rw [t.status_eq]
      simpa [endsTracing, Found.wIfStopped_of_end hEnd]
        using hStatus
    exact ⟨_, iteration_of_ends s hEnds⟩
  · exact leave_of_gone (t.gone hEnd).getRegs hExited

/- A nobody that no request has told about is not noticed. -/
theorem stays_with_nobody
    {s s' : State arch}
    {t : WaitTurn arch}
    (hNobody : t.found = .nobody)
    (hExited : s.cmd.childExited = false) :
    iteration s t.turn ≠ .leave s' := by
  have hEnd : t.found.IsEnd := by
    rw [hNobody]
    trivial
  have hStatus : t.turn.status = 0 := by
    rw [t.status_eq, hNobody]
    rfl
  have hEnds : endsTracing t.turn.status = false := by
    rw [hStatus]
    rfl
  intro hLeave
  have hSeen := seen_of_leave hLeave
  simp [State.seen, hEnds, (t.gone hEnd).getRegs, hExited,
    Reply.isGone] at hSeen

end Errmark

------------------------------------------------------------
-- What errmark Knows About The Child
------------------------------------------------------------

namespace Errmark

open Foundation

variable {arch : Arch}

namespace Child

/-
  There is a child, and errmark has noticed it if it can end
  with a status of 0.
-/
structure Known
    (child : Child)
    (s : State arch) : Prop where
  present : child ≠ .absent
  noticed :
    child = .traced → s.cmd.childExited = true

/- The end of a child that is known leaves the loop. -/
theorem Known.leaves
    {child : Child}
    {s : State arch}
    {t : WaitTurn arch}
    (hKnown : child.Known s)
    (hAllows : child.Allows t.found)
    (hEnd : t.found.IsEnd) :
    ∃ s', iteration s t.turn = .leave s' := by
  apply leave_at_end hEnd
  cases child with
  | absent => exact absurd rfl hKnown.present
  | traced => exact Or.inr (hKnown.noticed rfl)
  | young =>
      left
      cases hFound : t.found with
      | nobody => simp [Allows, hFound] at hAllows
      | told report =>
          cases report with
          | exited code =>
              simp only [Allows, hFound] at hAllows
              intro hZero
              exact hAllows
                ((Report.status_exited_eq_zero_iff
                  code).mp hZero)
          | killed sig core =>
              exact (Report.status_killed sig core).1
          | stopped sig =>
              simp [Found.IsEnd, hFound] at hEnd
  | killed =>
      left
      cases hFound : t.found with
      | nobody => simp [Allows, hFound] at hAllows
      | told report =>
          cases report with
          | exited code => simp [Allows, hFound] at hAllows
          | killed sig core =>
              exact (Report.status_killed sig core).1
          | stopped sig => simp [Allows, hFound] at hAllows

/- What goes on is a stop, and leaves the child known. -/
theorem Known.step
    {child : Child}
    {s s' : State arch}
    {t : WaitTurn arch}
    (hKnown : child.Known s)
    (hAllows : child.Allows t.found)
    (hNext : iteration s t.turn = .next s') :
    (afterTurn t).Known s' := by
  have hStop : ¬ t.found.IsEnd := by
    intro hEnd
    rcases hKnown.leaves hAllows hEnd with ⟨last, hLeave⟩
    rw [hLeave] at hNext
    cases hNext
  cases hFound : t.found with
  | nobody => simp [Found.IsEnd, hFound] at hStop
  | told report =>
      cases report with
      | exited code => simp [Found.IsEnd, hFound] at hStop
      | killed sig core =>
          simp [Found.IsEnd, hFound] at hStop
      | stopped sig =>
          by_cases hAnswers : t.turn.Answers
          · have hSeen :=
              (steps_of_iteration hNext).childExited
                hAnswers.1
            constructor
            · simp [afterTurn, hFound, hAnswers]
            · exact fun _ => hSeen
          · constructor
            · simp [afterTurn, hFound, hAnswers]
            · simp [afterTurn, hFound, hAnswers]

/- As long as the loop goes on, the child stays known. -/
theorem known_of_run
    {child : Child}
    {s s' : State arch}
    {pre post : List (WaitTurn arch)}
    {t : WaitTurn arch}
    (hKnown : child.Known s)
    (hLives : child.Lives (pre ++ t :: post))
    (hRun :
      run iteration s (pre.map WaitTurn.turn) =
        .next s') :
    ∃ last : Child, last.Known s' ∧
      last.Allows t.found := by
  induction pre generalizing child s with
  | nil =>
      cases hRun
      exact ⟨child, hKnown, hLives.1⟩
  | cons u pre ih =>
      rw [List.map_cons, run_cons,
        Outcome.andThen_eq_next_iff] at hRun
      rcases hRun with ⟨mid, hFirst, hRest⟩
      rcases hLives with ⟨hAllows, hTail⟩
      exact ih (hKnown.step hAllows hFirst) hTail hRest

/- A child that was forked is known from the start. -/
theorem known_begin
    {setup : Setup arch}
    (hPid : setup.pid ≠ -1) :
    (ofPid setup.pid).Known setup.begin := by
  constructor
  · simp [ofPid, hPid]
  · simp [ofPid, hPid]

end Child

end Errmark
