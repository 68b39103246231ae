import Errmark.Tracee.Waiting

/-
  Whether the loop ends when there is no child left.

  A clean exit leaves a status of 0, and so does a `wait`
  that has nobody to wait for. Then only `child_exited`
  takes errmark out of its loop, and this flag is set by
  requests that succeed. After a `fork` that failed none
  does, and errmark never returns.

  Key definitions include:
    * `LeavesAtEnd`

  Key theorems include:
    * `errmark_never_returns`
    * `loop_ends_iff`
-/

------------------------------------------------------------
-- Leaving In Time
------------------------------------------------------------

namespace Errmark

open Foundation

variable {arch : Arch}

/-
  Every iteration that finds the end of the child leaves the
  loop, so that errmark returns and waits for nobody again.
-/
def LeavesAtEnd
    (setup : Setup arch)
    (turns : List (WaitTurn arch)) : Prop :=
  ∀ pre t post s,
    turns = pre ++ t :: post →
      t.found.IsEnd →
        run iteration setup.begin (pre.map WaitTurn.turn) =
            .next s →
          ∃ last, iteration s t.turn = .leave last ∧
            setup.errmark (turns.map WaitTurn.turn) =
              .leave (afterTracing (afterLoop last))

/- What comes after the loop was left is not looked at. -/
theorem errmark_of_leave
    {setup : Setup arch}
    {pre post : List (Turn arch)}
    {t : Turn arch}
    {s last : State arch}
    (hRun : run iteration setup.begin pre = .next s)
    (hLeave : iteration s t = .leave last) :
    setup.errmark (pre ++ t :: post) =
      .leave (afterTracing (afterLoop last)) := by
  rw [Setup.errmark_eq, run_append, hRun,
    Outcome.next_andThen, run_cons, hLeave,
    Outcome.leave_andThen, Outcome.onLeave_leave,
    Outcome.onLeave_leave]

end Errmark

------------------------------------------------------------
-- A fork That Failed
------------------------------------------------------------

namespace Errmark

open Foundation

variable {arch : Arch}

/- Without a child every `wait` finds nobody. -/
theorem Child.Lives.nobody
    {turns : List (WaitTurn arch)}
    (hLives : Child.absent.Lives turns) :
    ∀ t ∈ turns, t.found = .nobody := by
  induction turns with
  | nil => simp
  | cons t turns ih =>
      rcases hLives with ⟨hAllows, hTail⟩
      have hNobody : t.found = .nobody := by
        cases hFound : t.found with
        | nobody => rfl
        | told report =>
            simp [Child.Allows, hFound] at hAllows
      have hAfter : Child.afterTurn t = .absent := by
        simp [Child.afterTurn, hNobody]
      rw [hAfter] at hTail
      intro u hMem
      rcases List.mem_cons.mp hMem with rfl | hRest
      · exact hNobody
      · exact ih hTail u hRest

/- Requests that find no child leave the flag as it is. -/
theorem childExited_of_nobody
    {turns : List (WaitTurn arch)}
    {s s' : State arch}
    (hNobody : ∀ t ∈ turns, t.found = .nobody)
    (hExited : s.cmd.childExited = false)
    (hRun :
      run iteration s (turns.map WaitTurn.turn) =
        .next s') :
    s'.cmd.childExited = false := by
  induction turns generalizing s with
  | nil =>
      cases hRun
      exact hExited
  | cons t turns ih =>
      rw [List.map_cons, run_cons,
        Outcome.andThen_eq_next_iff] at hRun
      rcases hRun with ⟨mid, hFirst, hRest⟩
      have hEnd : t.found.IsEnd := by
        rw [hNobody t (by simp)]
        trivial
      have hGone := t.gone hEnd
      have hFlag : mid.cmd.childExited = false := by
        simp [(steps_of_iteration hFirst).childExited_eq,
          hGone.getRegs, hGone.setRegs, hGone.resume,
          Reply.isGone, hExited]
      exact ih (fun u hMem => hNobody u (by simp [hMem]))
        hFlag hRest

/- With nobody to trace errmark stays in its loop forever. -/
theorem errmark_never_returns
    {setup : Setup arch}
    {turns : List (WaitTurn arch)}
    (hPid : setup.pid = -1)
    (hLives : (Child.ofPid setup.pid).Lives turns)
    (s' : State arch) :
    setup.errmark (turns.map WaitTurn.turn) ≠
      .leave s' := by
  have hNobody : ∀ t ∈ turns, t.found = .nobody := by
    apply Child.Lives.nobody
    simpa [Child.ofPid, hPid] using hLives
  intro hLeave
  rcases Setup.errmark_leave hLeave with
    ⟨pre, u, post, mid, last, hSplit, hRun, hLast, _⟩
  rcases List.map_eq_append_iff.mp hSplit with
    ⟨before, rest, hTurns, hPre, hRest⟩
  rcases List.map_eq_cons_iff.mp hRest with
    ⟨t, after, hCons, hTurn, _⟩
  have hMem : ∀ v ∈ before ++ t :: after, v ∈ turns := by
    rw [hTurns, hCons]
    exact fun v hv => hv
  have hExited : mid.cmd.childExited = false := by
    rw [← hPre] at hRun
    apply childExited_of_nobody _ rfl hRun
    exact fun v hv => hNobody v (hMem v (by simp [hv]))
  rw [← hTurn] at hLast
  exact stays_with_nobody
    (hNobody t (hMem t (by simp))) hExited hLast

end Errmark

------------------------------------------------------------
-- The End Of The Child
------------------------------------------------------------

namespace Errmark

open Foundation

variable {arch : Arch}

/-
  The loop is left as soon as there is no child any more
  exactly when there was a child to begin with.
-/
theorem loop_ends_iff
    (setup : Setup arch)
    (turns : List (WaitTurn arch))
    (hLives : (Child.ofPid setup.pid).Lives turns) :
    LeavesAtEnd setup turns ↔
      setup.pid ≠ -1 ∨ turns = [] := by
  constructor
  · intro hEnds
    by_cases hPid : setup.pid = -1
    · right
      cases turns with
      | nil => rfl
      | cons t turns =>
          have hAbsent :
              Child.absent.Lives (t :: turns) := by
            simpa [Child.ofPid, hPid] using hLives
          have hNobody : t.found = .nobody :=
            hAbsent.nobody t (by simp)
          have hEnd : t.found.IsEnd := by
            rw [hNobody]
            trivial
          rcases hEnds [] t turns setup.begin rfl hEnd rfl
            with ⟨last, _, hReturns⟩
          exact absurd hReturns
            (errmark_never_returns hPid hLives _)
    · exact Or.inl hPid
  · rintro (hPid | hNil)
    · intro pre t post s hSplit hEnd hRun
      rw [hSplit] at hLives
      rcases Child.known_of_run (Child.known_begin hPid)
          hLives hRun with ⟨child, hKnown, hAllows⟩
      rcases hKnown.leaves hAllows hEnd with
        ⟨last, hLeave⟩
      refine ⟨last, hLeave, ?_⟩
      rw [hSplit, List.map_append, List.map_cons]
      exact errmark_of_leave hRun hLeave
    · intro pre t post s hSplit
      simp [hNil] at hSplit

/- `wait` finds the end of the child, or nobody at all. -/
def sampleEnd (found : Found) : WaitTurn .x86_64 where
  found := found
  turn := goneTurn found.status
  status_eq := rfl
  gone := fun _ => ⟨rfl, rfl, rfl, fun _ => rfl⟩
  benign := fun _ =>
    ⟨Reply.benign_gone, Reply.benign_gone,
      Reply.benign_gone⟩

/- A program that exits right after it was executed. -/
def sampleLife : List (WaitTurn .x86_64) :=
  [{ found := .told (.stopped .trap)
     turn := sampleExec.turn
     status_eq := sampleExec.turn_status
     gone := fun hEnd => hEnd.elim
     benign := fun _ =>
      ⟨Reply.benign_ok, Reply.benign_ok,
        Reply.benign_ok⟩ },
    sampleEnd (.told (.exited 0))]

/- The end of the sample child is the end of the loop. -/
theorem sample_loop_ends :
    LeavesAtEnd (sampleSetup false) sampleLife ↔
      (sampleSetup false).pid ≠ -1 ∨ sampleLife = [] := by
  apply loop_ends_iff
  exact ⟨trivial, trivial, trivial⟩

/- errmark after a `fork` that failed. -/
def sampleForkFailed : Setup .x86_64 :=
  { sampleSetup false with
    pid := -1
    pid_ne_zero := by decide }

/- errmark goes on waiting for nobody. -/
theorem sample_loop_does_not_end :
    (Child.ofPid sampleForkFailed.pid).Lives
        [sampleEnd .nobody] ∧
      ¬ LeavesAtEnd sampleForkFailed
        [sampleEnd .nobody] := by
  have hLives :
      (Child.ofPid sampleForkFailed.pid).Lives
        [sampleEnd .nobody] := ⟨trivial, trivial⟩
  refine ⟨hLives, ?_⟩
  intro hEnds
  rcases hEnds [] (sampleEnd .nobody) []
      sampleForkFailed.begin rfl trivial rfl with
    ⟨last, _, hReturns⟩
  exact errmark_never_returns rfl hLives _ hReturns

end Errmark
