import Errmark.Tracee.Stops

/-
  `child_exited`, and the registers errmark acts on when its
  request for them finds no child.

  The flag is true once a request has not failed with ESRCH,
  which is the opposite of what its name says. The loop
  still ends at a lost child because some request has
  succeeded before, unless the very first one failed.

  Key definitions include:
    * `Noted`
    * `GuardReturns`
    * `TellsOfLoss`
    * `FreshRegisters`

  Key theorems include:
    * `Noted.step`
    * `GuardReturns.noted`
    * `fresh_registers_iff`
    * `no_stale_registers_iff`
-/

------------------------------------------------------------
-- What child_exited Says
------------------------------------------------------------

namespace Errmark

open Foundation

variable {arch : Arch}

/- `child_exited` is true once a request has not missed. -/
def Noted (s : State arch) : Prop :=
  s.cmd.childExited = true ↔
    ∃ reply ∈ guardRepliesOf s.requests,
      reply ≠ .failed Errno.ESRCH

/- The flag as a test over the answers. -/
theorem noted_iff {s : State arch} :
    Noted s ↔
      s.cmd.childExited =
        (guardRepliesOf s.requests).any fun reply =>
          !reply.isGone := by
  rw [Bool.eq_iff_iff]
  simp [Noted, Reply.isGone]

/- An iteration makes its requests in this order. -/
theorem Steps.guardReplies
    {s s' : State arch}
    {t : Turn arch}
    (hStep : Steps s t s') :
    guardRepliesOf s'.requests =
      guardRepliesOf s.requests ++ t.getRegs ::
        ((if (s.writtenBack t).isEmpty then []
          else [t.setRegs]) ++ [t.resume]) := by
  cases hStep with
  | idle regs hSeen hCall =>
      simp [State.writtenBack, hSeen, hCall, resumed]
  | skipped regs hSeen hCall hToggle hFd =>
      simp [State.writtenBack, hSeen, hCall, hToggle, hFd,
        resumed, noteDone]
  | streamed regs hSeen hCall hToggle hFd hCopy =>
      simp [State.writtenBack, hSeen, hCall, hToggle, hFd,
        resumed, noteDone, streamWrite]
  | copied regs hSeen hCall hToggle hFd hCopy block hBlock =>
      simp [State.writtenBack, hSeen, hCall, hToggle, hFd,
        resumed, noteDone, copyWrite]
  | left regs hSeen hCall hToggle =>
      simp [State.writtenBack, hSeen, hCall, hToggle,
        resumed, noteDone, noteSysWrite]

namespace Noted

variable {s s' : State arch}
variable {t : Turn arch}

/- Each iteration keeps the flag true to the answers. -/
theorem step
    (hNoted : Noted s)
    (hStep : Steps s t s') :
    Noted s' := by
  rw [noted_iff] at hNoted ⊢
  rw [hStep.childExited_eq, hStep.guardReplies, hNoted]
  by_cases hNone : (s.writtenBack t).isEmpty = true
  · simp [hNone, Bool.or_assoc]
  · simp [hNone, Bool.or_assoc]

/- There is nothing to note before the first request. -/
theorem begin (setup : Setup arch) :
    Noted setup.begin := by
  rw [noted_iff]
  rfl

end Noted

end Errmark

------------------------------------------------------------
-- After Every Call Of guard_ptrace
------------------------------------------------------------

namespace Errmark

open Foundation

variable {arch : Arch}

/-
  The states in which `guard_ptrace` returns to an
  iteration: from the request for the registers, from the
  one that writes them back at the entry or the exit of a
  write, and from the one that resumes the child.
-/
inductive GuardReturns
    (s : State arch)
    (t : Turn arch) : State arch → Prop where
  | getRegs
      (hGoesOn : endsTracing t.status = false) :
      GuardReturns s t (fetched s t)
  | entry
      (w : Write arch)
      (hWrite : s.intercepted t = some w) :
      GuardReturns s t
        (answered (marked (entered s t))
          (.setRegs (marked (entered s t)).regs) t.setRegs)
  | exit
      (regs : Regs arch)
      (hSeen : s.seen t = some regs)
      (hCall : regs.ShowsWrite)
      (hToggle : s.toggle ≠ 0) :
      GuardReturns s t
        (answered (fakeReturn (noteSysWrite (fetched s t)))
          (.setRegs
            (fakeReturn (noteSysWrite (fetched s t))).regs)
          t.setRegs)
  | resume
      (s' : State arch)
      (hNext : iteration s t = .next s') :
      GuardReturns s t s'

/- After every call the flag says the same. -/
theorem GuardReturns.noted
    {s s' : State arch}
    {t : Turn arch}
    (hReturns : GuardReturns s t s')
    (hNoted : Noted s) :
    Noted s' := by
  cases hReturns with
  | getRegs hGoesOn =>
      rw [noted_iff] at hNoted ⊢
      simp [fetched, waitForChild, hNoted]
  | entry w hWrite =>
      rw [noted_iff] at hNoted ⊢
      simp [marked, nullifyWrite_eq, beforeWrite_eq,
        openMarks_eq, hNoted, Bool.or_assoc]
  | exit regs hSeen hCall hToggle =>
      rw [noted_iff] at hNoted ⊢
      simp [noteSysWrite, fakeReturn_eq, hNoted,
        Bool.or_assoc]
  | resume s' hNext =>
      exact hNoted.step (steps_of_iteration hNext)

/- Registers are only seen if the report let errmark go on. -/
theorem endsTracing_of_seen
    {s : State arch}
    {t : Turn arch}
    {regs : Regs arch}
    (hSeen : s.seen t = some regs) :
    endsTracing t.status = false := by
  unfold State.seen at hSeen
  split at hSeen
  · cases hSeen
  · next hGoesOn => simpa using hGoesOn

/- In every run the flag tells of requests that succeed. -/
theorem noted_everywhere
    (setup : Setup arch)
    (turns : List (Turn arch)) :
    Everywhere iteration
      (fun s t => ∀ s', GuardReturns s t s' → Noted s')
      setup.begin turns := by
  rw [everywhere_iff]
  intro pre t post s hSplit hRun s' hReturns
  apply hReturns.noted
  refine invariant_of_run Noted ?_ (.begin setup) hRun
  intro s t s' hNoted hNext
  exact hNoted.step (steps_of_iteration hNext)

/- `guard_ptrace` is reached only while the child is there. -/
theorem GuardReturns.goes_on
    {s s' : State arch}
    {t : Turn arch}
    (hReturns : GuardReturns s t s') :
    endsTracing t.status = false := by
  cases hReturns with
  | getRegs hGoesOn => exact hGoesOn
  | entry w hWrite =>
      rcases State.intercepted_eq_some_iff.mp hWrite with
        ⟨regs, hSeen, _⟩
      exact endsTracing_of_seen hSeen
  | exit regs hSeen hCall hToggle =>
      exact endsTracing_of_seen hSeen
  | resume s' hNext =>
      cases hEnds : endsTracing t.status with
      | false => rfl
      | true =>
          rw [iteration_of_ends s hEnds] at hNext
          cases hNext

end Errmark

------------------------------------------------------------
-- Losing The Child
------------------------------------------------------------

namespace Errmark

open Foundation

variable {arch : Arch}

/-
  After every call of `guard_ptrace`, `child_exited` is true
  exactly when some call so far has found no child.
-/
def TellsOfLoss
    (setup : Setup arch)
    (turns : List (Turn arch)) : Prop :=
  Everywhere iteration
    (fun s t =>
      ∀ s', GuardReturns s t s' →
        (s'.cmd.childExited = true ↔
          ∃ reply ∈ guardRepliesOf s'.requests,
            reply = .failed Errno.ESRCH))
    setup.begin turns

/-
  An iteration whose request for the registers has failed
  does nothing more than to leave the loop.
-/
def FreshRegisters
    (setup : Setup arch)
    (turns : List (Turn arch)) : Prop :=
  Everywhere iteration
    (fun s t =>
      endsTracing t.status = false →
        t.getRegs ≠ .ok →
          iteration s t = .leave (fetched s t))
    setup.begin turns

/- No request is made before the end is reported. -/
def AsksNothing (turns : List (Turn arch)) : Prop :=
  ∀ t, turns.head? = some t →
    endsTracing t.status = true

/- The first request for the registers succeeds, if any. -/
def FirstAnswered (turns : List (Turn arch)) : Prop :=
  ∀ t, turns.head? = some t →
    endsTracing t.status = true ∨ t.getRegs = .ok

/- Only a run without any request keeps the flag right. -/
theorem tells_of_loss_iff
    (setup : Setup arch)
    (turns : List (Turn arch)) :
    TellsOfLoss setup turns ↔ AsksNothing turns := by
  cases turns with
  | nil => simp [TellsOfLoss, AsksNothing, Everywhere]
  | cons t turns =>
      rw [TellsOfLoss, everywhere_cons_iff]
      simp only [AsksNothing, List.head?_cons,
        Option.some.injEq, forall_eq']
      constructor
      · rintro ⟨hHead, _⟩
        by_contra hEnds
        have hGoesOn : endsTracing t.status = false := by
          simpa using hEnds
        have hReturns :
            GuardReturns setup.begin t
              (fetched setup.begin t) := .getRegs hGoesOn
        have hFlag := hHead _ hReturns
        have hNoted := hReturns.noted (.begin setup)
        have hReplies :
            guardRepliesOf
                (fetched setup.begin t).requests =
              [t.getRegs] := rfl
        rw [Noted, hReplies] at hNoted
        rw [hReplies, hNoted] at hFlag
        simp only [List.mem_singleton, exists_eq_left]
          at hFlag
        exact not_iff_self hFlag
      · intro hEnds
        constructor
        · intro s' hReturns
          rw [hReturns.goes_on] at hEnds
          cases hEnds
        · intro s' hNext
          rw [iteration_of_ends _ hEnds] at hNext
          cases hNext

/- The flag is up once the first request has succeeded. -/
theorem fresh_of_exited
    {s : State arch}
    {t : Turn arch}
    (hExited : s.cmd.childExited = true)
    (hBenign : t.getRegs.Benign)
    (hGoesOn : endsTracing t.status = false)
    (hGetRegs : t.getRegs ≠ .ok) :
    iteration s t = .leave (fetched s t) := by
  have hGone : t.getRegs = .failed Errno.ESRCH := by
    rcases hBenign with hOk | hGone
    · exact absurd hOk hGetRegs
    · exact hGone
  rw [iteration_of_benign s hGoesOn hBenign]
  apply if_pos
  simp [hGone, Reply.rc, hExited]

/- Only the very first request can go wrong. -/
theorem fresh_registers_iff
    (setup : Setup arch)
    (turns : List (Turn arch))
    (hBenign : ∀ t ∈ turns, t.Benign) :
    FreshRegisters setup turns ↔ FirstAnswered turns := by
  cases turns with
  | nil =>
      simp [FreshRegisters, FirstAnswered, Everywhere]
  | cons t turns =>
      rw [FreshRegisters, everywhere_cons_iff]
      simp only [FirstAnswered, List.head?_cons,
        Option.some.injEq, forall_eq']
      constructor
      · rintro ⟨hHead, _⟩
        by_contra hNot
        push Not at hNot
        rcases hNot with ⟨hEnds, hGetRegs⟩
        have hGoesOn : endsTracing t.status = false := by
          simpa using hEnds
        have hLeave := hHead hGoesOn hGetRegs
        rcases leave_cases hLeave with
          ⟨hOther, _⟩ | ⟨_, _, hExited, _⟩
        · exact hEnds hOther
        · cases hExited
      · intro hFirst
        constructor
        · intro hGoesOn hGetRegs
          rcases hFirst with hEnds | hOk
          · rw [hGoesOn] at hEnds
            cases hEnds
          · exact absurd hOk hGetRegs
        · intro s' hNext
          have hExited : s'.cmd.childExited = true := by
            rcases hFirst with hEnds | hOk
            · rw [iteration_of_ends _ hEnds] at hNext
              cases hNext
            · exact
                (steps_of_iteration hNext).childExited hOk
          rw [everywhere_iff]
          intro pre u post mid hSplit hRun
          have hMem : u ∈ t :: turns := by
            rw [hSplit]
            simp
          have hMid : mid.cmd.childExited = true := by
            refine invariant_of_run
              (fun s : State arch =>
                s.cmd.childExited = true)
              ?_ hExited hRun
            intro s v s'' hInv hStep
            exact
              (steps_of_iteration hStep).childExited_mono
                hInv
          exact fresh_of_exited hMid (hBenign u hMem).1

/-
  The flag tells that a child was lost, and no registers
  are acted on that were not fetched, only in a run without
  any request. The second part alone holds unless the first
  request finds no child.
-/
theorem no_stale_registers_iff
    (setup : Setup arch)
    (turns : List (Turn arch))
    (hBenign : ∀ t ∈ turns, t.Benign) :
    (TellsOfLoss setup turns ∧ FreshRegisters setup turns ↔
        AsksNothing turns) ∧
      (FreshRegisters setup turns ↔
        FirstAnswered turns) := by
  have hFresh := fresh_registers_iff setup turns hBenign
  refine ⟨?_, hFresh⟩
  rw [tells_of_loss_iff, hFresh]
  constructor
  · exact fun hBoth => hBoth.1
  · intro hNothing
    exact ⟨hNothing, fun t hHead =>
      Or.inl (hNothing t hHead)⟩

/- One exec stop, whose requests succeed. -/
theorem sample_no_stale_registers :
    (TellsOfLoss (sampleSetup false) [sampleExec.turn] ∧
        FreshRegisters (sampleSetup false)
          [sampleExec.turn] ↔
      AsksNothing [sampleExec.turn]) ∧
      (FreshRegisters (sampleSetup false)
          [sampleExec.turn] ↔
        FirstAnswered [sampleExec.turn]) := by
  apply no_stale_registers_iff
  intro t hMem
  rw [List.mem_singleton.mp hMem]
  exact ⟨Reply.benign_ok, Reply.benign_ok,
    Reply.benign_ok⟩

/- The locals of `ptrace_cmd` happen to show a write. -/
def sampleGarbage : Setup .x86_64 :=
  { sampleSetup false with
    regs := .ofCall Arch.x86_64.sysWrite 1 4096 1 0 }

/- A child that is killed right after it has stopped. -/
def sampleLost : Turn .x86_64 :=
  goneTurn (Report.stopped .trap).status

/- errmark acts on registers it never got. -/
theorem sample_stale_registers :
    sampleLost.Benign ∧
      ¬ TellsOfLoss sampleGarbage [sampleLost] ∧
      ¬ FreshRegisters sampleGarbage [sampleLost] ∧
      (iteration sampleGarbage.begin
        sampleLost).final.marksWritten ≠ [] := by
  refine ⟨?_, ?_, ?_, by decide +kernel⟩
  · exact ⟨Reply.benign_gone, Reply.benign_gone,
      Reply.benign_gone⟩
  · intro hTells
    have hFlag := hTells.1 _ (.getRegs rfl)
    have hLost := hFlag.mpr ⟨_, List.mem_singleton_self _, rfl⟩
    cases hLost
  · intro hFresh
    have hLeave := hFresh.1 rfl (by decide)
    have hGoesOn :
        (iteration sampleGarbage.begin
          sampleLost).leaves = false := by
      decide +kernel
    rw [hLeave] at hGoesOn
    cases hGoesOn

end Errmark
