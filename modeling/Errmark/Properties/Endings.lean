import Errmark.Tracee.Stops

/-
  How errmark ends, and how the program it traces does.

  A stop of another signal than the two expected ones, and a
  copy that finds no room, end errmark while its program is
  alive, with the number of the signal or with 8. Otherwise
  its exit code is made of the report about the end of the
  program, shifted as `main` shifts it.

  Key definitions include:
    * `KeepsTracing`
    * `Termination`
    * `State.earlyCode`
    * `Setup.ExitsWith`
    * `State.EndsWith`

  Key theorems include:
    * `errmark_traces_iff`
    * `endsWith_of_stops`
    * `Termination.exitsWith_code`
    * `Termination.exit_code_tells_iff`
-/

------------------------------------------------------------
-- A Live Program
------------------------------------------------------------

namespace Errmark

open Foundation

variable {arch : Arch}

/- What a stop must be for the tracing to go on. -/
def KeepsTracing
    (s : State arch)
    (stop : Stop arch) : Prop :=
  stop.kind.reported.Expected ∧
    ∀ w, s.intercepted stop.turn = some w →
      w.IsCopied s.cmd.copyFh → stop.malloc.isSome

/-
  errmark is still tracing after some stops of the program
  exactly when each of them was one of an expected signal,
  and each copied write found room for its copy.
-/
theorem errmark_traces_iff
    (setup : Setup arch)
    (stops : List (Stop arch)) :
    (∃ s, setup.errmark (stops.map Stop.turn) = .next s) ↔
      Everywhere (fun s stop => iteration s stop.turn)
        KeepsTracing setup.begin stops := by
  have hRun :
      (∃ s, setup.errmark (stops.map Stop.turn) =
          .next s) ↔
        ∃ s, run (fun s stop => iteration s stop.turn)
          setup.begin stops = .next s := by
    apply exists_congr
    intro s
    rw [Setup.errmark_eq, Outcome.onLeave_eq_next_iff,
      Outcome.onLeave_eq_next_iff, run_map]
  rw [hRun]
  exact
    run_next_iff_everywhere (Q := fun _ => True)
      (fun s stop _ => iteration_stop_iff)
      (fun _ _ => trivial)

/- The user stops the program from its terminal. -/
def sampleStopSignal : Signal :=
  ⟨20, by decide, by decide⟩

/- errmark returns while its program is only stopped. -/
theorem sample_stop_ends_errmark :
    ¬ ∃ s,
      (sampleSetup false).errmark
        (((sampleStops 1 1) ++
          [sampleWrite (.signal sampleStopSignal) 1 0 1
            none]).map Stop.turn) = .next s := by
  rintro ⟨s, hNext⟩
  have hLeaves :
      ((sampleSetup false).errmark
        (((sampleStops 1 1) ++
          [sampleWrite (.signal sampleStopSignal) 1 0 1
            none]).map Stop.turn)).leaves = true := by
    decide +kernel
  rw [hNext] at hLeaves
  cases hLeaves

end Errmark

------------------------------------------------------------
-- A Program That Ends
------------------------------------------------------------

namespace Errmark

open Foundation

variable {arch : Arch}

/- A report that the program was killed by a signal. -/
def Report.IsKilled : Report → Prop
| .exited _ => False
| .killed _ _ => True
| .stopped _ => False

/- A turn that follows a stop of some signal. -/
structure StopTurn (arch : Arch) where
  sig : Signal
  turn : Turn arch
  status_eq : turn.status = (Report.stopped sig).status
  benign : turn.Benign

/-
  A run of a program up to its end. It stops at least once,
  after it was executed; a request finds no child only if
  the program was killed while it was stopped; when its end
  is reported there is no child any more.
-/
structure Termination (arch : Arch) where
  stops : List (StopTurn arch)
  last : Turn arch
  ending : Report
  ne_nil : stops ≠ []
  answered_or_killed :
    (∀ stop ∈ stops, stop.turn.Answers) ∨ ending.IsKilled
  ended : ∀ sig, ending ≠ .stopped sig
  last_status : last.status = ending.status
  last_gone : last.getRegs = .failed Errno.ESRCH

/- The copy of an intercepted write finds no memory. -/
def State.LacksRoom
    (s : State arch)
    (t : Turn arch) : Prop :=
  match s.intercepted t with
  | none => False
  | some w =>
      w.IsCopied s.cmd.copyFh ∧ t.malloc.isNone = true

instance (s : State arch) (t : Turn arch) :
    Decidable (s.LacksRoom t) := by
  unfold State.LacksRoom
  split <;> infer_instance

/-
  The code of errmark if it ends before its program does: at
  the first stop of another signal with the number of that
  signal, or with 8 where a copy finds no memory.
-/
def State.earlyCode
    (s : State arch) : List (StopTurn arch) → Option Nat
| [] => none
| stop :: stops =>
    if ¬ stop.sig.Expected then
      some stop.sig.number
    else if s.LacksRoom stop.turn then
      some 8
    else
      match iteration s stop.turn with
      | .next s' => s'.earlyCode stops
      | .leave _ => none
      | .halt _ _ => none

/- The code that `main` makes of the end of a program. -/
def Report.codeInMain : Report → Nat
| .exited code => (code % 256).toNat
| .killed _ _ => 0
| .stopped sig => sig.number

/- What an exit code of errmark should tell. -/
def Report.ToldBy (code : Nat) : Report → Prop
| .exited c => (code : Int) = c % 256
| .killed _ _ => code ≠ 0
| .stopped _ => True

/- errmark ends by `exit` with a code, in `main` or before. -/
def Setup.ExitsWith
    (setup : Setup arch)
    (turns : List (Turn arch))
    (code : Nat) : Prop :=
  (∃ s', setup.errmark turns = .leave s' ∧
      mainExitCode s' = code) ∨
    ∃ s', setup.errmark turns = .halt (.exit code) s'

/- It does not end with two codes. -/
theorem Setup.ExitsWith.unique
    {setup : Setup arch}
    {turns : List (Turn arch)}
    {code code' : Nat}
    (hExits : setup.ExitsWith turns code)
    (hExits' : setup.ExitsWith turns code') :
    code' = code := by
  rcases hExits with ⟨s, hLeave, hCode⟩ | ⟨s, hHalt⟩
  · rcases hExits' with ⟨s', hLeave', hCode'⟩ | ⟨s', hHalt'⟩
    · rw [hLeave, Outcome.leave.injEq] at hLeave'
      rw [← hCode, ← hCode', hLeave']
    · rw [hLeave] at hHalt'
      cases hHalt'
  · rcases hExits' with ⟨s', hLeave', hCode'⟩ | ⟨s', hHalt'⟩
    · rw [hHalt] at hLeave'
      cases hLeave'
    · rw [hHalt] at hHalt'
      cases hHalt'
      rfl

namespace Termination

/- What errmark meets in the run of a program. -/
def turns (life : Termination arch) : List (Turn arch) :=
  life.stops.map StopTurn.turn ++ [life.last]

/- The code that errmark ends with before the program. -/
def earlyCode
    (setup : Setup arch)
    (life : Termination arch) : Option Nat :=
  setup.begin.earlyCode life.stops

/- The exit code that errmark ends with. -/
def code
    (setup : Setup arch)
    (life : Termination arch) : Nat :=
  (life.earlyCode setup).getD life.ending.codeInMain

end Termination

/- A stop of another signal ends the tracing at once. -/
theorem iteration_foreign
    (s : State arch)
    {stop : StopTurn arch}
    (hSig : ¬ stop.sig.Expected) :
    iteration s stop.turn =
      .leave
        (childEnded (waitForChild s stop.turn)
          (Report.stopped stop.sig).status) := by
  have hEnds : endsTracing stop.turn.status = true := by
    rw [stop.status_eq]
    have hIff := endsTracing_stopped stop.sig
    simpa [hSig] using hIff
  rw [iteration_of_ends s hEnds, stop.status_eq]

/- A copy without memory ends errmark with 8. -/
theorem iteration_lacks_room
    {s : State arch}
    {stop : StopTurn arch}
    (hLacks : s.LacksRoom stop.turn) :
    ∃ s', iteration s stop.turn = .halt (.exit 8) s' := by
  unfold State.LacksRoom at hLacks
  cases hWrite : s.intercepted stop.turn with
  | none => simp [hWrite] at hLacks
  | some w =>
      simp only [hWrite, Option.isNone_iff_eq_none]
        at hLacks
      exact
        ⟨_, iteration_out_of_memory hWrite hLacks.1
          stop.benign.2.1 hLacks.2⟩

/- A stop of an expected signal, whatever the answers are. -/
theorem iteration_expected
    (s : State arch)
    {stop : StopTurn arch}
    (hSig : stop.sig.Expected)
    (hRoom : ¬ s.LacksRoom stop.turn) :
    (∃ s', iteration s stop.turn = .next s') ∨
      (stop.turn.getRegs = .failed Errno.ESRCH ∧
        iteration s stop.turn =
          .leave (fetched s stop.turn)) := by
  have hEnds : endsTracing stop.turn.status = false := by
    rw [stop.status_eq]
    exact (endsTracing_stopped stop.sig).mpr hSig
  rcases stop.benign with ⟨hGetRegs, hSetRegs, hResume⟩
  cases hSeen : s.seen stop.turn with
  | none =>
      rcases iteration_of_not_seen hSeen with
        ⟨hOther, _⟩ | ⟨_, hReply, _, hLeave⟩ |
          ⟨_, hFatal, _⟩
      · rw [hEnds] at hOther
        cases hOther
      · exact Or.inr ⟨hReply, hLeave⟩
      · exact absurd hGetRegs hFatal
  | some regs =>
      left
      apply iteration_goes_on hSeen hSetRegs hResume
      intro w hWrite hCopy
      by_contra hNone
      apply hRoom
      simp only [State.LacksRoom, hWrite]
      exact ⟨hCopy, by simpa using hNone⟩

/- The report about the end of the program. -/
theorem iteration_last
    (s : State arch)
    {last : Turn arch}
    {ending : Report}
    (hEnded : ∀ sig, ending ≠ .stopped sig)
    (hStatus : last.status = ending.status)
    (hGone : last.getRegs = .failed Errno.ESRCH)
    (hExited : s.cmd.childExited = true ∨ ending.IsKilled)
    (hExitStatus : s.exitStatus = 0) :
    ∃ s', iteration s last = .leave s' ∧
      exitCode s'.exitStatus = ending.codeInMain := by
  cases ending with
  | stopped sig => exact absurd rfl (hEnded sig)
  | killed sig core =>
      rcases Report.status_killed sig core with
        ⟨hNonzero, hStopped, hCode⟩
      have hEnds : endsTracing last.status = true := by
        rw [hStatus]
        simpa [endsTracing, hStopped] using hNonzero
      refine ⟨_, iteration_of_ends s hEnds, ?_⟩
      rw [exitStatus_childEnded, hStatus, hCode]
      rfl
  | exited code =>
      have hCode := Report.exitCode_status_exited code
      have hMain :
          exitCode (Report.exited code).status =
            Report.codeInMain (.exited code) := by
        change _ = (code % 256).toNat
        omega
      by_cases hZero : code % 256 = 0
      · have hWord : last.status = 0 := by
          rw [hStatus]
          exact (Report.status_exited_eq_zero_iff code).mpr hZero
        have hEnds : endsTracing last.status = false := by
          rw [hWord]
          rfl
        have hFlag : s.cmd.childExited = true := by
          rcases hExited with hFlag | hKilled
          · exact hFlag
          · cases hKilled
        refine ⟨_, iteration_of_gone hEnds hGone hFlag, ?_⟩
        rw [fetched_exitStatus, hExitStatus, ← hMain,
          ← hStatus, hWord]
      · have hNonzero : last.status ≠ 0 := by
          rw [hStatus]
          exact fun hEq =>
            hZero
              ((Report.status_exited_eq_zero_iff code).mp
                hEq)
        have hEnds : endsTracing last.status = true := by
          rw [hStatus] at hNonzero ⊢
          simpa [endsTracing] using hNonzero
        refine ⟨_, iteration_of_ends s hEnds, ?_⟩
        rw [exitStatus_childEnded, hStatus, hMain]

/-
  The loop ends with a code: it is left with a status that
  `main` turns into the code, or errmark exits in it.
-/
def State.EndsWith
    (s : State arch)
    (turns : List (Turn arch))
    (code : Nat) : Prop :=
  (∃ s', run iteration s turns = .leave s' ∧
      exitCode s'.exitStatus = code) ∨
    ∃ s', run iteration s turns = .halt (.exit code) s'

namespace State.EndsWith

variable {s s' : State arch}
variable {t : Turn arch}
variable {code : Nat}

/- An iteration that goes on leaves the code to the others. -/
theorem cons
    {turns : List (Turn arch)}
    (hNext : iteration s t = .next s')
    (hEnds : s'.EndsWith turns code) :
    s.EndsWith (t :: turns) code := by
  unfold State.EndsWith at hEnds ⊢
  rw [run_cons, hNext, Outcome.next_andThen]
  exact hEnds

/- One that leaves the loop decides it by the status. -/
theorem of_leave
    (turns : List (Turn arch))
    (hLeave : iteration s t = .leave s')
    (hCode : exitCode s'.exitStatus = code) :
    s.EndsWith (t :: turns) code := by
  left
  refine ⟨s', ?_, hCode⟩
  rw [run_cons, hLeave, Outcome.leave_andThen]

/- One that exits decides it at once. -/
theorem of_exit
    (turns : List (Turn arch))
    (hHalt : iteration s t = .halt (.exit code) s') :
    s.EndsWith (t :: turns) code := by
  right
  refine ⟨s', ?_⟩
  rw [run_cons, hHalt, Outcome.halt_andThen]

end State.EndsWith

/- A status of 0 stands for a program that was killed. -/
theorem Report.IsKilled.codeInMain_eq
    {ending : Report}
    (hKilled : ending.IsKilled) :
    exitCode 0 = ending.codeInMain := by
  cases ending with
  | exited code => cases hKilled
  | killed sig core => rfl
  | stopped sig => cases hKilled

/-
  The loop over the stops of a program and its end, with the
  early code, if there is one, or else the code made of the
  end of the program. By induction on the stops: as long as
  the loop goes on, the status is 0, and either the child
  has been found or the program is killed in the end.
-/
theorem endsWith_of_stops
    {stops : List (StopTurn arch)}
    {last : Turn arch}
    {ending : Report}
    (hAnswered :
      (∀ stop ∈ stops, stop.turn.Answers) ∨
        ending.IsKilled)
    (hEnded : ∀ sig, ending ≠ .stopped sig)
    (hStatus : last.status = ending.status)
    (hGone : last.getRegs = .failed Errno.ESRCH)
    {s : State arch}
    (hExitStatus : s.exitStatus = 0)
    (hExited :
      s.cmd.childExited = true ∨ stops ≠ [] ∨
        ending.IsKilled) :
    s.EndsWith (stops.map StopTurn.turn ++ [last])
      ((s.earlyCode stops).getD ending.codeInMain) := by
  induction stops generalizing s with
  | nil =>
      have hFlag :
          s.cmd.childExited = true ∨ ending.IsKilled := by
        simpa using hExited
      rcases iteration_last s hEnded hStatus hGone hFlag
          hExitStatus with ⟨s', hLeave, hCode⟩
      exact State.EndsWith.of_leave [] hLeave hCode
  | cons stop stops ih =>
      rw [State.earlyCode, List.map_cons, List.cons_append]
      by_cases hSig : stop.sig.Expected
      · rw [if_neg (not_not_intro hSig)]
        by_cases hLacks : s.LacksRoom stop.turn
        · rw [if_pos hLacks]
          rcases iteration_lacks_room hLacks with
            ⟨s', hHalt⟩
          exact State.EndsWith.of_exit _ hHalt
        · rw [if_neg hLacks]
          rcases iteration_expected s hSig hLacks with
            ⟨mid, hNext⟩ | ⟨hReply, hLeave⟩
          · have hStep := steps_of_iteration hNext
            rw [hNext]
            apply State.EndsWith.cons hNext
            apply ih
            · exact hAnswered.imp_left fun hAll other hMem =>
                hAll other (List.mem_cons_of_mem stop hMem)
            · exact
                hStep.sameOptions.exitStatus.trans
                  hExitStatus
            · rcases hAnswered with hAll | hEnding
              · have hHead := hAll stop (by simp)
                exact Or.inl (hStep.childExited hHead.1)
              · exact Or.inr (Or.inr hEnding)
          · rw [hLeave]
            apply State.EndsWith.of_leave _ hLeave
            rw [fetched_exitStatus, hExitStatus]
            rcases hAnswered with hAll | hEnding
            · have hHead := (hAll stop (by simp)).1
              rw [hReply] at hHead
              cases hHead
            · exact hEnding.codeInMain_eq
      · rw [if_pos hSig]
        apply State.EndsWith.of_leave _
          (iteration_foreign s hSig)
        rw [exitStatus_childEnded,
          Report.exitCode_status_stopped]
        rfl

namespace Termination

/- Whatever happens, errmark ends with its code. -/
theorem exitsWith_code
    (setup : Setup arch)
    (life : Termination arch) :
    setup.ExitsWith life.turns (life.code setup) := by
  have hEnds :
      setup.begin.EndsWith life.turns
        (life.code setup) :=
    endsWith_of_stops life.answered_or_killed life.ended
      life.last_status life.last_gone rfl
      (Or.inr (Or.inl life.ne_nil))
  unfold Setup.ExitsWith
  rw [Setup.errmark_eq]
  rcases hEnds with ⟨s', hLeave, hCode⟩ | ⟨s', hHalt⟩
  · left
    refine ⟨afterTracing (afterLoop s'), ?_, ?_⟩
    · rw [hLeave, Outcome.onLeave_leave,
        Outcome.onLeave_leave]
    · rw [mainExitCode, rc_afterTracing,
        exitStatus_afterLoop, hCode]
  · right
    refine ⟨s', ?_⟩
    rw [hHalt, Outcome.onLeave_halt, Outcome.onLeave_halt]

/-
  The program exits without another signal or a copy that
  finds no memory before, or the code errmark has ended with
  before is by chance one that tells how the program ends.
-/
def IsTold
    (setup : Setup arch)
    (life : Termination arch) : Prop :=
  match life.earlyCode setup with
  | none => ∃ code, life.ending = .exited code
  | some early =>
      ∀ code, life.ending = .exited code →
        code % 256 = early

/- An early code is never 0. -/
theorem earlyCode_ne_zero
    {s : State arch}
    {stops : List (StopTurn arch)}
    {early : Nat}
    (hEarly : s.earlyCode stops = some early) :
    early ≠ 0 := by
  induction stops generalizing s with
  | nil => cases hEarly
  | cons stop stops ih =>
      rw [State.earlyCode] at hEarly
      split at hEarly
      · cases hEarly
        exact Nat.pos_iff_ne_zero.mp stop.sig.pos
      · split at hEarly
        · cases hEarly
          decide
        · split at hEarly
          · exact ih hEarly
          · cases hEarly
          · cases hEarly

/- The code tells the ending exactly under that condition. -/
theorem toldBy_code_iff
    (setup : Setup arch)
    (life : Termination arch) :
    life.ending.ToldBy (life.code setup) ↔
      life.IsTold setup := by
  unfold code IsTold
  cases hEarly : life.earlyCode setup with
  | none =>
      rw [Option.getD_none]
      cases hEnding : life.ending with
      | exited code =>
          have hSame :
              (((code % 256).toNat : Nat) : Int) =
                code % 256 := by
            omega
          simp [Report.ToldBy, Report.codeInMain, hSame]
      | killed sig core =>
          simp [Report.ToldBy, Report.codeInMain]
      | stopped sig => exact absurd hEnding (life.ended sig)
  | some early =>
      rw [Option.getD_some]
      cases hEnding : life.ending with
      | exited code =>
          simp only [Report.ToldBy, Report.exited.injEq]
          constructor
          · rintro hCode other rfl
            exact hCode.symm
          · intro hAll
            exact (hAll code rfl).symm
      | killed other core =>
          simp [Report.ToldBy, earlyCode_ne_zero hEarly]
      | stopped other =>
          exact absurd hEnding (life.ended other)

/-
  errmark exits with a code that tells how the program ended
  exactly when the program exited and neither a stop for
  another signal nor a copy without memory came first, up to
  a coincidence of numbers.
-/
theorem exit_code_tells_iff
    (setup : Setup arch)
    (life : Termination arch) :
    (∃ code,
        setup.ExitsWith life.turns code ∧
          life.ending.ToldBy code) ↔
      life.IsTold setup := by
  have hExits := life.exitsWith_code setup
  rw [← life.toldBy_code_iff setup]
  constructor
  · rintro ⟨code, hCode, hTold⟩
    rw [hExits.unique hCode] at hTold
    exact hTold
  · intro hTold
    exact ⟨life.code setup, hExits, hTold⟩

end Termination

/- A program that is killed right after it was executed. -/
def sampleKilled : Termination .x86_64 where
  stops :=
    [{ sig := .trap
       turn := sampleExec.turn
       status_eq := rfl
       benign :=
        ⟨Reply.benign_ok, Reply.benign_ok,
          Reply.benign_ok⟩ }]
  last := goneTurn (Report.killed ⟨9, by decide, by decide⟩
    false).status
  ending := .killed ⟨9, by decide, by decide⟩ false
  ne_nil := by simp
  answered_or_killed := Or.inr trivial
  ended := by
    intro sig hEq
    cases hEq
  last_status := rfl
  last_gone := rfl

/- errmark reports success for a program that was killed. -/
theorem sample_killed_not_told :
    ¬ ∃ code,
      (sampleSetup false).ExitsWith sampleKilled.turns
          code ∧
        sampleKilled.ending.ToldBy code := by
  rintro ⟨code, hExits, hTold⟩
  have hLeaves :
      ((sampleSetup false).errmark
        sampleKilled.turns).leaves = true := by
    decide +kernel
  have hZero :
      mainExitCode
        ((sampleSetup false).errmark
          sampleKilled.turns).final = 0 := by
    decide +kernel
  have hExits' :
      (sampleSetup false).ExitsWith sampleKilled.turns 0 :=
    Or.inl
      ⟨_, Outcome.eq_leave_of_leaves hLeaves, hZero⟩
  rw [← hExits.unique hExits'] at hTold
  exact hTold rfl

end Errmark
