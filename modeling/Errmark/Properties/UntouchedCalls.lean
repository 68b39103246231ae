import Errmark.Foundation.Omissions
import Errmark.Program.Leaving
import Errmark.Tracee.Tracking

/-
  The calls errmark has no interest in.

  At both stops of such a call errmark resumes the program
  with the registers the kernel left, and makes no output
  call at all, unless `--debug` reports a write to another
  descriptor. A run without these calls makes the same
  output calls, but for these reports.

  Key definitions include:
    * `Stop.EntersOther`
    * `Stop.debugText`
    * `LeftAlone`
    * `OtherCall`
    * `SameOutput`

  Key theorems include:
    * `Tracks.leftAlone`
    * `SameOutput.step`
    * `errmark_of_omits`
    * `untouched_calls`
-/

------------------------------------------------------------
-- Stops Left Alone
------------------------------------------------------------

namespace Errmark

open Foundation

variable {arch : Arch}

/-
  The program enters a call that is no write to fd 1 or 2:
  another call, or a write to another descriptor.
-/
def Stop.EntersOther (stop : Stop arch) : Prop :=
  stop.kind = .entry ∧
    ¬ (stop.regs.ShowsWrite ∧ stop.regs.write.Watched)

instance (stop : Stop arch) : Decidable stop.EntersOther := by
  unfold Stop.EntersOther
  infer_instance

/-
  The report of `--debug` about a stop of a write to another
  descriptor, and the pause after it.
-/
def Stop.debugText
    (debug : Bool)
    (stop : Stop arch) : List Call :=
  if debug = true ∧ stop.regs.ShowsWrite then
    (if stop.kind = .entry then
      .fprintf .stderr "SYS_write; toggle=0\n" ::
        stop.regs.write.argumentText
    else
      [.fprintf .stderr "SYS_write; toggle=1\n"]) ++
      [.fprintf .stderr ".\n", .sleep 1]
  else
    []

/- Without `--debug` nothing is reported. -/
theorem Stop.debugText_false (stop : Stop arch) :
    stop.debugText false = [] := by
  simp [debugText]

/- Other calls than writes are never reported. -/
theorem Stop.debugText_of_not_showsWrite
    (debug : Bool)
    {stop : Stop arch}
    (hCall : ¬ stop.regs.ShowsWrite) :
    stop.debugText debug = [] := by
  simp [debugText, hCall]

/-
  The program is resumed from the stop with the registers
  the kernel left, and all that errmark has done for it is
  the report of `--debug`.
-/
structure LeftAlone
    (s s' : State arch)
    (stop : Stop arch) : Prop where
  childRegs : s'.childRegs = stop.regs
  curFd : s'.curFd = s.curFd
  markState : s'.cmd.markState = s.cmd.markState
  marksWritten : s'.marksWritten = s.marksWritten
  stdoutBytes : s'.stdoutBytes = s.stdoutBytes
  copyBytes : s'.copyBytes = s.copyBytes
  calls : s'.calls = s.calls ++ stop.debugText s.debug

/- The debug flags agree, and requests are not traced. -/
structure State.Plain (s : State arch) : Prop where
  cmdDebug : s.cmd.debug = s.debug
  slow : s.cmd.slow = true
  traceFbt : s.cmd.traceFbt = false

/- A plain errmark stays plain. -/
theorem State.Plain.of_sameOptions
    {s s' : State arch}
    (hPlain : s.Plain)
    (hSame : s.SameOptions s') :
    s'.Plain where
  cmdDebug := by
    rw [hSame.cmdDebug, hSame.debug, hPlain.cmdDebug]
  slow := by rw [hSame.slow, hPlain.slow]
  traceFbt := by rw [hSame.traceFbt, hPlain.traceFbt]

/- The options are those of a command line throughout. -/
theorem plain_of_run
    {setup : Setup arch}
    {turns : List (Turn arch)}
    {s : State arch}
    (hRun : run iteration setup.begin turns = .next s) :
    s.Plain := by
  have hBegin : setup.begin.Plain := ⟨rfl, rfl, rfl⟩
  exact hBegin.of_sameOptions (sameOptions_of_run hRun)

/- Another call is no watched write. -/
theorem Stop.EntersOther.not_entersWrite
    {stop : Stop arch}
    (hOther : stop.EntersOther) :
    ¬ stop.EntersWrite :=
  fun hEnters => hOther.2 hEnters.2

/- A stop that is not the entry of a watched write goes on. -/
theorem iteration_of_not_entersWrite
    {s : State arch}
    {phase : Phase arch}
    {stop : Stop arch}
    (hTracks : Tracks s phase)
    (hAllows : phase.Allows stop)
    (hCall : ¬ stop.IsSignal)
    (hNot : ¬ stop.EntersWrite) :
    ∃ s', iteration s stop.turn = .next s' := by
  have hQuiet := Stop.isQuiet_of_call hCall
  apply (hTracks.goes_on_iff hAllows hQuiet).mpr
  refine ⟨Stop.expected_of_call hCall, ?_⟩
  intro hEnters
  exact absurd hEnters hNot

/- What a stop that intercepts no write makes errmark print. -/
theorem Tracks.debugText
    {s s' : State arch}
    {phase : Phase arch}
    {stop : Stop arch}
    (hTracks : Tracks s phase)
    (hAllows : phase.Allows stop)
    (hCall : ¬ stop.IsSignal)
    (hPlain : s.Plain)
    (hNext : iteration s stop.turn = .next s') :
    s.debugText stop.turn ++ s.doneText stop.turn =
      stop.debugText s.debug := by
  have hSeen := seen_of_next hNext
  have hDebug := hPlain.cmdDebug
  have hSlow := hPlain.slow
  simp only [State.debugText, State.doneText, hSeen, hDebug,
    hSlow, Stop.debugText]
  by_cases hReported : s.debug = true ∧ stop.regs.ShowsWrite
  · rw [if_neg (not_not_intro hReported),
      if_neg (not_not_intro hReported), if_pos hReported]
    cases hKind : stop.kind with
    | exec =>
        exact
          absurd hReported.2 (hAllows.of_exec hKind).2
    | entry =>
        rcases hAllows.of_entry hKind with ⟨last, hOutside⟩
        rw [hOutside] at hTracks
        simp [hTracks.toggle_outside]
        rfl
    | exit =>
        rcases hAllows.of_exit hKind with
          ⟨regs, hInside, hSame⟩
        rw [hInside] at hTracks
        have hToggle := hTracks.toggle_inside
        rw [if_pos (hSame.mp hReported.2)] at hToggle
        simp [hToggle]
        rfl
    | signal sig =>
        simp [Stop.IsSignal, StopKind.pending, hKind]
          at hCall
  · rw [if_pos hReported, if_pos hReported,
      if_neg hReported]
    rfl

/- What makes no entry and needs no new registers. -/
theorem Tracks.leftAlone
    {s s' : State arch}
    {phase : Phase arch}
    {stop : Stop arch}
    (hTracks : Tracks s phase)
    (hAllows : phase.Allows stop)
    (hCall : ¬ stop.IsSignal)
    (hNot : ¬ stop.EntersWrite)
    (hRegs : phase.resumedRegs stop = stop.regs)
    (hNullify : s.cmd.nullify = true)
    (hPlain : s.Plain)
    (hNext : iteration s stop.turn = .next s') :
    LeftAlone s s' stop := by
  have hQuiet := Stop.isQuiet_of_call hCall
  have hSig := Stop.expected_of_call hCall
  have hStep := steps_of_iteration hNext
  have hNone : s.intercepted stop.turn = none := by
    rw [hTracks.intercepted hAllows hQuiet hSig,
      if_neg hNot]
  have hCurFd := hStep.curFd
  have hMarkState := hStep.markState
  have hMarks := hStep.marksWritten
  have hStdout := hStep.stdoutBytes
  have hCopy := hStep.copyBytes
  have hCalls := hStep.calls hPlain.traceFbt
  simp only [hNone, State.emission, List.append_nil]
    at hCurFd hMarkState hMarks hStdout hCopy hCalls
  rw [hTracks.debugText hAllows hCall hPlain hNext] at hCalls
  refine
    ⟨?_, hCurFd, hMarkState, hMarks, hStdout, hCopy, hCalls⟩
  rw [hTracks.childRegs hAllows hQuiet hNullify hNext, hRegs]

/- At its entry such a call is left alone. -/
theorem leftAlone_entry
    {s : State arch}
    {phase : Phase arch}
    {entry : Stop arch}
    (hTracks : Tracks s phase)
    (hAllows : phase.Allows entry)
    (hOther : entry.EntersOther)
    (hNullify : s.cmd.nullify = true)
    (hPlain : s.Plain) :
    ∃ mid, iteration s entry.turn = .next mid ∧
      LeftAlone s mid entry ∧
      Tracks mid (.inside entry.regs) := by
  have hCall : ¬ entry.IsSignal := by
    simp [Stop.IsSignal, hOther.1, StopKind.pending]
  have hNot := hOther.not_entersWrite
  rcases iteration_of_not_entersWrite hTracks hAllows hCall
    hNot with ⟨mid, hNext⟩
  rcases hAllows.of_entry hOther.1 with ⟨last, hOutside⟩
  have hRegs : phase.resumedRegs entry = entry.regs := by
    simp [hOutside, Phase.resumedRegs, hOther.1, hNot]
  have hMid :=
    hTracks.step hAllows (Stop.isQuiet_of_call hCall) hNext
  have hPhase : phase.after entry = .inside entry.regs := by
    simp [Phase.after, hOther.1]
  rw [hPhase] at hMid
  exact
    ⟨mid, hNext,
      hTracks.leftAlone hAllows hCall hNot hRegs hNullify
        hPlain hNext,
      hMid⟩

/- And so it is at its exit. -/
theorem leftAlone_exit
    {s : State arch}
    {entry exit : Stop arch}
    (hTracks : Tracks s (.inside entry.regs))
    (hAllows : (Phase.inside entry.regs).Allows exit)
    (hOther : entry.EntersOther)
    (hNullify : s.cmd.nullify = true)
    (hPlain : s.Plain) :
    ∃ after, iteration s exit.turn = .next after ∧
      LeftAlone s after exit ∧
      Tracks after
        (.outside (exit.regs arch.regSyscall)) := by
  have hKind := hAllows.kind_of_inside
  have hCall : ¬ exit.IsSignal := by
    simp [Stop.IsSignal, hKind, StopKind.pending]
  have hNot : ¬ exit.EntersWrite := by
    simp [Stop.EntersWrite, hKind]
  rcases iteration_of_not_entersWrite hTracks hAllows hCall
    hNot with ⟨after, hNext⟩
  have hRegs :
      (Phase.inside entry.regs).resumedRegs exit =
        exit.regs := by
    simp only [Phase.resumedRegs, hKind]
    exact if_neg hOther.2
  have hAfter :=
    hTracks.step hAllows (Stop.isQuiet_of_call hCall) hNext
  have hPhase :
      (Phase.inside entry.regs).after exit =
        .outside (exit.regs arch.regSyscall) := by
    simp [Phase.after, hKind]
  rw [hPhase] at hAfter
  exact
    ⟨after, hNext,
      hTracks.leftAlone hAllows hCall hNot hRegs hNullify
        hPlain hNext,
      hAfter⟩

end Errmark

------------------------------------------------------------
-- Runs With The Same Output
------------------------------------------------------------

namespace Errmark

open Foundation

variable {arch : Arch}

/-
  The two states have the same group open, and the calls of
  the second one are those of the first without the reports
  about the stops that it left out, each from its place.
-/
structure SameOutput
    (debug : Bool)
    (omitted : List (Stop arch))
    (s s' : State arch) : Prop where
  options : s.SameOptions s'
  curFd : s'.curFd = s.curFd
  markState : s'.cmd.markState = s.cmd.markState
  calls :
    Without (omitted.map (Stop.debugText debug)) s.calls
      s'.calls

/- The message about a failed `malloc`. -/
def noMemoryText
    (file : File)
    (len : arch.Word) : List Call :=
  [.fprintf file
    ("malloc(" ++
      (if len.toNat = 0 then "0"
        else "0x" ++ hexText len.toNat) ++
      ") failed\n"),
    .diagnose file (.explain Errno.ENOMEM)]

/- What a copy without room leaves behind. -/
structure OutOfRoom
    (s s' : State arch)
    (t : Turn arch)
    (w : Write arch) : Prop where
  options : s.SameOptions s'
  curFd :
    s'.curFd =
      if IsIgnored w.addr w.len then s.openedFd else w.fd
  markState :
    s'.cmd.markState =
      if s.cmd.markState = 0 then 1 else s.cmd.markState
  calls :
    s.cmd.traceFbt = false →
      s'.calls =
        s.calls ++
          (s.debugText t ++ s.switching w ++
            noMemoryText s.errprintFh w.len)

/- Without memory for a copy, the write is not emitted. -/
theorem outOfRoom
    {s : State arch}
    {t : Turn arch}
    {w : Write arch}
    (hWrite : s.intercepted t = some w) :
    OutOfRoom s (outOfMemory (armed (entered s t) t)) t
      w := by
  rcases State.intercepted_eq_some_iff.mp hWrite with
    ⟨regs, hSeen, hCall, hToggle, hFd, rfl⟩
  have hEntered := entered_write hSeen
  have hSwitched := switchedFd_entered hSeen hFd
  refine ⟨?_, ?_, ?_, ?_⟩
  · constructor <;>
      simp [outOfMemory, entered, takeArguments,
        noteSysWrite, armed, marked, nullifyWrite_eq,
        beforeWrite_eq, openMarks_eq]
  · simp [outOfMemory, hSwitched]
  · simp [outOfMemory]
    rfl
  · intro hTrace
    simp only [outOfMemory, State.record_calls,
      calls_armed hSeen hFd hTrace,
      calls_entered hSeen hCall hToggle hTrace,
      armed_errprintFh, armed_wlen, hEntered.2.2,
      List.append_assoc]
    rfl

namespace SameOutput

variable {debug : Bool}
variable {omitted : List (Stop arch)}
variable {s s' : State arch}
variable {stop : Stop arch}

/- The same run has the same output. -/
theorem refl (debug : Bool) (s : State arch) :
    SameOutput debug [] s s where
  options := State.SameOptions.refl s
  curFd := rfl
  markState := rfl
  calls := Without.refl s.calls

/- If nothing is reported, all calls are the same. -/
theorem calls_eq
    (hSame : SameOutput debug omitted s s')
    (hSilent :
      debug = false ∨
        ∀ stop ∈ omitted, ¬ stop.regs.ShowsWrite) :
    s'.calls = s.calls := by
  apply (hSame.calls.eq_of_empty _).symm
  intro text hMem
  rcases List.mem_map.mp hMem with ⟨stop, hStop, rfl⟩
  rcases hSilent with hOff | hNone
  · rw [hOff]
    exact stop.debugText_false
  · exact
      Stop.debugText_of_not_showsWrite debug
        (hNone stop hStop)

/- Both runs are in the same group. -/
theorem openedFd (hSame : SameOutput debug omitted s s') :
    s'.openedFd = s.openedFd := by
  rw [State.openedFd, State.openedFd, hSame.markState,
    hSame.curFd]

/- They switch groups alike. -/
theorem switching
    (hSame : SameOutput debug omitted s s')
    (w : Write arch) :
    s'.switching w = s.switching w := by
  rw [State.switching, State.switching, hSame.openedFd,
    hSame.options.marks]

/- A stop that is left alone adds its report, if any. -/
theorem of_leftAlone
    {mid : State arch}
    (hSame : SameOutput debug omitted s s')
    (hDebug : s.debug = debug)
    (hOptions : s.SameOptions mid)
    (hAlone : LeftAlone s mid stop) :
    SameOutput debug (omitted ++ [stop]) mid s' := by
  refine ⟨hOptions.symm.trans hSame.options, ?_, ?_, ?_⟩
  · rw [hSame.curFd, hAlone.curFd]
  · rw [hSame.markState, hAlone.markState]
  · have hAdded :=
      hSame.calls.append
        (Without.single (stop.debugText debug))
    rw [List.append_nil] at hAdded
    rw [hAlone.calls, hDebug, List.map_append,
      List.map_singleton]
    exact hAdded

/- Both runs make the same calls at a stop. -/
theorem emission
    (hSame : SameOutput debug omitted s s')
    (hToggle : s'.toggle = s.toggle)
    (stop : Stop arch) :
    s'.emission stop.turn = s.emission stop.turn := by
  unfold State.emission
  rw [intercepted_stop_congr hToggle stop]
  cases s.intercepted stop.turn with
  | none => rfl
  | some w =>
      dsimp only
      rw [hSame.switching w, hSame.options.copyFh]

/- They say the same about a write. -/
theorem debugText
    (hSame : SameOutput debug omitted s s')
    (hToggle : s'.toggle = s.toggle)
    (stop : Stop arch) :
    s'.debugText stop.turn = s.debugText stop.turn := by
  rw [State.debugText, State.debugText, seen_stop,
    seen_stop, hSame.options.debug, hToggle]

/- They say the same when it is done. -/
theorem doneText
    (hSame : SameOutput debug omitted s s')
    (stop : Stop arch) :
    s'.doneText stop.turn = s.doneText stop.turn := by
  rw [State.doneText, State.doneText, seen_stop, seen_stop,
    hSame.options.cmdDebug, hSame.options.slow]

/- Equal calls are added to both. -/
theorem append_calls
    {a b : State arch}
    {calls : List Call}
    (hSame : SameOutput debug omitted s s')
    (hFirst : a.calls = s.calls ++ calls)
    (hSecond : b.calls = s'.calls ++ calls) :
    Without (omitted.map (Stop.debugText debug)) a.calls
      b.calls := by
  have hAppended :=
    hSame.calls.append (Without.refl calls)
  rw [List.append_nil] at hAppended
  rw [hFirst, hSecond]
  exact hAppended

/- A stop that both runs go on from. -/
theorem of_steps
    {a b : State arch}
    (hSame : SameOutput debug omitted s s')
    (hToggle : s'.toggle = s.toggle)
    (hPlain : s.Plain)
    (hFirst : Steps s stop.turn a)
    (hSecond : Steps s' stop.turn b) :
    SameOutput debug omitted a b ∧ b.toggle = a.toggle := by
  have hPlain' := hPlain.of_sameOptions hSame.options
  refine ⟨⟨?_, ?_, ?_, ?_⟩, ?_⟩
  · exact
      hSame.options.transfer hFirst.sameOptions
        hSecond.sameOptions
  · rw [hFirst.curFd, hSecond.curFd,
      intercepted_stop_congr hToggle stop, hSame.curFd,
      hSame.openedFd]
  · rw [hFirst.markState, hSecond.markState,
      intercepted_stop_congr hToggle stop, hSame.markState]
  · have hSecondCalls := hSecond.calls hPlain'.traceFbt
    rw [hSame.debugText hToggle stop,
      hSame.emission hToggle stop, hSame.doneText stop]
      at hSecondCalls
    exact
      hSame.append_calls (hFirst.calls hPlain.traceFbt)
        hSecondCalls
  · rw [hFirst.toggle, hSecond.toggle, seen_stop, seen_stop,
      hToggle]

/- A stop at which both runs find no room for the copy. -/
theorem of_outOfRoom
    {a b : State arch}
    {w : Write arch}
    (hSame : SameOutput debug omitted s s')
    (hToggle : s'.toggle = s.toggle)
    (hPlain : s.Plain)
    (hFirst : OutOfRoom s a stop.turn w)
    (hSecond : OutOfRoom s' b stop.turn w) :
    SameOutput debug omitted a b := by
  have hPlain' := hPlain.of_sameOptions hSame.options
  refine ⟨?_, ?_, ?_, ?_⟩
  · exact
      hSame.options.transfer hFirst.options
        hSecond.options
  · rw [hFirst.curFd, hSecond.curFd, hSame.openedFd]
  · rw [hFirst.markState, hSecond.markState,
      hSame.markState]
  · have hSecondCalls := hSecond.calls hPlain'.traceFbt
    rw [hSame.debugText hToggle stop, hSame.switching w,
      hSame.options.errprintFh] at hSecondCalls
    exact
      hSame.append_calls (hFirst.calls hPlain.traceFbt)
        hSecondCalls

/- At a stop of both runs the same happens to both. -/
theorem step
    (hSame : SameOutput debug omitted s s')
    (hToggle : s'.toggle = s.toggle)
    (hPlain : s.Plain)
    (hSig : stop.kind.reported.Expected) :
    (iteration s stop.turn).Related
      (fun a b =>
        iteration s stop.turn = .next a ∧
          iteration s' stop.turn = .next b ∧
          SameOutput debug omitted a b ∧
          b.toggle = a.toggle)
      (SameOutput debug omitted)
      (iteration s' stop.turn) := by
  have hWrites := intercepted_stop_congr hToggle stop
  by_cases hRoom :
      ∀ w, s.intercepted stop.turn = some w →
        w.IsCopied s.cmd.copyFh →
          stop.malloc.isSome
  · rcases iteration_stop_iff.mpr ⟨hSig, hRoom⟩ with
      ⟨a, hFirst⟩
    rw [← hSame.options.copyFh, ← hWrites] at hRoom
    rcases iteration_stop_iff.mpr ⟨hSig, hRoom⟩ with
      ⟨b, hSecond⟩
    rw [hFirst, hSecond]
    exact
      ⟨rfl, rfl,
        hSame.of_steps hToggle hPlain
          (steps_of_iteration hFirst)
          (steps_of_iteration hSecond)⟩
  · push Not at hRoom
    rcases hRoom with ⟨w, hWrite, hCopy, hBlock⟩
    have hNone : stop.turn.malloc = none := by
      simpa [Stop.turn] using hBlock
    have hWrite' := hWrites.trans hWrite
    have hCopy' : w.IsCopied s'.cmd.copyFh := by
      rw [hSame.options.copyFh]
      exact hCopy
    rw [iteration_out_of_memory hWrite hCopy
        Reply.benign_ok hNone,
      iteration_out_of_memory hWrite' hCopy'
        Reply.benign_ok hNone]
    exact
      ⟨rfl,
        hSame.of_outOfRoom hToggle hPlain
          (outOfRoom hWrite) (outOfRoom hWrite')⟩

end SameOutput

end Errmark

------------------------------------------------------------
-- Runs Without The Calls Left Alone
------------------------------------------------------------

namespace Errmark

open Foundation

variable {arch : Arch}

/-
  The stops of a call errmark has no interest in. The last
  call of a run need not have an exit.
-/
inductive OtherCall :
    List (Stop arch) → List (Stop arch) → Prop where
  | whole
      (entry exit : Stop arch)
      (rest : List (Stop arch))
      (hEntry : entry.EntersOther) :
      OtherCall [entry, exit] rest
  | last
      (entry : Stop arch)
      (hEntry : entry.EntersOther) :
      OtherCall [entry] []

/-
  Two runs of one command, of which the first has made some
  more stops. Both have found their program, or are still
  in the same state.
-/
structure Twins
    (debug : Bool)
    (omitted : List (Stop arch))
    (s s' : State arch) : Prop where
  same : SameOutput debug omitted s s'
  debugging : s.debug = debug
  plain : s.Plain
  nullify : s.cmd.nullify = true
  found :
    (omitted = [] ∧ s' = s) ∨
      (s.cmd.childExited = true ∧
        s'.cmd.childExited = true)

/- A stop of the first run alone keeps them together. -/
theorem Twins.leftAlone
    {debug : Bool}
    {omitted : List (Stop arch)}
    {s s' mid : State arch}
    {stop : Stop arch}
    (hTwins : Twins debug omitted s s')
    (hFound : s'.cmd.childExited = true)
    (hNext : iteration s stop.turn = .next mid)
    (hAlone : LeftAlone s mid stop) :
    Twins debug (omitted ++ [stop]) mid s' := by
  have hStep := steps_of_iteration hNext
  have hOptions := hStep.sameOptions
  refine
    ⟨hTwins.same.of_leftAlone hTwins.debugging hOptions
        hAlone,
      hOptions.debug.trans hTwins.debugging,
      hTwins.plain.of_sameOptions hOptions, ?_,
      Or.inr ⟨hStep.childExited rfl, hFound⟩⟩
  rw [hOptions.nullify, hTwins.nullify]

/-
  The relation along two runs, the first of which still has
  some stops to come, and has made those of some calls that
  the second one left out.
-/
structure InStep
    (debug : Bool)
    (done : List (List (Stop arch)))
    (stops : List (Stop arch))
    (s s' : State arch) : Prop where
  twins : Twins debug done.flatten s s'
  callsOnly : ∀ stop ∈ stops, ¬ stop.IsSignal
  tracks :
    stops ≠ [] →
      ∃ phase,
        Admitted phase stops ∧
          Tracks s phase ∧
          s'.toggle = s.toggle ∧
          (phase = .starting ∨ s'.cmd.childExited = true)

namespace InStep

variable {debug : Bool}
variable {done : List (List (Stop arch))}
variable {s s' : State arch}
variable {stops rest : List (Stop arch)}

/- A stop that both runs have. -/
theorem keep
    {stop : Stop arch}
    (hInStep : InStep debug done (stop :: stops) s s') :
    (iteration s stop.turn).Related
      (InStep debug done stops)
      (SameOutput debug done.flatten)
      (iteration s' stop.turn) := by
  rcases hInStep.tracks (List.cons_ne_nil _ _) with
    ⟨phase, ⟨hAllows, hAdmitted⟩, hTracks, hToggle, _⟩
  have hTwins := hInStep.twins
  have hCalls := hInStep.callsOnly
  rw [List.forall_mem_cons] at hCalls
  apply (hTwins.same.step hToggle hTwins.plain
    (Stop.expected_of_call hCalls.1)).mono
  · rintro a b ⟨hFirst, hSecond, hSame, hToggle'⟩
    have hStep := steps_of_iteration hFirst
    have hOptions := hStep.sameOptions
    have hNullify : a.cmd.nullify = true := by
      rw [hOptions.nullify, hTwins.nullify]
    have hFound :=
      (steps_of_iteration hSecond).childExited rfl
    refine
      ⟨⟨hSame, hOptions.debug.trans hTwins.debugging,
        hTwins.plain.of_sameOptions hOptions,
        hNullify, Or.inr ⟨hStep.childExited rfl, hFound⟩⟩,
        hCalls.2, ?_⟩
    intro _
    exact
      ⟨phase.after stop, hAdmitted,
        hTracks.step hAllows
          (Stop.isQuiet_of_call hCalls.1) hFirst,
        hToggle', Or.inr hFound⟩
  · intro a b hSame
    exact hSame

/- The program was found before it enters a call. -/
theorem found_of_entry
    {phase : Phase arch}
    {entry : Stop arch}
    (hAllows : phase.Allows entry)
    (hKind : entry.kind = .entry)
    (hStarted :
      phase = .starting ∨ s'.cmd.childExited = true) :
    s'.cmd.childExited = true := by
  rcases hAllows.of_entry hKind with ⟨last, hOutside⟩
  rcases hStarted with hStarting | hFound
  · rw [hStarting] at hOutside
    cases hOutside
  · exact hFound

/- The entry of a call that only the first run makes. -/
theorem skip_entry
    {entry : Stop arch}
    (hEntry : entry.EntersOther)
    (hInStep : InStep debug done (entry :: rest) s s') :
    ∃ mid,
      iteration s entry.turn = .next mid ∧
        Twins debug (done.flatten ++ [entry]) mid s' ∧
        Admitted (.inside entry.regs) rest ∧
        Tracks mid (.inside entry.regs) ∧
        s'.toggle = 0 ∧ s'.cmd.childExited = true := by
  have hTwins := hInStep.twins
  rcases hInStep.tracks (List.cons_ne_nil _ _) with
    ⟨phase, ⟨hAllows, hAdmitted⟩, hTracks, hToggle,
      hStarted⟩
  have hFound := found_of_entry hAllows hEntry.1 hStarted
  have hPhase : phase.after entry = .inside entry.regs := by
    simp [Phase.after, hEntry.1]
  rw [hPhase] at hAdmitted
  rcases leftAlone_entry hTracks hAllows hEntry
      hTwins.nullify hTwins.plain with
    ⟨mid, hNext, hAlone, hInside⟩
  refine
    ⟨mid, hNext, hTwins.leftAlone hFound hNext hAlone,
      hAdmitted, hInside, ?_, hFound⟩
  rcases hAllows.of_entry hEntry.1 with ⟨last, hLast⟩
  rw [hLast] at hTracks
  rw [hToggle, hTracks.toggle_outside]

/- The stops of a call that only the first run has. -/
theorem skip
    {block : List (Stop arch)}
    (hBlock : OtherCall block rest)
    (hInStep : InStep debug done (block ++ rest) s s') :
    ∃ mid,
      run iteration s (block.map Stop.turn) = .next mid ∧
        InStep debug (done ++ [block]) rest mid s' := by
  have hFlatten :
      (done ++ [block]).flatten = done.flatten ++ block := by
    simp
  cases hBlock with
  | whole entry exit rest hEntry =>
      rcases hInStep.skip_entry hEntry with
        ⟨mid, hNext, hMid, ⟨hExit, hAdmitted⟩, hInside,
          hToggle, hFound⟩
      rcases leftAlone_exit hInside hExit hEntry
          hMid.nullify hMid.plain with
        ⟨after, hNext', hAlone', hOutside⟩
      have hAfter := hMid.leftAlone hFound hNext' hAlone'
      rw [List.append_assoc] at hAfter
      refine ⟨after, ?_, ?_, ?_, ?_⟩
      · simp [run_cons, hNext, hNext']
      · rw [hFlatten]
        exact hAfter
      · intro stop hMem
        exact
          hInStep.callsOnly stop
            (List.mem_append_right _ hMem)
      · intro _
        have hKind := hExit.kind_of_inside
        simp only [Phase.after, hKind] at hAdmitted
        refine
          ⟨_, hAdmitted, hOutside, ?_, Or.inr hFound⟩
        rw [hToggle, hOutside.toggle_outside]
  | last entry hEntry =>
      rcases hInStep.skip_entry hEntry with
        ⟨mid, hNext, hMid, _⟩
      refine ⟨mid, ?_, ?_, ?_, ?_⟩
      · simp [run_cons, hNext]
      · rw [hFlatten]
        exact hMid
      · intro stop hMem
        cases hMem
      · intro hNil
        exact absurd rfl hNil

end InStep

end Errmark

------------------------------------------------------------
-- Whole Runs
------------------------------------------------------------

namespace Errmark

open Foundation

variable {arch : Arch}

namespace SameOutput

variable {debug : Bool}
variable {omitted : List (Stop arch)}
variable {s s' : State arch}

/- The same calls keep the output the same. -/
theorem record
    (hSame : SameOutput debug omitted s s')
    (calls : List Call) :
    SameOutput debug omitted (s.record calls)
      (s'.record calls) := by
  refine ⟨?_, hSame.curFd, hSame.markState, ?_⟩
  · exact
      hSame.options.transfer (.record s calls)
        (.record s' calls)
  · exact hSame.append_calls rfl rfl

/- Neither do the fields that are set at the end. -/
theorem withResult
    (hSame : SameOutput debug omitted s s')
    (regs regs' : Regs arch)
    {status status' : CInt}
    (hStatus : status' = status)
    (rc rc' : CInt) :
    SameOutput debug omitted
      { s with
        childRegs := regs
        exitStatus := status
        cmd := { s.cmd with rc := rc } }
      { s' with
        childRegs := regs'
        exitStatus := status'
        cmd := { s'.cmd with rc := rc' } } := by
  have hOptions := hSame.options
  exact
    ⟨{ hOptions with exitStatus := hStatus }, hSame.curFd,
      hSame.markState, hSame.calls⟩

/- They close the group alike. -/
theorem closingCalls (hSame : SameOutput debug omitted s s') :
    s'.closingCalls = s.closingCalls := by
  rw [State.closingCalls, State.closingCalls,
    hSame.options.marks, hSame.openedFd]

/- They tell the same status. -/
theorem statusText
    (hSame : SameOutput debug omitted s s')
    (status : CInt) :
    s'.statusText status = s.statusText status := by
  rw [State.statusText, State.statusText,
    hSame.options.verbose, hSame.options.errprintFh]

theorem waitStatusText (hSame : SameOutput debug omitted s s') :
    s'.waitStatusText = s.waitStatusText := by
  rw [State.waitStatusText, State.waitStatusText,
    hSame.options.verbose, hSame.options.exitStatus,
    hSame.options.cmdName]

/- A report that ends the tracing. -/
theorem childEnded
    (hSame : SameOutput debug omitted s s')
    (t : Turn arch) :
    SameOutput debug omitted
      (Errmark.childEnded (waitForChild s t) t.status)
      (Errmark.childEnded (waitForChild s' t) t.status) := by
  rw [childEnded_eq, childEnded_eq]
  have hCalls :
      (waitForChild s' t).closingCalls ++
          (waitForChild s' t).statusText t.status =
        s.closingCalls ++ s.statusText t.status := by
    rw [← hSame.closingCalls, ← hSame.statusText t.status]
    rfl
  rw [hCalls]
  exact
    (hSame.record
      (s.closingCalls ++ s.statusText t.status)).withResult
        t.regs t.regs rfl s.cmd.rc s'.cmd.rc

/- A request that finds no child. -/
theorem fetched
    (hSame : SameOutput debug omitted s s')
    (t : Turn arch) :
    SameOutput debug omitted (Errmark.fetched s t)
      (Errmark.fetched s' t) := by
  have hTrace := hSame.options.traceFbt
  refine ⟨?_, hSame.curFd, hSame.markState, ?_⟩
  · exact
      hSame.options.transfer (.fetched s t) (.fetched s' t)
  · apply hSame.append_calls (fetched_calls s t)
    rw [fetched_calls, guardCalls, guardCalls, traceText,
      traceText, hTrace]
    rfl

/- They do the same after the loop. -/
theorem afterLoop (hSame : SameOutput debug omitted s s') :
    SameOutput debug omitted (Errmark.afterLoop s)
      (Errmark.afterLoop s') := by
  rw [afterLoop_eq, afterLoop_eq, hSame.closingCalls,
    hSame.waitStatusText]
  exact hSame.record _

theorem afterTracing (hSame : SameOutput debug omitted s s') :
    SameOutput debug omitted (Errmark.afterTracing s)
      (Errmark.afterTracing s') := by
  rw [afterTracing_eq, afterTracing_eq, hSame.closingCalls]
  exact
    (hSame.record s.closingCalls).withResult s.childRegs
      s'.childRegs hSame.options.exitStatus s.exitStatus
      s'.exitStatus

end SameOutput

/-
  The last turn: a report that ends the tracing, or a child
  that is no longer there.
-/
def Turn.IsLast (t : Turn arch) : Prop :=
  endsTracing t.status = true ∨
    t.getRegs = .failed Errno.ESRCH

instance (t : Turn arch) : Decidable t.IsLast := by
  unfold Turn.IsLast
  infer_instance

/- It ends both runs in the same way. -/
theorem Twins.run_of_last
    {debug : Bool}
    {omitted : List (Stop arch)}
    {s s' : State arch}
    {ending : List (Turn arch)}
    (hTwins : Twins debug omitted s s')
    (hLast : ∀ t ∈ ending, t.IsLast) :
    (run iteration s ending).Related
      (SameOutput debug omitted)
      (SameOutput debug omitted)
      (run iteration s' ending) := by
  have hSame := hTwins.same
  rcases hTwins.found with
    ⟨rfl, rfl⟩ | ⟨hFound, hFound'⟩
  · cases run iteration s' ending with
    | next last => exact SameOutput.refl debug last
    | leave last => exact SameOutput.refl debug last
    | halt cause last =>
        exact ⟨rfl, SameOutput.refl debug last⟩
  · cases ending with
    | nil => exact hSame
    | cons t ending =>
        rw [run_cons, run_cons]
        cases hEnds : endsTracing t.status with
        | true =>
            rw [iteration_of_ends s hEnds,
              iteration_of_ends s' hEnds]
            exact hSame.childEnded t
        | false =>
            have hGone :
                t.getRegs = .failed Errno.ESRCH := by
              rcases hLast t (by simp) with hTrue | hGone
              · rw [hEnds] at hTrue
                cases hTrue
              · exact hGone
            rw [iteration_of_gone hEnds hGone hFound,
              iteration_of_gone hEnds hGone hFound']
            exact hSame.fetched t

/- Calls that are left alone show in their reports only. -/
theorem errmark_of_omits
    (setup : Setup arch)
    {stops kept : List (Stop arch)}
    {blocks : List (List (Stop arch))}
    {ending : List (Turn arch)}
    (hAdmitted : Admitted .starting stops)
    (hCalls : ∀ stop ∈ stops, ¬ stop.IsSignal)
    (hOmits : Omits OtherCall blocks stops kept)
    (hLast : ∀ t ∈ ending, t.IsLast) :
    (setup.errmark (stops.map Stop.turn ++ ending)).Related
      (SameOutput setup.options.debug blocks.flatten)
      (fun s s' =>
        ∃ done, done <+: blocks ∧
          SameOutput setup.options.debug done.flatten s s')
      (setup.errmark (kept.map Stop.turn ++ ending)) := by
  have hInit :
      InStep setup.options.debug [] stops setup.begin
        setup.begin := by
    refine
      ⟨⟨SameOutput.refl _ _, rfl, ⟨rfl, rfl, rfl⟩, rfl,
        Or.inl ⟨rfl, rfl⟩⟩, hCalls, ?_⟩
    intro _
    exact
      ⟨_, hAdmitted, tracks_begin setup, rfl, Or.inl rfl⟩
  have hStops :=
    related_of_omits
      (fun _ _ _ _ _ hInStep => hInStep.keep)
      (fun _ _ _ _ _ hBlock hInStep => by
        rw [← run_map]
        exact hInStep.skip hBlock)
      hOmits hInit
  rw [← run_map iteration Stop.turn,
    ← run_map iteration Stop.turn] at hStops
  rw [Setup.errmark_eq, Setup.errmark_eq, run_append,
    run_append]
  have hRuns := hStops.andThen
    (fun s s' hInStep =>
      (hInStep.twins.run_of_last hLast).mono
        (fun _ _ hSame => hSame)
        (fun _ _ hSame =>
          ⟨blocks, List.prefix_refl blocks, hSame⟩))
  have hLoops :=
    hRuns.onLeave fun s s' ⟨done, hPrefix, hSame⟩ =>
      ⟨done, hPrefix, hSame.afterLoop⟩
  exact
    hLoops.onLeave fun s s' ⟨done, hPrefix, hSame⟩ =>
      ⟨done, hPrefix, hSame.afterTracing⟩

/- The first part: each such call, wherever it is made. -/
theorem call_left_alone
    {setup : Setup arch}
    {pre post : List (Stop arch)}
    {entry : Stop arch}
    {s : State arch}
    (hAdmitted : Admitted .starting (pre ++ entry :: post))
    (hCalls : ∀ stop ∈ pre, ¬ stop.IsSignal)
    (hOther : entry.EntersOther)
    (hRun :
      run iteration setup.begin (pre.map Stop.turn) =
        .next s) :
    ∃ mid, iteration s entry.turn = .next mid ∧
      LeftAlone s mid entry ∧
      ∀ exit rest, post = exit :: rest →
        ∃ after, iteration mid exit.turn = .next after ∧
          LeftAlone mid after exit := by
  rcases admitted_append_iff.mp hAdmitted with
    ⟨hPre, hAllows, hPost⟩
  have hTracks :=
    tracks_of_run (tracks_begin setup) hPre
      (fun stop hMem =>
        Stop.isQuiet_of_call (hCalls stop hMem))
      hRun
  have hSame := sameOptions_of_run hRun
  have hPlain := plain_of_run hRun
  rcases leftAlone_entry hTracks hAllows hOther
      hSame.nullify hPlain with
    ⟨mid, hNext, hAlone, hInside⟩
  refine ⟨mid, hNext, hAlone, ?_⟩
  intro exit rest hSplit
  have hPhase :
      (Phase.starting.afterAll pre).after entry =
        .inside entry.regs := by
    simp [Phase.after, hOther.1]
  rw [hSplit, hPhase] at hPost
  have hSame' := (steps_of_iteration hNext).sameOptions
  rcases leftAlone_exit hInside hPost.1 hOther
      (hSame'.nullify.trans hSame.nullify)
      (hPlain.of_sameOptions hSame') with
    ⟨after, hNext', hAlone', _⟩
  exact ⟨after, hNext', hAlone'⟩

/-
  Calls that are no write to fd 1 or 2 are left alone, and a
  run without them makes the same calls, but for the reports
  of `--debug` about writes to other descriptors. Without
  `--debug`, or such writes, all calls are the same.
-/
theorem untouched_calls
    (setup : Setup arch)
    (stops : List (Stop arch))
    (hAdmitted : Admitted .starting stops)
    (hCalls : ∀ stop ∈ stops, ¬ stop.IsSignal) :
    (∀ pre entry post s,
      stops = pre ++ entry :: post →
        entry.EntersOther →
          run iteration setup.begin (pre.map Stop.turn) =
              .next s →
            ∃ mid, iteration s entry.turn = .next mid ∧
              LeftAlone s mid entry ∧
              ∀ exit rest, post = exit :: rest →
                ∃ after,
                  iteration mid exit.turn = .next after ∧
                    LeftAlone mid after exit) ∧
      ∀ blocks kept ending,
        Omits OtherCall blocks stops kept →
          (∀ t ∈ ending, t.IsLast) →
            (setup.errmark
                (stops.map Stop.turn ++ ending)).Related
              (SameOutput setup.options.debug
                blocks.flatten)
              (fun s s' =>
                ∃ done, done <+: blocks ∧
                  SameOutput setup.options.debug
                    done.flatten s s')
              (setup.errmark
                (kept.map Stop.turn ++ ending)) ∧
            ((setup.options.debug = false ∨
                ∀ stop ∈ blocks.flatten,
                  ¬ stop.regs.ShowsWrite) →
              (setup.errmark
                  (stops.map Stop.turn ++ ending)).Related
                (fun s s' => s'.calls = s.calls)
                (fun s s' => s'.calls = s.calls)
                (setup.errmark
                  (kept.map Stop.turn ++ ending))) := by
  refine ⟨?_, ?_⟩
  · intro pre entry post s hSplit hOther hRun
    rw [hSplit] at hAdmitted hCalls
    exact
      call_left_alone hAdmitted
        (fun stop hMem =>
          hCalls stop (List.mem_append_left _ hMem))
        hOther hRun
  · intro blocks kept ending hOmits hLast
    have hRelated :=
      errmark_of_omits setup hAdmitted hCalls hOmits hLast
    refine ⟨hRelated, ?_⟩
    intro hSilent
    apply hRelated.mono
    · intro s s' hSame
      exact hSame.calls_eq hSilent
    · rintro s s' ⟨done, hPrefix, hSame⟩
      apply hSame.calls_eq
      apply hSilent.imp_right
      intro hNone stop hMem
      rcases List.mem_flatten.mp hMem with ⟨block, hBlock, hStop⟩
      exact
        hNone stop
          (List.mem_flatten.mpr
            ⟨block, hPrefix.subset hBlock, hStop⟩)

/- A program that makes one write to fd 3. -/
def sampleOtherEntry : Stop .x86_64 :=
  sampleWrite .entry 3 1 (-38) none

/- The exit of that write. -/
def sampleOtherExit : Stop .x86_64 :=
  sampleWrite .exit 3 1 1 none

/- The stops of the program. -/
def sampleOtherStops : List (Stop .x86_64) :=
  [sampleExec, sampleOtherEntry, sampleOtherExit]

/- A command with `--debug`. -/
def sampleDebug : Setup .x86_64 :=
  { sampleSetup false with
    options :=
      { (sampleSetup false).options with debug := true } }

/- One other call is left out. -/
theorem sampleOtherStops_omits :
    Omits OtherCall [[sampleOtherEntry, sampleOtherExit]]
      sampleOtherStops [sampleExec] :=
  .keep sampleExec
    (.skip [sampleOtherEntry, sampleOtherExit]
      (OtherCall.whole _ _ [] (by decide +kernel)) .nil)

/- With `--debug` its write is reported on stderr. -/
theorem sample_untouched_call_reported :
    Admitted .starting sampleOtherStops ∧
      Omits OtherCall [[sampleOtherEntry, sampleOtherExit]]
        sampleOtherStops [sampleExec] ∧
      .fprintf .stderr "wfd  =3\n" ∈
        (sampleDebug.errmark
          (sampleOtherStops.map Stop.turn)).final.calls ∧
      .fprintf .stderr "wfd  =3\n" ∉
        (sampleDebug.errmark
          [sampleExec.turn]).final.calls := by
  refine
    ⟨by decide +kernel, sampleOtherStops_omits, ?_, ?_⟩
  · decide +kernel
  · decide +kernel

/-
  With `--debug` both stops of the write are left alone, and
  without it the whole runs agree.
-/
theorem sample_untouched_calls :
    (∃ s mid after,
      run iteration sampleDebug.begin [sampleExec.turn] =
          .next s ∧
        iteration s sampleOtherEntry.turn = .next mid ∧
        LeftAlone s mid sampleOtherEntry ∧
        iteration mid sampleOtherExit.turn = .next after ∧
        LeftAlone mid after sampleOtherExit) ∧
      ((sampleSetup false).errmark
          (sampleOtherStops.map Stop.turn ++
            [goneTurn 0])).Related
        (fun s s' => s'.calls = s.calls)
        (fun s s' => s'.calls = s.calls)
        ((sampleSetup false).errmark
          ([sampleExec].map Stop.turn ++
            [goneTurn 0])) := by
  have hAdmitted : Admitted .starting sampleOtherStops := by
    decide +kernel
  have hCalls :
      ∀ stop ∈ sampleOtherStops, ¬ stop.IsSignal := by
    decide +kernel
  constructor
  · have hRun :
        (run iteration sampleDebug.begin
          [sampleExec.turn]).goesOn = true := by
      decide +kernel
    have hNext := Outcome.eq_next_of_goesOn hRun
    rcases (untouched_calls sampleDebug sampleOtherStops
        hAdmitted hCalls).1 [sampleExec] sampleOtherEntry
        [sampleOtherExit] _ rfl (by decide +kernel) hNext
      with ⟨mid, hMid, hAlone, hExit⟩
    rcases hExit sampleOtherExit [] rfl with
      ⟨after, hAfter, hAlone'⟩
    exact
      ⟨_, mid, after, hNext, hMid, hAlone, hAfter, hAlone'⟩
  · exact
      ((untouched_calls (sampleSetup false)
        sampleOtherStops hAdmitted hCalls).2
        [[sampleOtherEntry, sampleOtherExit]] [sampleExec]
        [goneTurn 0] sampleOtherStops_omits
        (by decide +kernel)).2 (Or.inl rfl)

end Errmark
