import Errmark.Program.Emission
import Errmark.Tracee.Stops

/-
  The toggle follows the phase of the traced program.

  As long as no signal stop shows the number of the write
  call, the toggle is 1 exactly while the program is inside
  such a call, and the arguments errmark keeps are those of
  the call. From this follows what errmark does at each
  stop of such a run.

  Key definitions include:
    * `Tracks`
    * `Stop.IsQuiet`
    * `Phase.resumedRegs`
    * `Stop.ownBytes`
    * `Stop.asked`
    * `Setup.Nullifies`

  Key theorems include:
    * `Tracks.step`
    * `tracks_of_run`
    * `Tracks.intercepted`
    * `Tracks.childRegs`
    * `run_of_calls`
    * `nullifies_of_calls`
-/

------------------------------------------------------------
-- Tracking
------------------------------------------------------------

namespace Errmark

open Foundation

variable {arch : Arch}

/- The loop knows where the program is. -/
structure Tracks
    (s : State arch)
    (phase : Phase arch) : Prop where
  toggle :
    s.toggle = if phase.InsideWrite then 1 else 0
  arguments :
    ∀ regs, phase = .inside regs → regs.ShowsWrite →
      (⟨s.wfd, s.waddr, s.wlen⟩ : Write arch) = regs.write

namespace Stop

/- A signal stop that shows another number than a write's. -/
def IsQuiet (stop : Stop arch) : Prop :=
  stop.IsSignal → ¬ stop.regs.ShowsWrite

instance (stop : Stop arch) : Decidable stop.IsQuiet := by
  unfold IsQuiet
  infer_instance

/- A stop of a system call is quiet, and expected. -/
theorem isQuiet_of_call
    {stop : Stop arch}
    (hCall : ¬ stop.IsSignal) :
    stop.IsQuiet := by
  intro hSignal
  exact absurd hSignal hCall

/- The stops at a call are expected ones. -/
theorem expected_of_call
    {stop : Stop arch}
    (hCall : ¬ stop.IsSignal) :
    stop.kind.reported.Expected := by
  unfold Stop.IsSignal at hCall
  cases hKind : stop.kind with
  | exec => exact Or.inl rfl
  | entry => exact Or.inl rfl
  | exit => exact Or.inl rfl
  | signal sig => simp [StopKind.pending, hKind] at hCall

/- The bytes that a stop owes to the program's output. -/
def ownBytes
    (copyFh : Bool)
    (stop : Stop arch) : List OutByte :=
  if stop.EntersWrite then
    stop.regs.write.emitted copyFh stop.turn
  else
    []

/- The bytes a stop asks the kernel to write to fd 1 or 2. -/
def asked (stop : Stop arch) : List OutByte :=
  if stop.EntersWrite then
    stop.regs.write.bytes stop.memory
  else
    []

/- The buffer of a watched write can be read to its end. -/
def ReadsWhole (stop : Stop arch) : Prop :=
  stop.EntersWrite →
    stop.regs.write.IsWhole stop.memory

instance (stop : Stop arch) :
    Decidable stop.ReadsWhole := by
  unfold ReadsWhole
  infer_instance

/- A stop with room emits what is asked for, if it is read. -/
theorem ownBytes_eq_asked_iff
    {copyFh : Bool}
    {stop : Stop arch}
    (hRoom : stop.FindsRoom copyFh) :
    stop.ownBytes copyFh = stop.asked ↔
      stop.ReadsWhole := by
  unfold ownBytes asked ReadsWhole
  by_cases hEnters : stop.EntersWrite
  · have hIff :=
      stop.regs.write.emitted_eq_bytes_iff (t := stop.turn)
        (hRoom hEnters)
    rw [if_pos hEnters, if_pos hEnters]
    exact hIff.trans (imp_iff_right hEnters).symm
  · rw [if_neg hEnters, if_neg hEnters]
    simp [hEnters]

end Stop

namespace Phase

/-
  The registers a stop should be resumed with: a length of 0
  at the entry of a watched write, its full length as the
  result at its exit, and no change anywhere else.
-/
def resumedRegs
    (phase : Phase arch)
    (stop : Stop arch) : Regs arch :=
  match phase, stop.kind with
  | .outside _, .entry =>
      if stop.EntersWrite then
        stop.regs.set arch.regArg3 0
      else
        stop.regs
  | .inside regs, .exit =>
      if regs.ShowsWrite ∧ regs.write.Watched then
        stop.regs.set arch.regRetn regs.write.len
      else
        stop.regs
  | _, _ => stop.regs

end Phase

/- Nothing has happened yet. -/
theorem tracks_begin (setup : Setup arch) :
    Tracks setup.begin .starting where
  toggle := rfl
  arguments := by
    intro regs hPhase
    cases hPhase

/- The state that a step on a stop leads to. -/
theorem toggle_step
    {s s' : State arch}
    {stop : Stop arch}
    (hNext : iteration s stop.turn = .next s') :
    s'.toggle =
      if ¬ stop.regs.ShowsWrite then s.toggle
      else if s.toggle = 0 then 1
      else 0 := by
  have hStep := steps_of_iteration hNext
  have hToggle := hStep.toggle
  rw [seen_of_next hNext] at hToggle
  exact hToggle

/- The arguments are noted at the entry of a write. -/
theorem arguments_step
    {s s' : State arch}
    {stop : Stop arch}
    (hNext : iteration s stop.turn = .next s') :
    (⟨s'.wfd, s'.waddr, s'.wlen⟩ : Write arch) =
      if stop.regs.ShowsWrite ∧ s.toggle = 0 then
        stop.regs.write
      else
        ⟨s.wfd, s.waddr, s.wlen⟩ := by
  have hStep := steps_of_iteration hNext
  have hArguments := hStep.arguments
  rw [seen_of_next hNext] at hArguments
  exact hArguments

namespace Tracks

variable {s s' : State arch}
variable {phase : Phase arch}
variable {stop : Stop arch}

/- Outside of a call the toggle is down. -/
theorem toggle_outside
    {last : arch.Word}
    (hTracks : Tracks s (.outside last)) :
    s.toggle = 0 := by
  rw [hTracks.toggle]
  rfl

/- Inside a call it is up for a write. -/
theorem toggle_inside
    {regs : Regs arch}
    (hTracks : Tracks s (.inside regs)) :
    s.toggle = if regs.ShowsWrite then 1 else 0 :=
  hTracks.toggle

/- Tracking goes on over every quiet stop. -/
theorem step
    (hTracks : Tracks s phase)
    (hAllows : phase.Allows stop)
    (hQuiet : stop.IsQuiet)
    (hNext : iteration s stop.turn = .next s') :
    Tracks s' (phase.after stop) := by
  have hToggle := toggle_step hNext
  have hArguments := arguments_step hNext
  cases hKind : stop.kind with
  | exec =>
      rcases hAllows.of_exec hKind with ⟨hStart, hCall⟩
      rw [if_pos hCall] at hToggle
      refine ⟨?_, ?_⟩
      · rw [hToggle, hTracks.toggle, hStart]
        simp [Phase.after, hKind, Phase.InsideWrite]
      · intro regs hPhase
        simp [Phase.after, hKind] at hPhase
  | entry =>
      rcases hAllows.of_entry hKind with ⟨last, hOutside⟩
      rw [hOutside] at hTracks
      have hZero := hTracks.toggle_outside
      refine ⟨?_, ?_⟩
      · rw [hToggle, hZero]
        by_cases hCall : stop.regs.ShowsWrite
        · simp [Phase.after, hKind, Phase.InsideWrite,
            hCall]
        · simp [Phase.after, hKind, Phase.InsideWrite,
            hCall]
      · intro regs hPhase hCall
        simp only [Phase.after, hKind,
          Phase.inside.injEq] at hPhase
        rw [hArguments, hPhase, if_pos ⟨hCall, hZero⟩]
  | exit =>
      rcases hAllows.of_exit hKind with
        ⟨regs, hInside, hSame⟩
      rw [hInside] at hTracks
      have hBefore := hTracks.toggle_inside
      refine ⟨?_, ?_⟩
      · rw [hToggle, hBefore]
        by_cases hCall : regs.ShowsWrite
        · simp [Phase.after, hKind, Phase.InsideWrite,
            hSame, hCall]
        · simp [Phase.after, hKind, Phase.InsideWrite,
            hSame, hCall]
      · intro regs hPhase
        simp [Phase.after, hKind] at hPhase
  | signal sig =>
      rcases hAllows.of_signal hKind with ⟨last, hOutside⟩
      have hCall : ¬ stop.regs.ShowsWrite := by
        apply hQuiet
        simp [Stop.IsSignal, StopKind.pending, hKind]
      rw [if_pos hCall] at hToggle
      refine ⟨?_, ?_⟩
      · rw [hToggle, hTracks.toggle]
        simp [Phase.after, hKind]
      · intro regs hPhase
        rw [hOutside] at hPhase
        simp [Phase.after, hKind] at hPhase

/- What is intercepted are the entries of watched writes. -/
theorem intercepted
    (hTracks : Tracks s phase)
    (hAllows : phase.Allows stop)
    (hQuiet : stop.IsQuiet)
    (hSig : stop.kind.reported.Expected) :
    s.intercepted stop.turn =
      if stop.EntersWrite then some stop.regs.write
      else none := by
  have hSeen := seen_stop s stop
  rw [if_pos hSig] at hSeen
  cases hKind : stop.kind with
  | exec =>
      have hCall := (hAllows.of_exec hKind).2
      rw [State.intercepted_eq_none hSeen (by simp [hCall])]
      simp [Stop.EntersWrite, hKind]
  | entry =>
      rcases hAllows.of_entry hKind with ⟨last, hOutside⟩
      rw [hOutside] at hTracks
      have hZero := hTracks.toggle_outside
      simp [State.intercepted, hSeen, hZero,
        Stop.EntersWrite, hKind]
  | exit =>
      rcases hAllows.of_exit hKind with
        ⟨regs, hInside, hSame⟩
      rw [hInside] at hTracks
      have hBefore := hTracks.toggle_inside
      rw [State.intercepted_eq_none hSeen
        (by simp_all)]
      simp [Stop.EntersWrite, hKind]
  | signal sig =>
      have hCall : ¬ stop.regs.ShowsWrite := by
        apply hQuiet
        simp [Stop.IsSignal, StopKind.pending, hKind]
      rw [State.intercepted_eq_none hSeen (by simp [hCall])]
      simp [Stop.EntersWrite, hKind]

/- The program is resumed as its phase asks for. -/
theorem childRegs
    (hTracks : Tracks s phase)
    (hAllows : phase.Allows stop)
    (hQuiet : stop.IsQuiet)
    (hNullify : s.cmd.nullify = true)
    (hNext : iteration s stop.turn = .next s') :
    s'.childRegs = phase.resumedRegs stop := by
  have hStep := steps_of_iteration hNext
  have hSeen := seen_of_next hNext
  have hChild := hStep.childRegs rfl
  rw [State.writtenBack, hSeen] at hChild
  rw [hChild]
  cases hKind : stop.kind with
  | exec =>
      rcases hAllows.of_exec hKind with ⟨hStart, hCall⟩
      simp [hCall, hStart, Phase.resumedRegs, Stop.turn]
  | entry =>
      rcases hAllows.of_entry hKind with ⟨last, hOutside⟩
      rw [hOutside] at hTracks
      have hZero := hTracks.toggle_outside
      by_cases hCall : stop.regs.ShowsWrite
      · by_cases hFd : stop.regs.write.Watched
        · simp [hCall, hZero, hFd, hNullify, hOutside,
            hKind, Phase.resumedRegs, Stop.EntersWrite]
        · simp [hCall, hZero, hFd, hOutside, hKind,
            Phase.resumedRegs, Stop.EntersWrite, Stop.turn]
      · simp [hCall, hOutside, hKind, Phase.resumedRegs,
          Stop.EntersWrite, Stop.turn]
  | exit =>
      rcases hAllows.of_exit hKind with
        ⟨regs, hInside, hSame⟩
      rw [hInside] at hTracks
      have hBefore := hTracks.toggle_inside
      by_cases hCall : regs.ShowsWrite
      · have hArguments :=
          hTracks.arguments regs rfl hCall
        have hWfd : s.wfd = regs.write.fd :=
          congrArg Write.fd hArguments
        have hWlen : s.wlen = regs.write.len :=
          congrArg Write.len hArguments
        rw [if_pos hCall] at hBefore
        have hWatched :
            (s.wfd = 1 ∨ s.wfd = 2) ↔
              regs.write.Watched := by
          rw [hWfd]
          rfl
        by_cases hFd : regs.write.Watched
        · simp [hSame, hCall, hBefore, hWatched, hFd,
            hNullify, hWlen, hInside, hKind,
            Phase.resumedRegs]
        · simp [hSame, hCall, hBefore, hWatched, hFd,
            hInside, hKind, Phase.resumedRegs]
      · simp [hSame, hCall, hInside, hKind,
          Phase.resumedRegs, Stop.turn]
  | signal sig =>
      rcases hAllows.of_signal hKind with ⟨last, hOutside⟩
      have hCall : ¬ stop.regs.ShowsWrite := by
        apply hQuiet
        simp [Stop.IsSignal, StopKind.pending, hKind]
      simp [hCall, hOutside, hKind, Phase.resumedRegs,
        Stop.turn]

/- The bytes of a write are emitted at its entry. -/
theorem stdoutBytes
    (hTracks : Tracks s phase)
    (hAllows : phase.Allows stop)
    (hQuiet : stop.IsQuiet)
    (hNext : iteration s stop.turn = .next s') :
    s'.stdoutBytes =
      s.stdoutBytes ++ stop.ownBytes s.cmd.copyFh := by
  have hStep := steps_of_iteration hNext
  have hSig := (iteration_stop_iff.mp ⟨s', hNext⟩).1
  rw [hStep.stdoutBytes,
    hTracks.intercepted hAllows hQuiet hSig,
    Stop.ownBytes]
  by_cases hEnters : stop.EntersWrite
  · simp [hEnters]
  · simp [hEnters]

/- A stop goes on if its signal and its copy let it. -/
theorem goes_on_iff
    (hTracks : Tracks s phase)
    (hAllows : phase.Allows stop)
    (hQuiet : stop.IsQuiet) :
    (∃ s', iteration s stop.turn = .next s') ↔
      stop.kind.reported.Expected ∧
        stop.FindsRoom s.cmd.copyFh := by
  rw [iteration_stop_iff]
  apply and_congr_right
  intro hSig
  rw [hTracks.intercepted hAllows hQuiet hSig]
  by_cases hEnters : stop.EntersWrite
  · simp [hEnters, Stop.FindsRoom]
  · simp [hEnters, Stop.FindsRoom]

end Tracks

/- A run over quiet stops keeps track of the program. -/
theorem tracks_of_run
    {s s' : State arch}
    {phase : Phase arch}
    {stops : List (Stop arch)}
    (hTracks : Tracks s phase)
    (hAdmitted : Admitted phase stops)
    (hQuiet : ∀ stop ∈ stops, stop.IsQuiet)
    (hRun :
      run iteration s (stops.map Stop.turn) = .next s') :
    Tracks s' (phase.afterAll stops) := by
  induction stops generalizing s phase with
  | nil =>
      cases hRun
      exact hTracks
  | cons stop stops ih =>
      rw [List.map_cons, run_cons,
        Outcome.andThen_eq_next_iff] at hRun
      rcases hRun with ⟨mid, hFirst, hRest⟩
      rcases hAdmitted with ⟨hAllows, hAdmitted⟩
      have hHead : stop.IsQuiet := hQuiet stop (by simp)
      have hMid := hTracks.step hAllows hHead hFirst
      apply ih hMid hAdmitted _ hRest
      intro other hMem
      exact hQuiet other (List.mem_cons_of_mem stop hMem)

/- A run of system calls, cut in two. -/
theorem tracks_of_split
    {setup : Setup arch}
    {pre post : List (Stop arch)}
    {s : State arch}
    (hAdmitted : Admitted .starting (pre ++ post))
    (hCalls : ∀ stop ∈ pre ++ post, ¬ stop.IsSignal)
    (hRun :
      run iteration setup.begin
          ((pre ++ post).map Stop.turn) = .next s) :
    ∃ mid,
      run iteration setup.begin (pre.map Stop.turn) =
          .next mid ∧
        run iteration mid (post.map Stop.turn) = .next s ∧
        Tracks mid (Phase.starting.afterAll pre) := by
  rw [List.map_append, run_append,
    Outcome.andThen_eq_next_iff] at hRun
  rcases hRun with ⟨mid, hPre, hPost⟩
  refine ⟨mid, hPre, hPost, ?_⟩
  apply tracks_of_run (tracks_begin setup)
    (admitted_append_iff.mp hAdmitted).1 _ hPre
  intro stop hMem
  exact
    Stop.isQuiet_of_call
      (hCalls stop (List.mem_append_left _ hMem))

/- Quiet stops that find room are all resumed from. -/
theorem run_of_quiet
    {s : State arch}
    {phase : Phase arch}
    {stops : List (Stop arch)}
    (hTracks : Tracks s phase)
    (hAdmitted : Admitted phase stops)
    (hExpected :
      ∀ stop ∈ stops, stop.kind.reported.Expected)
    (hQuiet : ∀ stop ∈ stops, stop.IsQuiet)
    (hRoom : ∀ stop ∈ stops, stop.FindsRoom s.cmd.copyFh) :
    ∃ s', run iteration s (stops.map Stop.turn) =
      .next s' := by
  induction stops generalizing s phase with
  | nil => exact ⟨s, rfl⟩
  | cons stop stops ih =>
      rcases hAdmitted with ⟨hAllows, hAdmitted⟩
      have hHead : stop.IsQuiet := hQuiet stop (by simp)
      rcases (hTracks.goes_on_iff hAllows hHead).mpr
          ⟨hExpected stop (by simp),
            hRoom stop (by simp)⟩ with ⟨mid, hFirst⟩
      have hMid := hTracks.step hAllows hHead hFirst
      have hSame :=
        (steps_of_iteration hFirst).sameOptions.copyFh
      have hRest :
          ∃ s', run iteration mid (stops.map Stop.turn) =
            .next s' := by
        apply ih hMid hAdmitted
        · intro other hMem
          exact
            hExpected other (List.mem_cons_of_mem stop hMem)
        · intro other hMem
          exact
            hQuiet other (List.mem_cons_of_mem stop hMem)
        · intro other hMem
          rw [hSame]
          exact hRoom other (List.mem_cons_of_mem stop hMem)
      rcases hRest with ⟨s', hRun⟩
      refine ⟨s', ?_⟩
      rw [List.map_cons, run_cons, hFirst,
        Outcome.next_andThen, hRun]

/- Over a run the bytes of all the writes are emitted. -/
theorem stdoutBytes_of_run
    {s s' : State arch}
    {phase : Phase arch}
    {stops : List (Stop arch)}
    (hTracks : Tracks s phase)
    (hAdmitted : Admitted phase stops)
    (hQuiet : ∀ stop ∈ stops, stop.IsQuiet)
    (hRun :
      run iteration s (stops.map Stop.turn) = .next s') :
    s'.stdoutBytes =
      s.stdoutBytes ++
        stops.flatMap (Stop.ownBytes s.cmd.copyFh) := by
  induction stops generalizing s phase with
  | nil =>
      cases hRun
      simp
  | cons stop stops ih =>
      rw [List.map_cons, run_cons,
        Outcome.andThen_eq_next_iff] at hRun
      rcases hRun with ⟨mid, hFirst, hRest⟩
      rcases hAdmitted with ⟨hAllows, hAdmitted⟩
      rw [List.forall_mem_cons] at hQuiet
      have hMid := hTracks.step hAllows hQuiet.1 hFirst
      have hBytes :=
        hTracks.stdoutBytes hAllows hQuiet.1 hFirst
      have hSame :=
        (steps_of_iteration hFirst).sameOptions.copyFh
      rw [ih hMid hAdmitted hQuiet.2 hRest, hBytes, hSame,
        List.flatMap_cons, List.append_assoc]

/- At its first stop the program was found to be there. -/
theorem childExited_of_run
    {s s' : State arch}
    {stops : List (Stop arch)}
    (hStops : stops ≠ [])
    (hRun :
      run iteration s (stops.map Stop.turn) = .next s') :
    s'.cmd.childExited = true := by
  rcases List.eq_nil_or_concat stops with
    hNil | ⟨init, stop, hLast⟩
  · exact absurd hNil hStops
  · rw [hLast, List.concat_eq_append, List.map_append,
      run_append,
      Outcome.andThen_eq_next_iff] at hRun
    rcases hRun with ⟨mid, _, hRest⟩
    rw [List.map_cons, run_cons,
      Outcome.andThen_eq_next_iff] at hRest
    rcases hRest with ⟨after, hNext, hEnd⟩
    cases hEnd
    exact (steps_of_iteration hNext).childExited rfl

/- System calls that find room are all resumed from. -/
theorem run_of_calls
    {setup : Setup arch}
    {stops : List (Stop arch)}
    (hAdmitted : Admitted .starting stops)
    (hCalls : ∀ stop ∈ stops, ¬ stop.IsSignal)
    (hRoom :
      ∀ stop ∈ stops,
        stop.FindsRoom setup.options.copyFh) :
    ∃ s, run iteration setup.begin
        (stops.map Stop.turn) = .next s ∧
      Tracks s (Phase.starting.afterAll stops) := by
  have hTracks := tracks_begin setup
  have hQuiet : ∀ stop ∈ stops, stop.IsQuiet := by
    intro stop hMem
    exact Stop.isQuiet_of_call (hCalls stop hMem)
  have hExpected :
      ∀ stop ∈ stops, stop.kind.reported.Expected := by
    intro stop hMem
    exact Stop.expected_of_call (hCalls stop hMem)
  rcases run_of_quiet hTracks hAdmitted hExpected hQuiet
      hRoom with ⟨s, hRun⟩
  exact
    ⟨s, hRun, tracks_of_run hTracks hAdmitted hQuiet hRun⟩

/-
  From the entry of each watched write the program is resumed
  with the registers it entered with, but a length of 0: the
  kernel writes no byte of it.
-/
def Setup.Nullifies
    (setup : Setup arch)
    (stops : List (Stop arch)) : Prop :=
  ∀ pre stop post s,
    stops = pre ++ stop :: post →
      stop.EntersWrite →
        run iteration setup.begin
            ((pre ++ [stop]).map Stop.turn) = .next s →
          s.childRegs = stop.regs.set arch.regArg3 0

/- Every watched write of a run of system calls is nullified. -/
theorem nullifies_of_calls
    {setup : Setup arch}
    {stops : List (Stop arch)}
    (hAdmitted : Admitted .starting stops)
    (hCalls : ∀ stop ∈ stops, ¬ stop.IsSignal) :
    setup.Nullifies stops := by
  intro pre stop post s hSplit hEnters hRun
  rw [hSplit] at hAdmitted hCalls
  rcases admitted_append_iff.mp hAdmitted with
    ⟨hPre, hAllows, _⟩
  rw [List.map_append, List.map_singleton, run_concat,
    Outcome.andThen_eq_next_iff] at hRun
  rcases hRun with ⟨mid, hBefore, hLast⟩
  have hQuiet : ∀ other ∈ pre, other.IsQuiet := by
    intro other hMem
    exact
      Stop.isQuiet_of_call
        (hCalls other (List.mem_append_left _ hMem))
  have hHere : stop.IsQuiet :=
    Stop.isQuiet_of_call (hCalls stop (by simp))
  have hTracks :=
    tracks_of_run (tracks_begin setup) hPre hQuiet hBefore
  have hNullify : mid.cmd.nullify = true :=
    (sameOptions_of_run hBefore).nullify
  have hChild :=
    hTracks.childRegs hAllows hHere hNullify hLast
  rcases hAllows.of_entry hEnters.1 with ⟨last, hOutside⟩
  have hResumed :
      (Phase.outside last).resumedRegs stop =
        if stop.EntersWrite then
          stop.regs.set arch.regArg3 0
        else
          stop.regs := by
    simp only [Phase.resumedRegs, hEnters.1]
  rw [hChild, hOutside, hResumed]
  exact if_pos hEnters

end Errmark
