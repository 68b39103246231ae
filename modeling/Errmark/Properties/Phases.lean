import Mathlib.Data.List.Induction
import Errmark.Tracee.Tracking

/-
  Entry and exit stops told apart by the toggle.

  A run is synchronised when at each of its stops the toggle
  says whether the program is inside a write call, and each
  write is intercepted at its own entry and exit.

  Key definitions include:
    * `Handles`
    * `Synchronised`

  Key theorems include:
    * `Synchronised.isQuiet`
    * `Synchronised.at_stop`
    * `synchronised_of_stops`
    * `synchronised_iff`
-/

------------------------------------------------------------
-- Synchronised Runs
------------------------------------------------------------

namespace Errmark

open Foundation

variable {arch : Arch}

/-
  One stop is handled as its phase asks for: the bytes that
  the program wants to write are emitted and the length is
  nullified at the entry of a write, its result is replaced
  at its exit, and nothing is emitted or changed at any
  other stop.
-/
structure Handles
    (s s' : State arch)
    (phase : Phase arch)
    (stop : Stop arch) : Prop where
  childRegs : s'.childRegs = phase.resumedRegs stop
  stdoutBytes :
    s'.stdoutBytes = s.stdoutBytes ++ stop.asked

/-
  At each stop of the run, and after the last one, errmark
  is in its loop and the toggle shows the phase.
-/
def Synchronised
    (setup : Setup arch)
    (stops : List (Stop arch)) : Prop :=
  ∀ pre post, stops = pre ++ post →
    ∃ s,
      run iteration setup.begin (pre.map Stop.turn) =
          .next s ∧
        (s.toggle = 1 ↔
          (Phase.starting.afterAll pre).InsideWrite) ∧
        ∀ stop rest, post = stop :: rest →
          ∃ s', iteration s stop.turn = .next s' ∧
            Handles s s' (Phase.starting.afterAll pre) stop

/- The toggle is up inside of writes only. -/
theorem Tracks.toggle_eq_one_iff
    {s : State arch}
    {phase : Phase arch}
    (hTracks : Tracks s phase) :
    s.toggle = 1 ↔ phase.InsideWrite := by
  rw [hTracks.toggle]
  by_cases hInside : phase.InsideWrite
  · simp [hInside]
  · simp [hInside]

/- A signal stop with the number of a write flips the toggle. -/
theorem toggle_of_not_quiet
    {s s' : State arch}
    {phase : Phase arch}
    {stop : Stop arch}
    (hTracks : Tracks s phase)
    (hAllows : phase.Allows stop)
    (hLoud : ¬ stop.IsQuiet)
    (hNext : iteration s stop.turn = .next s') :
    s'.toggle = 1 ∧ ¬ (phase.after stop).InsideWrite := by
  unfold Stop.IsQuiet at hLoud
  push Not at hLoud
  rcases hLoud with ⟨hSignal, hCall⟩
  cases hKind : stop.kind with
  | exec => simp [Stop.IsSignal, StopKind.pending, hKind]
      at hSignal
  | entry => simp [Stop.IsSignal, StopKind.pending, hKind]
      at hSignal
  | exit => simp [Stop.IsSignal, StopKind.pending, hKind]
      at hSignal
  | signal sig =>
      rcases hAllows.of_signal hKind with ⟨last, hOutside⟩
      rw [hOutside] at hTracks
      have hZero := hTracks.toggle_outside
      have hToggle := toggle_step hNext
      refine ⟨?_, ?_⟩
      · simp [hToggle, hCall, hZero]
      · simp [Phase.after, hKind, hOutside,
          Phase.InsideWrite]

namespace Synchronised

variable {setup : Setup arch}
variable {stops : List (Stop arch)}

/- A synchronised run tracks its program. -/
theorem tracks
    {pre post : List (Stop arch)}
    {s : State arch}
    (hAdmitted : Admitted .starting (pre ++ post))
    (hQuiet : ∀ stop ∈ pre, stop.IsQuiet)
    (hRun :
      run iteration setup.begin (pre.map Stop.turn) =
        .next s) :
    Tracks s (Phase.starting.afterAll pre) :=
  tracks_of_run (tracks_begin setup)
    (admitted_append_iff.mp hAdmitted).1 hQuiet hRun

/- No signal stop of a synchronised run shows a write. -/
theorem isQuiet
    (hSync : Synchronised setup stops)
    (hAdmitted : Admitted .starting stops)
    (pre post : List (Stop arch))
    (hSplit : stops = pre ++ post) :
    ∀ stop ∈ pre, stop.IsQuiet := by
  induction pre using List.reverseRecOn generalizing post with
  | nil =>
      intro stop hMem
      cases hMem
  | append_singleton pre stop ih =>
      rw [List.append_assoc] at hSplit
      have hQuiet := ih ([stop] ++ post) hSplit
      rw [hSplit] at hAdmitted
      have hAllows :=
        (admitted_append_iff.mp hAdmitted).2.1
      rcases hSync pre ([stop] ++ post) hSplit with
        ⟨s, hRun, _, hStop⟩
      rcases hStop stop post rfl with ⟨s', hNext, _⟩
      have hTracks := tracks hAdmitted hQuiet hRun
      have hLast : stop.IsQuiet := by
        by_contra hLoud
        rcases toggle_of_not_quiet hTracks hAllows hLoud
            hNext with ⟨hOne, hOutside⟩
        have hSplit' : stops = (pre ++ [stop]) ++ post := by
          rw [hSplit, List.append_assoc]
        rcases hSync (pre ++ [stop]) post hSplit' with
          ⟨s'', hRun', hToggle, _⟩
        rw [List.map_append, List.map_cons, List.map_nil,
          run_snoc iteration hRun, hNext,
          Outcome.next.injEq] at hRun'
        rw [← hRun'] at hToggle
        apply hOutside
        have hInside := hToggle.mp hOne
        rw [Phase.afterAll_append] at hInside
        exact hInside
      intro other hMem
      rcases List.mem_append.mp hMem with hOld | hNew
      · exact hQuiet other hOld
      · rw [List.mem_singleton.mp hNew]
        exact hLast

end Synchronised

/- What a handled stop tells about the program's buffer. -/
theorem Handles.readsWhole
    {s s' : State arch}
    {phase : Phase arch}
    {stop : Stop arch}
    (hHandles : Handles s s' phase stop)
    (hTracks : Tracks s phase)
    (hAllows : phase.Allows stop)
    (hQuiet : stop.IsQuiet)
    (hNext : iteration s stop.turn = .next s') :
    stop.ReadsWhole := by
  have hRoom :=
    ((hTracks.goes_on_iff hAllows hQuiet).mp
      ⟨s', hNext⟩).2
  have hOwn := hTracks.stdoutBytes hAllows hQuiet hNext
  rw [hHandles.stdoutBytes] at hOwn
  apply (Stop.ownBytes_eq_asked_iff hRoom).mp
  exact (List.append_cancel_left hOwn).symm

/- A stop that goes on is handled if its buffer is read. -/
theorem Tracks.handles
    {s s' : State arch}
    {phase : Phase arch}
    {stop : Stop arch}
    (hTracks : Tracks s phase)
    (hAllows : phase.Allows stop)
    (hQuiet : stop.IsQuiet)
    (hNullify : s.cmd.nullify = true)
    (hWhole : stop.ReadsWhole)
    (hNext : iteration s stop.turn = .next s') :
    Handles s s' phase stop where
  childRegs :=
    hTracks.childRegs hAllows hQuiet hNullify hNext
  stdoutBytes := by
    have hRoom :=
      ((hTracks.goes_on_iff hAllows hQuiet).mp
        ⟨s', hNext⟩).2
    rw [hTracks.stdoutBytes hAllows hQuiet hNext,
      (Stop.ownBytes_eq_asked_iff hRoom).mpr hWhole]

/- Every stop of a synchronised run went on, and was handled. -/
theorem Synchronised.at_stop
    {setup : Setup arch}
    {stops : List (Stop arch)}
    (hSync : Synchronised setup stops)
    (hAdmitted : Admitted .starting stops)
    {stop : Stop arch}
    (hMem : stop ∈ stops) :
    stop.IsQuiet ∧ stop.FindsRoom setup.options.copyFh ∧
      stop.ReadsWhole := by
  have hQuiet :=
    hSync.isQuiet hAdmitted stops []
      (List.append_nil stops).symm
  have hHead : stop.IsQuiet := hQuiet stop hMem
  rcases List.mem_iff_append.mp hMem with ⟨pre, post, hSplit⟩
  rcases hSync pre (stop :: post) hSplit with
    ⟨s, hRun, _, hStop⟩
  rcases hStop stop post rfl with ⟨s', hNext, hHandles⟩
  rw [hSplit] at hAdmitted hQuiet
  have hAllows := (admitted_append_iff.mp hAdmitted).2.1
  have hTracks :=
    Synchronised.tracks hAdmitted
      (fun other hOther =>
        hQuiet other (List.mem_append_left _ hOther))
      hRun
  have hGoesOn :=
    (hTracks.goes_on_iff hAllows hHead).mp ⟨s', hNext⟩
  have hCopy : s.cmd.copyFh = setup.options.copyFh :=
    (sameOptions_of_run hRun).copyFh
  rw [hCopy] at hGoesOn
  exact
    ⟨hHead, hGoesOn.2,
      hHandles.readsWhole hTracks hAllows hHead hNext⟩

/- Under these conditions a run is synchronised. -/
theorem synchronised_of_stops
    {setup : Setup arch}
    {stops : List (Stop arch)}
    (hAdmitted : Admitted .starting stops)
    (hExpected :
      ∀ stop ∈ stops, stop.kind.reported.Expected)
    (hEach :
      ∀ stop ∈ stops,
        stop.IsQuiet ∧
          stop.FindsRoom setup.options.copyFh ∧
          stop.ReadsWhole) :
    Synchronised setup stops := by
  intro pre post hSplit
  rw [hSplit] at hAdmitted hExpected hEach
  have hPre := (admitted_append_iff.mp hAdmitted).1
  have hPreEach :=
    fun stop hMem =>
      hEach stop (List.mem_append_left post hMem)
  have hPreQuiet : ∀ stop ∈ pre, stop.IsQuiet :=
    fun stop hMem => (hPreEach stop hMem).1
  rcases run_of_quiet (tracks_begin setup) hPre
      (fun stop hMem =>
        hExpected stop (List.mem_append_left _ hMem))
      hPreQuiet
      (fun stop hMem => (hPreEach stop hMem).2.1) with
    ⟨s, hRun⟩
  have hTracks :=
    Synchronised.tracks hAdmitted hPreQuiet hRun
  refine ⟨s, hRun, hTracks.toggle_eq_one_iff, ?_⟩
  intro stop rest hPost
  rw [hPost] at hAdmitted hExpected hEach
  have hAllows := (admitted_append_iff.mp hAdmitted).2.1
  rcases hEach stop (by simp) with ⟨hHead, hRoom, hWhole⟩
  have hSame := sameOptions_of_run hRun
  have hCopy : s.cmd.copyFh = setup.options.copyFh :=
    hSame.copyFh
  have hNullify : s.cmd.nullify = true := hSame.nullify
  have hGoesOn :
      ∃ s', iteration s stop.turn = .next s' := by
    apply (hTracks.goes_on_iff hAllows hHead).mpr
    rw [hCopy]
    exact ⟨hExpected stop (by simp), hRoom⟩
  rcases hGoesOn with ⟨s', hNext⟩
  exact
    ⟨s', hNext,
      hTracks.handles hAllows hHead hNullify hWhole hNext⟩

/-
  A run is synchronised exactly when no signal stop shows
  the number of the write call, every write that is copied
  finds room for its copy, and the buffer of every watched
  write can be read as a whole.
-/
theorem synchronised_iff
    (setup : Setup arch)
    (stops : List (Stop arch))
    (hAdmitted : Admitted .starting stops)
    (hExpected :
      ∀ stop ∈ stops, stop.kind.reported.Expected) :
    Synchronised setup stops ↔
      (∀ stop ∈ stops, stop.IsQuiet) ∧
        (∀ stop ∈ stops,
          stop.FindsRoom setup.options.copyFh) ∧
        ∀ stop ∈ stops, stop.ReadsWhole := by
  constructor
  · intro hSync
    exact
      ⟨fun _ hMem => (hSync.at_stop hAdmitted hMem).1,
        fun _ hMem => (hSync.at_stop hAdmitted hMem).2.1,
        fun _ hMem => (hSync.at_stop hAdmitted hMem).2.2⟩
  · rintro ⟨hQuiet, hRoom, hWhole⟩
    apply synchronised_of_stops hAdmitted hExpected
    intro stop hMem
    exact
      ⟨hQuiet stop hMem, hRoom stop hMem, hWhole stop hMem⟩

/- The signal is taken for the entry of another write. -/
theorem sample_signal_not_synchronised :
    Admitted .starting sampleSignalStops ∧
      (∀ stop ∈ sampleSignalStops,
        stop.kind.reported.Expected) ∧
      ¬ Synchronised (sampleSetup false)
        sampleSignalStops := by
  refine
    ⟨by decide +kernel, by decide +kernel, ?_⟩
  intro hSync
  rcases hSync sampleSignalStops []
      (List.append_nil _).symm with ⟨s, hRun, hToggle, _⟩
  have hFinal :
      (run iteration (sampleSetup false).begin
        (sampleSignalStops.map Stop.turn)).final.toggle =
          1 := by
    decide +kernel
  have hOutside :
      ¬ (Phase.starting.afterAll
        sampleSignalStops).InsideWrite := by
    decide +kernel
  rw [hRun] at hFinal
  exact hOutside (hToggle.mp hFinal)

/- A write to fd 2 with a copy, and no signal. -/
theorem sample_synchronised :
    Synchronised (sampleSetup true) (sampleStops 2 1) :=
  (synchronised_iff (sampleSetup true) (sampleStops 2 1)
    (by decide +kernel) (by decide +kernel)).mpr
    (by decide +kernel)

end Errmark
