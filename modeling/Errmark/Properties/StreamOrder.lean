import Errmark.Program.Emission
import Errmark.Program.Sinks
import Errmark.Tracee.Tracking

/-
  The order of the output on a shared terminal.

  Data goes through a stream with a buffer and marks do not,
  but every mark finds the buffer flushed. What the terminal
  gets is therefore the stream in which each write follows
  the last one, with the marks of a switch between writes to
  different descriptors.

  Key definitions include:
    * `Stop.writes`
    * `Reference.step`
    * `reference`
    * `Follows`

  Key theorems include:
    * `Follows.step`
    * `Follows.run`
    * `terminal_in_order`
-/

------------------------------------------------------------
-- The Reference Stream
------------------------------------------------------------

namespace Errmark

open Foundation

variable {arch : Arch}

/- A write of the program to fd 1 or 2, with its bytes. -/
def Stop.writes
    (stop : Stop arch) : List (Int × List UInt8) :=
  if stop.EntersWrite then
    [(stop.regs.write.fd,
      stop.memory.region stop.regs.write.addr
        stop.regs.write.len.toNat)]
  else
    []

/- The bytes of a mark, none if it is not set. -/
def Marks.bytes
    (marks : Marks)
    (fd : Int)
    (edge : Edge) : List UInt8 :=
  (marks.text fd edge).getD []

/- The stream so far, with the descriptor it is on. -/
structure Reference where
  current : Option Int
  stream : List UInt8
  deriving DecidableEq, Repr

namespace Reference

/- Nothing is open, and nothing shown. -/
def empty : Reference where
  current := none
  stream := []

/- The marks between the last write and one to `fd`. -/
def switch
    (marks : Marks)
    (r : Reference)
    (fd : Int) : List UInt8 :=
  if r.current = some fd then
    []
  else
    (match r.current with
      | none => []
      | some last => marks.bytes last .finish) ++
      marks.bytes fd .start

/- A write is shown in its group. -/
def step
    (marks : Marks)
    (r : Reference)
    (w : Int × List UInt8) : Reference where
  current := some w.1
  stream := r.stream ++ r.switch marks w.1 ++ w.2

end Reference

/- The stream that some writes make. -/
def reference
    (marks : Marks)
    (writes : List (Int × List UInt8)) : List UInt8 :=
  (writes.foldl (Reference.step marks) .empty).stream

end Errmark

------------------------------------------------------------
-- errmark Follows The Reference
------------------------------------------------------------

namespace Errmark

open Foundation

variable {arch : Arch}

/- The terminal is shown the stream, its last group open. -/
structure Follows
    (render : Diagnostic → List UInt8)
    (s : State arch)
    (r : Reference) : Prop where
  opened : s.openedFd = r.current.getD (-1)
  current :
    ∀ fd, r.current = some fd → fd = 1 ∨ fd = 2
  stream :
    (s.shown render terminal).flatMap Piece.bytes =
      r.stream

/- At first there is nothing to follow. -/
theorem follows_begin
    {setup : Setup arch}
    (hSilent : setup.Silent)
    (render : Diagnostic → List UInt8) :
    Follows render setup.begin .empty where
  opened := rfl
  current := by
    intro fd hNone
    cases hNone
  stream := by
    rw [State.shown, State.ops, hSilent.calls_begin]
    rfl

/- The bytes of the marks at an edge. -/
theorem bytes_edgeMarks
    (marks : Marks)
    (fd : Int)
    (edge : Edge) :
    ((marks.edgeMarks fd edge).map Piece.mark).flatMap
        Piece.bytes =
      marks.bytes fd edge := by
  unfold Marks.edgeMarks Marks.bytes
  cases marks.text fd edge with
  | none => rfl
  | some text => simp [Piece.bytes]

/- The bytes of a write. -/
theorem bytes_data
    (w : Write arch)
    (memory : Memory arch) :
    ((w.bytes memory).map Piece.data).flatMap
        Piece.bytes =
      memory.region w.addr w.len.toNat := by
  simp [Write.bytes, List.flatMap_map, Piece.bytes,
    OutByte.value, Cell.value]

namespace Follows

variable {render : Diagnostic → List UInt8}
variable {s s' : State arch}
variable {r : Reference}
variable {stop : Stop arch}

/- A write switches groups as the reference does. -/
theorem bytes_switchPieces
    (hFollows : Follows render s r)
    {w : Write arch}
    (hFd : w.Watched)
    (hKept : ¬ IsIgnored w.addr w.len) :
    (s.switchPieces terminal w).flatMap Piece.bytes =
      r.switch s.marks w.fd := by
  have hOnTerminal : terminal w.fd = true := by
    simpa [terminal, Write.Watched] using hFd
  unfold State.switchPieces Reference.switch
  rw [hFollows.opened]
  cases hCurrent : r.current with
  | none =>
      have hNew : w.fd ≠ -1 := by
        rcases hFd with hFd | hFd
        · rw [hFd]
          decide
        · rw [hFd]
          decide
      have hNowhere : terminal (-1) = false := rfl
      simp [hKept, hNew, hOnTerminal, hNowhere,
        bytes_edgeMarks]
  | some last =>
      have hLast : terminal last = true := by
        simpa [terminal] using
          hFollows.current last hCurrent
      by_cases hSame : w.fd = last
      · simp [hSame]
      · have hOther : ¬ last = w.fd := Ne.symm hSame
        simp [hKept, hSame, hOther, hOnTerminal, hLast,
          bytes_edgeMarks]

/- Each system call stop adds its write to the stream. -/
theorem step
    {phase : Phase arch}
    (hFollows : Follows render s r)
    (hSilent : s.Silent)
    (hTracks : Tracks s phase)
    (hAllows : phase.Allows stop)
    (hCall : ¬ stop.IsSignal)
    (hKept :
      stop.EntersWrite →
        ¬ IsIgnored stop.regs.write.addr
          stop.regs.write.len)
    (hWhole :
      stop.EntersWrite →
        stop.regs.write.IsWhole stop.memory)
    (hRoom : stop.FindsRoom s.cmd.copyFh)
    (hNext : iteration s stop.turn = .next s') :
    Follows render s'
      (stop.writes.foldl (Reference.step s.marks) r) := by
  have hStep := steps_of_iteration hNext
  have hShown :=
    hStep.shown render hSilent watches_terminal
  have hOpened := hStep.openedFd
  have hIntercepted :=
    hTracks.intercepted hAllows
      (Stop.isQuiet_of_call hCall)
      (Stop.expected_of_call hCall)
  rw [hIntercepted] at hShown hOpened
  unfold Stop.writes
  by_cases hEnters : stop.EntersWrite
  · have hFd : stop.regs.write.Watched := hEnters.2.2
    have hSwitch :=
      hFollows.bytes_switchPieces hFd (hKept hEnters)
    have hEmitted :
        stop.regs.write.emitted s.cmd.copyFh stop.turn =
          stop.regs.write.bytes stop.memory :=
      stop.regs.write.emitted_eq_bytes (hWhole hEnters)
        (hRoom hEnters)
    simp only [hEnters, if_true] at hShown hOpened ⊢
    rw [if_neg (hKept hEnters)] at hOpened
    refine ⟨hOpened, ?_, ?_⟩
    · intro fd hSame
      cases hSame
      exact hFd
    · rw [hShown, List.flatMap_append, hFollows.stream,
        List.flatMap_append, hSwitch, hEmitted]
      simp [terminal, bytes_data, Reference.step]
  · simp only [hEnters, if_false, List.append_nil]
      at hShown hOpened ⊢
    refine ⟨hOpened.trans hFollows.opened,
      hFollows.current, ?_⟩
    rw [hShown]
    exact hFollows.stream

/- A whole run follows the reference. -/
theorem run
    {phase : Phase arch}
    {stops : List (Stop arch)}
    (hFollows : Follows render s r)
    (hSilent : s.Silent)
    (hTracks : Tracks s phase)
    (hAdmitted : Admitted phase stops)
    (hCalls : ∀ stop ∈ stops, ¬ stop.IsSignal)
    (hKept :
      ∀ stop ∈ stops, stop.EntersWrite →
        ¬ IsIgnored stop.regs.write.addr
          stop.regs.write.len)
    (hWhole :
      ∀ stop ∈ stops, stop.EntersWrite →
        stop.regs.write.IsWhole stop.memory)
    (hRoom : ∀ stop ∈ stops, stop.FindsRoom s.cmd.copyFh)
    (hRun :
      Foundation.run iteration s (stops.map Stop.turn) =
        .next s') :
    Follows render s'
      ((stops.flatMap Stop.writes).foldl
        (Reference.step s.marks) r) := by
  induction stops generalizing s r phase with
  | nil =>
      cases hRun
      exact hFollows
  | cons stop stops ih =>
      rw [List.map_cons, run_cons,
        Outcome.andThen_eq_next_iff] at hRun
      rcases hRun with ⟨mid, hFirst, hRest⟩
      rcases hAdmitted with ⟨hAllows, hAdmitted⟩
      rw [List.forall_mem_cons]
        at hCalls hKept hWhole hRoom
      have hSame := (steps_of_iteration hFirst).sameOptions
      have hMid :=
        hFollows.step hSilent hTracks hAllows hCalls.1
          hKept.1 hWhole.1 hRoom.1 hFirst
      have hNext :=
        hTracks.step hAllows
          (Stop.isQuiet_of_call hCalls.1) hFirst
      rw [List.flatMap_cons, List.foldl_append, ← hSame.marks]
      rw [← hSame.marks] at hMid
      rw [← hSame.copyFh] at hRoom
      exact
        ih hMid (hSilent.of_sameOptions hSame) hNext
          hAdmitted hCalls.2 hKept.2 hWhole.2 hRoom.2 hRest

end Follows

/-
  At every resume the terminal has got the reference stream,
  up to what still waits in the buffer of stdout. The program
  itself adds nothing to it: each of its writes is nullified.
-/
theorem terminal_in_order
    (setup : Setup arch)
    (stops : List (Stop arch))
    (render : Diagnostic → List UInt8)
    (early : Nat → List (Int × Nat))
    (hSilent : setup.Silent)
    (hAdmitted : Admitted .starting stops)
    (hCalls : ∀ stop ∈ stops, ¬ stop.IsSignal)
    (hKept :
      ∀ stop ∈ stops, stop.EntersWrite →
        ¬ IsIgnored stop.regs.write.addr
          stop.regs.write.len)
    (hWhole :
      ∀ stop ∈ stops, stop.EntersWrite →
        stop.regs.write.IsWhole stop.memory)
    (hRoom :
      ∀ stop ∈ stops,
        stop.FindsRoom setup.options.copyFh) :
    ∃ s,
      setup.errmark (stops.map Stop.turn) = .next s ∧
        setup.Nullifies stops ∧
        ((s.channels render early).contents terminal
            1).flatMap Piece.bytes =
          reference setup.marks
            (stops.flatMap Stop.writes) := by
  rcases run_of_calls hAdmitted hCalls hRoom with
    ⟨s, hRun, _⟩
  have hInOrder :=
    (inOrder_of_run watches_terminal hSilent.begin
      (hSilent.inOrder_begin render terminal 1) hRun).2
  have hFollows :=
    (follows_begin hSilent render).run hSilent.begin
      (tracks_begin setup) hAdmitted hCalls hKept hWhole
      hRoom hRun
  refine ⟨s, ?_, nullifies_of_calls hAdmitted hCalls, ?_⟩
  · rw [Setup.errmark_eq, hRun]
    rfl
  · rw [State.contents_channels watches_terminal hInOrder]
    exact hFollows.stream

/- A write to each descriptor, and a copy of the second. -/
theorem sample_terminal_in_order :
    ∃ s,
      (sampleSetup true).errmark
          ((sampleStops 1 1 ++
            (sampleStops 2 3).tail).map Stop.turn) =
        .next s ∧
      (sampleSetup true).Nullifies
        (sampleStops 1 1 ++ (sampleStops 2 3).tail) ∧
      ((s.channels (fun _ => [])
          (fun k => [(1, k)])).contents terminal
            1).flatMap Piece.bytes =
        [0x3c, 0x78, 0x3e, 0x5b, 0x78, 0x78, 0x78] := by
  have hStream :
      reference sampleMarks
          ((sampleStops 1 1 ++
            (sampleStops 2 3).tail).flatMap Stop.writes) =
        [0x3c, 0x78, 0x3e, 0x5b, 0x78, 0x78, 0x78] := by
    decide +kernel
  rw [← hStream]
  exact
    terminal_in_order (sampleSetup true)
      (sampleStops 1 1 ++ (sampleStops 2 3).tail)
      (fun _ => []) (fun k => [(1, k)]) ⟨rfl, rfl⟩
      (by decide +kernel) (by decide +kernel)
      (by decide +kernel) (by decide +kernel)
      (by decide +kernel)

end Errmark
