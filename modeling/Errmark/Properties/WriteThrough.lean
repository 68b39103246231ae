import Mathlib.Data.List.Induction
import Errmark.Program.Emission
import Errmark.Program.Sinks
import Errmark.Tracee.Tracking

/-
  Whether the bytes of a write are out of the buffer of
  stdout when the program goes on from its entry.

  `pmem_fwrite` flushes its stream at its end, but not when
  it returns early, and the copy of a write is never
  flushed. What is left over waits until the next flush.

  Key definitions include:
    * `State.held`
    * `WrittenThrough`
    * `StdoutEmpty`
    * `Stop.PassesThrough`

  Key theorems include:
    * `writtenThrough_iff`
    * `stdoutEmpty_iff`
    * `Tracks.held_eq_nil_iff`
    * `written_through_iff`
-/

------------------------------------------------------------
-- The Buffer Of stdout
------------------------------------------------------------

namespace Errmark

open Foundation

variable {arch : Arch}

/- What a call leaves of the data in the buffer of stdout. -/
def Call.hold (held : List OutByte) : Call → List OutByte
| .fprintf _ _ => held
| .fwrite .stdout bytes => held ++ bytes
| .fwrite .stderr _ => held
| .fwrite .copyFh _ => held
| .fwrite .traceFbt _ => held
| .fflush .stdout => []
| .fflush .stderr => held
| .fflush .copyFh => held
| .fflush .traceFbt => held
| .write _ => held
| .diagnose _ _ => held
| .sleep _ => held

/- The data in the buffer, if nothing goes out early. -/
def State.held (s : State arch) : List OutByte :=
  s.calls.foldl Call.hold []

/-
  No data of the program waits in the buffer of stdout,
  whatever its buffering mode. Text of errmark itself may
  wait there: with `verbose`, the number of the child does.
  All bytes of a copy are data, those that were never read
  from the program as well.
-/
def WrittenThrough
    (render : Diagnostic → List UInt8)
    (s : State arch) : Prop :=
  ∀ early b,
    Piece.data b ∉ (s.channels render early).pending 1

/- Nothing at all waits there. -/
def StdoutEmpty
    (render : Diagnostic → List UInt8)
    (s : State arch) : Prop :=
  ∀ early, (s.channels render early).pending 1 = []

/- The byte of the program that a piece is, if it is one. -/
def Piece.data? : Piece → Option OutByte
| .data b => some b
| .message _ => none
| .mark _ => none

/- Text is no data. -/
theorem data?_textPieces (text : String) :
    (textPieces text).filterMap Piece.data? = [] := by
  rw [List.filterMap_eq_nil_iff]
  intro p hMem
  rcases List.mem_map.mp hMem with ⟨b, _, hText⟩
  rw [← hText]
  rfl

/- The data in the buffer of stdout, call by call. -/
theorem data?_buffer
    (render : Diagnostic → List UInt8)
    (buf : List Piece)
    (call : Call) :
    ((call.ops render).foldl
        (fun buf op => op.buffer 1 buf) buf).filterMap
          Piece.data? =
      call.hold (buf.filterMap Piece.data?) := by
  cases call with
  | fprintf file text =>
      cases file <;>
        simp [Call.ops, Call.hold, StreamOp.buffer, File.fd,
          data?_textPieces]
  | fwrite file bytes =>
      have hAll :
          (bytes.map Piece.data).filterMap Piece.data? =
            bytes := by
        rw [List.filterMap_map]
        exact List.filterMap_some
      cases file <;>
        simp [Call.ops, Call.hold, StreamOp.buffer, File.fd,
          hAll]
  | fflush file =>
      cases file <;>
        simp [Call.ops, Call.hold, StreamOp.buffer, File.fd]
  | write mark => rfl
  | diagnose file what =>
      cases file <;>
        simp [Call.ops, Call.hold, StreamOp.buffer, File.fd,
          List.filterMap_map, Piece.data?,
          Function.comp_def]
  | sleep seconds => rfl

/- The data in the buffer of stdout is what calls hold back. -/
theorem data?_buffers
    (render : Diagnostic → List UInt8)
    (buf : List Piece)
    (calls : List Call) :
    ((calls.flatMap (Call.ops render)).foldl
        (fun buf op => op.buffer 1 buf) buf).filterMap
          Piece.data? =
      calls.foldl Call.hold
        (buf.filterMap Piece.data?) := by
  induction calls generalizing buf with
  | nil => rfl
  | cons call calls ih =>
      rw [List.flatMap_cons, List.foldl_append, ih,
        data?_buffer, List.foldl_cons]

/- Only what is held may wait. -/
theorem writtenThrough_iff
    {render : Diagnostic → List UInt8}
    {s : State arch} :
    WrittenThrough render s ↔ s.held = [] := by
  have hHeld := data?_buffers render [] s.calls
  constructor
  · intro hThrough
    have hPending :=
      Channels.pending_execAll_eq 0 Channels.empty (1 : Int)
        (s.ops render)
    have hNone := hThrough fun _ => []
    rw [State.channels, hPending] at hNone
    rw [List.filterMap_nil] at hHeld
    rw [State.held, ← hHeld, List.filterMap_eq_nil_iff]
    intro p hMem
    cases p with
    | data b => exact absurd hMem (hNone b)
    | message b => rfl
    | mark m => rfl
  · intro hNone early b hMem
    have hSuffix :=
      Channels.pending_execAll_suffix early 0
        (List.suffix_refl
          (Channels.empty.pending (1 : Int)))
        (s.ops render)
    have hIn := hSuffix.subset hMem
    have hData : b ∈ s.held := by
      rw [List.filterMap_nil] at hHeld
      rw [State.held, ← hHeld]
      exact List.mem_filterMap.mpr ⟨_, hIn, rfl⟩
    rw [hNone] at hData
    cases hData

/- A call that says nothing puts only data in the buffer. -/
theorem data_of_buffer
    {render : Diagnostic → List UInt8}
    {buf : List Piece}
    (hBuf : ∀ p ∈ buf, ∃ b, p = .data b)
    {call : Call}
    (hText : call.textTo .stdout = []) :
    ∀ p ∈ (call.ops render).foldl
        (fun buf op => op.buffer 1 buf) buf,
      ∃ b, p = .data b := by
  cases call with
  | fprintf file text =>
      cases file with
      | stdout => simp at hText
      | stderr | copyFh | traceFbt =>
          simpa [Call.ops, StreamOp.buffer, File.fd]
            using hBuf
  | fwrite file bytes =>
      cases file with
      | stdout =>
          intro p hMem
          simp only [Call.ops, StreamOp.buffer, File.fd,
            List.foldl_cons, List.foldl_nil, if_true,
            List.mem_append, List.mem_map] at hMem
          rcases hMem with hOld | ⟨b, _, rfl⟩
          · exact hBuf p hOld
          · exact ⟨b, rfl⟩
      | stderr | copyFh | traceFbt =>
          simpa [Call.ops, StreamOp.buffer, File.fd]
            using hBuf
  | fflush file =>
      cases file with
      | stdout => simp [Call.ops, StreamOp.buffer, File.fd]
      | stderr | copyFh | traceFbt =>
          simpa [Call.ops, StreamOp.buffer, File.fd]
            using hBuf
  | write mark => exact hBuf
  | diagnose file what =>
      cases file with
      | stdout => simp at hText
      | stderr | copyFh | traceFbt =>
          simpa [Call.ops, StreamOp.buffer, File.fd]
            using hBuf
  | sleep seconds => exact hBuf

/- Without text there is nothing else in it. -/
theorem data_of_buffers
    {render : Diagnostic → List UInt8}
    {buf : List Piece}
    (hBuf : ∀ p ∈ buf, ∃ b, p = .data b)
    {calls : List Call}
    (hText : calls.flatMap (Call.textTo .stdout) = []) :
    ∀ p ∈ (calls.flatMap (Call.ops render)).foldl
        (fun buf op => op.buffer 1 buf) buf,
      ∃ b, p = .data b := by
  induction calls generalizing buf with
  | nil => exact hBuf
  | cons call calls ih =>
      rw [List.flatMap_cons, List.append_eq_nil_iff]
        at hText
      rw [List.flatMap_cons, List.foldl_append]
      exact ih (data_of_buffer hBuf hText.1) hText.2

/- Where errmark said nothing, only data may wait. -/
theorem stdoutEmpty_iff
    {render : Diagnostic → List UInt8}
    {s : State arch}
    (hText : s.textTo .stdout = []) :
    StdoutEmpty render s ↔ WrittenThrough render s := by
  constructor
  · intro hEmpty early b hMem
    rw [hEmpty early] at hMem
    cases hMem
  · intro hThrough early
    rw [List.eq_nil_iff_forall_not_mem]
    intro p hMem
    have hSuffix :=
      Channels.pending_execAll_suffix early 0
        (List.suffix_refl
          (Channels.empty.pending (1 : Int)))
        (s.ops render)
    have hNone :
        ∀ p ∈ Channels.empty.pending (1 : Int),
          ∃ b, p = Piece.data b := by
      intro p hNil
      cases hNil
    rcases data_of_buffers hNone hText p
        (hSuffix.subset hMem) with ⟨b, rfl⟩
    exact hThrough early b hMem

/- Without `verbose`, errmark says nothing to stdout. -/
theorem textTo_stdout_of_run
    {setup : Setup arch}
    {turns : List (Turn arch)}
    {s : State arch}
    (hVerbose : setup.options.cmd.verbose = false)
    (hRun : run iteration setup.begin turns = .next s) :
    s.textTo .stdout = [] := by
  have hBegin : setup.begin.textTo .stdout = [] := by
    unfold Setup.begin startTracing State.textTo
    dsimp only
    split
    · next hSet =>
        have hFlag :
            setup.options.cmd.verbose = true := hSet
        rw [hVerbose] at hFlag
        cases hFlag
    · rfl
  rw [textTo_of_run rfl (by decide) hRun, hBegin]

end Errmark

------------------------------------------------------------
-- What An Iteration Leaves There
------------------------------------------------------------

namespace Errmark

open Foundation

variable {arch : Arch}

/- Debug text and pauses hold nothing. -/
theorem foldl_hold_outputOf
    (held : List OutByte)
    (calls : List Call) :
    (outputOf calls).foldl Call.hold held =
      calls.foldl Call.hold held := by
  induction calls generalizing held with
  | nil => rfl
  | cons call calls ih =>
      cases call with
      | fprintf file text => exact ih held
      | fwrite file bytes => exact ih _
      | fflush file => exact ih _
      | write mark => exact ih held
      | diagnose file what => exact ih held
      | sleep seconds => exact ih held

/- What is held back changes as the output says. -/
theorem Steps.held
    {s s' : State arch}
    {t : Turn arch}
    (hStep : Steps s t s') :
    s'.held = (s.emission t).foldl Call.hold s.held := by
  have hOutput := hStep.output
  unfold State.output at hOutput
  rw [State.held, ← foldl_hold_outputOf, hOutput,
    List.foldl_append, foldl_hold_outputOf]
  rfl

/- A mark finds or leaves nothing where nothing was held. -/
theorem foldl_hold_marks
    (marks : Marks)
    (fd : Int)
    (edge : Edge) :
    (marks.calls fd edge).foldl Call.hold [] = [] := by
  unfold Marks.calls
  cases marks.text fd edge <;> rfl

/- Marks leave nothing in the buffer. -/
theorem foldl_hold_switching
    (s : State arch)
    (w : Write arch) :
    (s.switching w).foldl Call.hold [] = [] := by
  unfold State.switching
  split
  · rw [List.foldl_append, foldl_hold_marks,
      foldl_hold_marks]
  · rfl

/- The calls of `pmem_fwrite`, as calls of errmark. -/
theorem foldl_hold_lift
    (fd : Int)
    (buf : List UInt8)
    (calls : List (PmemCall arch)) :
    (calls.flatMap (PmemCall.lift .stdout fd)).foldl
        Call.hold (buf.map fun b => ⟨fd, .stored b⟩) =
      (calls.foldl PmemCall.hold buf).map fun b =>
        ⟨fd, .stored b⟩ := by
  induction calls generalizing buf with
  | nil => rfl
  | cons call calls ih =>
      rw [List.flatMap_cons, List.foldl_append,
        List.foldl_cons, ← ih]
      cases call with
      | peekData addr => rfl
      | fwrite bytes =>
          simp [PmemCall.lift, Call.hold, PmemCall.hold]
      | fflush => rfl

namespace Write

variable (w : Write arch)

/-
  Nothing of the write is left over: it was read whole or
  not at all.
-/
def PassesThrough
    (copyFh : Bool)
    (memory : Memory arch) : Prop :=
  if w.IsCopied copyFh then
    w.len = 0
  else
    w.Readable memory ∨ (w.reading memory).bytes = []

instance (copyFh : Bool) (memory : Memory arch) :
    Decidable (w.PassesThrough copyFh memory) := by
  unfold PassesThrough
  infer_instance

/- What the emission of a write leaves in an empty buffer. -/
theorem foldl_hold_emission_eq_nil_iff
    {copyFh : Bool}
    {t : Turn arch}
    (hRoom : w.IsCopied copyFh → t.malloc.isSome) :
    (w.emission copyFh t).foldl Call.hold [] = [] ↔
      w.PassesThrough copyFh t.memory := by
  unfold emission PassesThrough
  split
  · next hCopy =>
      rcases Option.isSome_iff_exists.mp (hRoom hCopy) with
        ⟨block, hBlock⟩
      rw [hBlock]
      exact w.copied_eq_nil_iff t.memory block
  · have hLift :=
      foldl_hold_lift w.fd []
        (pmemFwrite t.memory w.addr w.len.toNat).calls
    have hHeld :=
      (pmemFwrite_follows t.memory w.addr
        w.len.toNat).held []
    unfold PmemFwrite.held at hHeld
    rw [hHeld, List.map_nil] at hLift
    rw [hLift, List.map_eq_nil_iff, Readable, reading,
      ← Memory.reading_failure_eq_none_iff]
    split
    · next hDone => simp [hDone]
    · next hFailed => simp [hFailed]

end Write

end Errmark

------------------------------------------------------------
-- Write-Through Before Each Resume
------------------------------------------------------------

namespace Errmark

open Foundation

variable {arch : Arch}

/- A stop leaves nothing over, if it enters a write. -/
def Stop.PassesThrough
    (copyFh : Bool)
    (stop : Stop arch) : Prop :=
  stop.EntersWrite →
    stop.regs.write.PassesThrough copyFh stop.memory

instance (copyFh : Bool) (stop : Stop arch) :
    Decidable (stop.PassesThrough copyFh) := by
  unfold Stop.PassesThrough
  infer_instance

/- Resuming from an entry stop never leaves data behind. -/
def AlwaysThrough
    (render : Diagnostic → List UInt8)
    (setup : Setup arch)
    (stops : List (Stop arch)) : Prop :=
  ∀ pre stop post, stops = pre ++ stop :: post →
    stop.EntersWrite →
      ∃ s,
        run iteration setup.begin
            ((pre ++ [stop]).map Stop.turn) = .next s ∧
          WrittenThrough render s

/- Nor any text of errmark, for that matter. -/
def AlwaysEmpty
    (render : Diagnostic → List UInt8)
    (setup : Setup arch)
    (stops : List (Stop arch)) : Prop :=
  ∀ pre stop post, stops = pre ++ stop :: post →
    stop.EntersWrite →
      ∃ s,
        run iteration setup.begin
            ((pre ++ [stop]).map Stop.turn) = .next s ∧
          StdoutEmpty render s

/- Without text, written through is to be empty. -/
theorem alwaysEmpty_iff
    {render : Diagnostic → List UInt8}
    {setup : Setup arch}
    {stops : List (Stop arch)}
    (hVerbose : setup.options.cmd.verbose = false) :
    AlwaysEmpty render setup stops ↔
      AlwaysThrough render setup stops := by
  constructor
  · intro hEmpty pre stop post hSplit hEnters
    rcases hEmpty pre stop post hSplit hEnters with
      ⟨s, hRun, hHere⟩
    have hText := textTo_stdout_of_run hVerbose hRun
    exact ⟨s, hRun, (stdoutEmpty_iff hText).mp hHere⟩
  · intro hThrough pre stop post hSplit hEnters
    rcases hThrough pre stop post hSplit hEnters with
      ⟨s, hRun, hHere⟩
    have hText := textTo_stdout_of_run hVerbose hRun
    exact ⟨s, hRun, (stdoutEmpty_iff hText).mpr hHere⟩

/- From an empty buffer, when a stop keeps it empty. -/
theorem Tracks.held_eq_nil_iff
    {s s' : State arch}
    {phase : Phase arch}
    {stop : Stop arch}
    (hTracks : Tracks s phase)
    (hAllows : phase.Allows stop)
    (hCall : ¬ stop.IsSignal)
    (hNext : iteration s stop.turn = .next s')
    (hHeld : s.held = []) :
    s'.held = [] ↔ stop.PassesThrough s.cmd.copyFh := by
  have hQuiet := Stop.isQuiet_of_call hCall
  have hRoom :=
    ((hTracks.goes_on_iff hAllows hQuiet).mp
      ⟨s', hNext⟩).2
  rw [(steps_of_iteration hNext).held, State.emission,
    hTracks.intercepted hAllows hQuiet
      (Stop.expected_of_call hCall), hHeld,
    Stop.PassesThrough]
  by_cases hEnters : stop.EntersWrite
  · have hIff :=
      stop.regs.write.foldl_hold_emission_eq_nil_iff
        (t := stop.turn) (hRoom hEnters)
    simp only [hEnters, if_true, List.foldl_append,
      foldl_hold_switching, true_imp_iff]
    exact hIff
  · simp [hEnters]

/- Stops that leave nothing over keep the buffer empty. -/
theorem held_of_run
    {s s' : State arch}
    {phase : Phase arch}
    {stops : List (Stop arch)}
    (hTracks : Tracks s phase)
    (hAdmitted : Admitted phase stops)
    (hCalls : ∀ stop ∈ stops, ¬ stop.IsSignal)
    (hPasses :
      ∀ stop ∈ stops, stop.PassesThrough s.cmd.copyFh)
    (hHeld : s.held = [])
    (hRun :
      run iteration s (stops.map Stop.turn) = .next s') :
    s'.held = [] := by
  induction stops generalizing s phase with
  | nil =>
      cases hRun
      exact hHeld
  | cons stop stops ih =>
      rw [List.map_cons, run_cons,
        Outcome.andThen_eq_next_iff] at hRun
      rcases hRun with ⟨mid, hFirst, hRest⟩
      rcases hAdmitted with ⟨hAllows, hAdmitted⟩
      rw [List.forall_mem_cons] at hCalls hPasses
      have hMid :=
        (hTracks.held_eq_nil_iff hAllows hCalls.1 hFirst
          hHeld).mpr hPasses.1
      have hNext :=
        hTracks.step hAllows
          (Stop.isQuiet_of_call hCalls.1) hFirst
      rw [← (steps_of_iteration hFirst).sameOptions.copyFh]
        at hPasses
      exact
        ih hNext hAdmitted hCalls.2 hPasses.2 hMid hRest

/- At first nothing is held back. -/
theorem held_begin (setup : Setup arch) :
    setup.begin.held = [] := by
  unfold Setup.begin startTracing State.held
  dsimp only
  split <;> rfl

section

variable {setup : Setup arch}
variable {pre post : List (Stop arch)}
variable {s : State arch}

/- Where all before passed through, the buffer is empty. -/
theorem held_of_passes
    (hAdmitted : Admitted .starting (pre ++ post))
    (hCalls : ∀ stop ∈ pre ++ post, ¬ stop.IsSignal)
    (hPasses :
      ∀ stop ∈ pre,
        stop.PassesThrough setup.options.copyFh)
    (hRun :
      run iteration setup.begin (pre.map Stop.turn) =
        .next s) :
    s.held = [] :=
  held_of_run (tracks_begin setup)
    (admitted_append_iff.mp hAdmitted).1
    (fun stop hMem =>
      hCalls stop (List.mem_append_left _ hMem))
    hPasses (held_begin setup) hRun

/-
  Conversely, a write after which the buffer is empty passed
  through, if all before it did.
-/
theorem passes_of_writtenThrough
    {render : Diagnostic → List UInt8}
    {last : Stop arch}
    (hAdmitted : Admitted .starting (pre ++ last :: post))
    (hCalls : ∀ stop ∈ pre ++ last :: post, ¬ stop.IsSignal)
    (hPasses :
      ∀ stop ∈ pre,
        stop.PassesThrough setup.options.copyFh)
    (hRun :
      run iteration setup.begin
          ((pre ++ [last]).map Stop.turn) = .next s)
    (hThrough : WrittenThrough render s) :
    last.PassesThrough setup.options.copyFh := by
  have hSplit : pre ++ last :: post = (pre ++ [last]) ++ post := by
    rw [List.append_assoc]
    rfl
  have hBoth := hAdmitted
  have hBothCalls := hCalls
  rw [hSplit] at hBoth hBothCalls
  rcases tracks_of_split
      (admitted_append_iff.mp hBoth).1
      (fun stop hMem =>
        hBothCalls stop (List.mem_append_left _ hMem))
      hRun with ⟨mid, hBefore, _, hTracks⟩
  have hHeld :=
    held_of_passes hAdmitted hCalls hPasses hBefore
  rw [List.map_append, List.map_cons, List.map_nil,
    run_snoc iteration hBefore] at hRun
  have hIff :=
    hTracks.held_eq_nil_iff
      (admitted_append_iff.mp hAdmitted).2.1
      (hCalls last (by simp)) hRun hHeld
  rw [(sameOptions_of_run hBefore).copyFh] at hIff
  exact hIff.mp (writtenThrough_iff.mp hThrough)

end

/- In order, from the first write on: each passed through. -/
theorem AlwaysThrough.passes
    {setup : Setup arch}
    {stops : List (Stop arch)}
    {render : Diagnostic → List UInt8}
    (hThrough : AlwaysThrough render setup stops)
    (hAdmitted : Admitted .starting stops)
    (hCalls : ∀ stop ∈ stops, ¬ stop.IsSignal)
    (pre post : List (Stop arch))
    (hSplit : stops = pre ++ post) :
    ∀ stop ∈ pre,
      stop.PassesThrough setup.options.copyFh := by
  induction pre using List.reverseRecOn generalizing post with
  | nil =>
      intro stop hMem
      cases hMem
  | append_singleton pre last ih =>
      rw [List.append_assoc] at hSplit
      have hPre := ih _ hSplit
      intro stop hMem
      rcases List.mem_append.mp hMem with hOld | hNew
      · exact hPre stop hOld
      · rw [List.mem_singleton.mp hNew]
        intro hEnters
        rcases hThrough pre last post hSplit hEnters with
          ⟨after, hRun, hNone⟩
        rw [hSplit] at hAdmitted hCalls
        exact
          passes_of_writtenThrough hAdmitted hCalls hPre
            hRun hNone hEnters

/- No data waits exactly when all writes pass through. -/
theorem alwaysThrough_iff
    (setup : Setup arch)
    (stops : List (Stop arch))
    (s : State arch)
    (render : Diagnostic → List UInt8)
    (hAdmitted : Admitted .starting stops)
    (hCalls : ∀ stop ∈ stops, ¬ stop.IsSignal)
    (hRun :
      setup.errmark (stops.map Stop.turn) = .next s) :
    AlwaysThrough render setup stops ↔
      ∀ stop ∈ stops,
        stop.PassesThrough setup.options.copyFh := by
  rw [Setup.errmark_eq, Outcome.onLeave_eq_next_iff,
    Outcome.onLeave_eq_next_iff] at hRun
  constructor
  · intro hThrough
    exact
      hThrough.passes hAdmitted hCalls stops []
        (List.append_nil stops).symm
  · intro hPasses pre stop post hSplit _
    have hSplit' : stops = (pre ++ [stop]) ++ post := by
      rw [hSplit, List.append_assoc]
      rfl
    rw [hSplit'] at hAdmitted hCalls hRun hPasses
    rcases tracks_of_split hAdmitted hCalls hRun with
      ⟨mid, hPre, _, _⟩
    refine ⟨mid, hPre, writtenThrough_iff.mpr ?_⟩
    exact
      held_of_passes hAdmitted hCalls
        (fun other hMem =>
          hPasses other (List.mem_append_left _ hMem))
        hPre

/-
  No data waits at any resume from an entry stop exactly
  when each write is read whole or not at all, and copied
  only if it is empty. Without `verbose`, which `debug` sets
  too, nothing else waits there either.
-/
theorem written_through_iff
    (setup : Setup arch)
    (stops : List (Stop arch))
    (s : State arch)
    (render : Diagnostic → List UInt8)
    (hAdmitted : Admitted .starting stops)
    (hCalls : ∀ stop ∈ stops, ¬ stop.IsSignal)
    (hRun :
      setup.errmark (stops.map Stop.turn) = .next s) :
    (AlwaysThrough render setup stops ↔
      ∀ stop ∈ stops,
        stop.PassesThrough setup.options.copyFh) ∧
      (setup.options.cmd.verbose = false →
        (AlwaysEmpty render setup stops ↔
          ∀ stop ∈ stops,
            stop.PassesThrough setup.options.copyFh)) := by
  have hIff :=
    alwaysThrough_iff setup stops s render hAdmitted hCalls
      hRun
  refine ⟨hIff, ?_⟩
  intro hVerbose
  rw [alwaysEmpty_iff hVerbose, hIff]

/- A copied write waits in the buffer of stdout. -/
theorem sample_not_written_through :
    ¬ AlwaysThrough (fun _ => []) (sampleSetup true)
      (sampleStops 2 1) := by
  intro hThrough
  rcases hThrough [sampleExec]
      (sampleWrite .entry 2 1 (-38) none)
      [sampleWrite .exit 2 0 0 none] rfl
      (by decide +kernel) with ⟨s, hRun, hNone⟩
  have hHeld := writtenThrough_iff.mp hNone
  have hFinal :
      (run iteration (sampleSetup true).begin
        (([sampleExec] ++
          [sampleWrite .entry 2 1 (-38) none]).map
            Stop.turn)).final.held ≠ [] := by
    decide +kernel
  rw [hRun] at hFinal
  exact hFinal hHeld

/- A streamed write that can be read does not. -/
theorem sample_written_through :
    AlwaysThrough (fun _ => []) (sampleSetup true)
        (sampleStops 1 3) ∧
      AlwaysEmpty (fun _ => []) (sampleSetup true)
        (sampleStops 1 3) := by
  have hBoth :=
    written_through_iff (sampleSetup true) (sampleStops 1 3)
      _ (fun _ => []) (by decide +kernel)
      (by decide +kernel)
      (Outcome.eq_next_of_goesOn (by decide +kernel))
  exact
    ⟨hBoth.1.mpr (by decide +kernel),
      (hBoth.2 rfl).mpr (by decide +kernel)⟩

end Errmark
