import Errmark.Properties.StreamOrder

/-
  What a terminal has got, in whatever state errmark is.

  While a run is undisturbed the terminal follows the
  reference stream. On its way out errmark adds the end mark
  of the last group, once for each `mark_close` it passes.

  Key definitions include:
    * `Setup.Undisturbed`
    * `Setup.played`
    * `State.onTerminal`

  Key theorems include:
    * `Setup.Undisturbed.follows`
    * `terminal_running`
    * `terminal_reached`
-/

------------------------------------------------------------
-- Undisturbed Runs
------------------------------------------------------------

namespace Errmark

open Foundation

variable {arch : Arch}

/-
  The program makes system calls and gets no signals; what
  it writes can be read, and errmark finds room for it and
  says nothing of its own.
-/
structure Setup.Undisturbed
    (setup : Setup arch)
    (stops : List (Stop arch)) : Prop where
  silent : setup.Silent
  admitted : Admitted .starting stops
  calls : ∀ stop ∈ stops, ¬ stop.IsSignal
  kept :
    ∀ stop ∈ stops, stop.EntersWrite →
      ¬ IsIgnored stop.regs.write.addr stop.regs.write.len
  whole :
    ∀ stop ∈ stops, stop.EntersWrite →
      stop.regs.write.IsWhole stop.memory
  room :
    ∀ stop ∈ stops, stop.FindsRoom setup.options.copyFh

/- The stream after the writes of some stops. -/
def Setup.played
    (setup : Setup arch)
    (stops : List (Stop arch)) : Reference :=
  (stops.flatMap Stop.writes).foldl
    (Reference.step setup.marks) .empty

/- The end mark of the group the stream ends with. -/
def Reference.closing
    (marks : Marks)
    (r : Reference) : List UInt8 :=
  match r.current with
  | none => []
  | some last => marks.bytes last .finish

/- What the terminal has got, or is about to get. -/
def State.onTerminal
    (render : Diagnostic → List UInt8)
    (early : Nat → List (Int × Nat))
    (s : State arch) : List UInt8 :=
  ((s.channels render early).contents terminal 1).flatMap
    Piece.bytes

/- An undisturbed run stays in the loop, and follows. -/
theorem Setup.Undisturbed.follows
    {setup : Setup arch}
    {stops : List (Stop arch)}
    (hUndisturbed : setup.Undisturbed stops)
    (render : Diagnostic → List UInt8) :
    ∃ s,
      run iteration setup.begin (stops.map Stop.turn) =
          .next s ∧
        s.Silent ∧ s.marks = setup.marks ∧
        s.InOrder render terminal 1 ∧
        Follows render s (setup.played stops) := by
  rcases run_of_calls hUndisturbed.admitted
      hUndisturbed.calls hUndisturbed.room with
    ⟨s, hRun, _⟩
  have hSilent := hUndisturbed.silent
  have hOrder :=
    inOrder_of_run watches_terminal hSilent.begin
      (hSilent.inOrder_begin render terminal 1) hRun
  have hFollows :=
    (follows_begin hSilent render).run hSilent.begin
      (tracks_begin setup) hUndisturbed.admitted
      hUndisturbed.calls hUndisturbed.kept
      hUndisturbed.whole hUndisturbed.room hRun
  exact
    ⟨s, hRun, hOrder.1, (sameOptions_of_run hRun).marks,
      hOrder.2, hFollows⟩

end Errmark

------------------------------------------------------------
-- On The Way Out
------------------------------------------------------------

namespace Errmark

open Foundation

variable {arch : Arch}
variable {render : Diagnostic → List UInt8}

/- The end mark of the open group, on the terminal. -/
theorem Follows.bytes_closing
    {s : State arch}
    {r : Reference}
    (hFollows : Follows render s r) :
    ((if terminal s.openedFd then s.closing.map Piece.mark
      else []).flatMap Piece.bytes) =
      r.closing s.marks := by
  unfold Reference.closing State.closing
  rw [hFollows.opened]
  cases hCurrent : r.current with
  | none => rfl
  | some last =>
      have hLast : terminal last = true := by
        simpa [terminal] using
          hFollows.current last hCurrent
      simp [hLast, bytes_edgeMarks]

/- Repeated pieces are repeated bytes. -/
theorem bytes_replicate
    (n : Nat)
    (pieces : List Piece) :
    (List.replicate n pieces).flatten.flatMap Piece.bytes =
      (List.replicate n
        (pieces.flatMap Piece.bytes)).flatten := by
  induction n with
  | zero => rfl
  | succ n ih =>
      rw [List.replicate_succ, List.flatten_cons,
        List.flatMap_append, ih, List.replicate_succ,
        List.flatten_cons]

/-
  In every state that errmark reaches, the terminal has got
  the stream and some end marks of its last group.
-/
theorem terminal_reached
    {setup : Setup arch}
    {stops : List (Stop arch)}
    (hUndisturbed : setup.Undisturbed stops)
    (render : Diagnostic → List UInt8)
    (early : Nat → List (Int × Nat))
    {s' : State arch}
    (hReaches : setup.Reaches stops s') :
    ∃ n,
      s'.onTerminal render early =
        (setup.played stops).stream ++
          (List.replicate n
            ((setup.played stops).closing
              setup.marks)).flatten := by
  rcases hUndisturbed.follows render with
    ⟨s, hRun, hSilent, hMarks, hOrder, hFollows⟩
  rcases hReaches with ⟨mid, hMid, hCases⟩
  have hSame : mid = s := by
    rw [hRun] at hMid
    simpa using hMid.symm
  rw [hSame] at hCases
  rcases hCases with hStill | ⟨t, last, hLeave, hAfter⟩
  · refine ⟨0, ?_⟩
    rw [hStill, State.onTerminal,
      State.contents_channels watches_terminal hOrder,
      hFollows.stream]
    simp
  · refine ⟨closings t.status, ?_⟩
    have hLast : last.cmd.verbose = false := by
      rcases leave_cases hLeave with
        ⟨_, hLast⟩ | ⟨_, _, _, hLast⟩
      · rw [hLast, childEnded_eq]
        exact hSilent.verbose
      · rw [hLast]
        exact hSilent.verbose
    have hCalls := calls_leave hLeave
    rw [leavingCalls_of_silent s t hSilent.verbose
      hSilent.traceFbt hLast] at hCalls
    have hOrder' :
        s'.InOrder render terminal 1 := by
      rw [hAfter]
      exact
        hOrder.of_calls hCalls
          (guarded_closings render watches_terminal s _)
    rw [State.onTerminal,
      State.contents_channels watches_terminal hOrder',
      hAfter, State.shown_of_calls hCalls,
      payload_closings, List.flatMap_append,
      hFollows.stream, bytes_replicate,
      hFollows.bytes_closing, hMarks]

end Errmark
