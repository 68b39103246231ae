import Errmark.Program.Emission
import Errmark.Program.Sinks
import Errmark.Tracee.Tracking

/-
  What arrives at fd 1 and at fd 2 when they are open to
  different files.

  Each mark goes to its own descriptor, but the data of the
  program goes to stdout, whatever descriptor the program
  wrote it to. So every byte arrives where it belongs only
  if the program writes nothing to fd 2.

  Key definitions include:
    * `Routed`
    * `RoutedApart`
    * `Setup.Exits`

  Key theorems include:
    * `routed_of_run`
    * `routed_leave`
    * `exits_of_room`
    * `exits_out_of_room`
    * `routed_apart_iff`
-/

------------------------------------------------------------
-- Routing
------------------------------------------------------------

namespace Errmark

open Foundation

variable {arch : Arch}

/- What the program's writes owe to a descriptor. -/
def owedTo
    (d : Int)
    (stops : List (Stop arch)) : List OutByte :=
  (stops.flatMap Stop.asked).filter fun b => b.fd = d

/- A mark string of a descriptor. -/
def Piece.IsMarkOf
    (marks : Marks)
    (d : Int)
    (p : Piece) : Prop :=
  ∃ edge text, marks.text d edge = some text ∧
    p = .mark ⟨d, edge, text⟩

/-
  What arrived at a descriptor is the data that it is owed,
  with only mark strings of the descriptor added.
-/
structure Routed
    (marks : Marks)
    (owed : List OutByte)
    (d : Int)
    (got : List Piece) : Prop where
  data :
    (got.filter fun p => !p.isMark) = owed.map .data
  marks :
    ∀ p ∈ got, p.isMark = true → p.IsMarkOf marks d

/- Both descriptors got what they are owed. -/
def RoutedApart
    (marks : Marks)
    (stops : List (Stop arch))
    (c : Channels Int Piece) : Prop :=
  ∀ d, d = 1 ∨ d = 2 →
    Routed marks (owedTo d stops) d (c.arrived d)

/- errmark ends by `exit`, called by `main` or before. -/
def Setup.Exits
    (setup : Setup arch)
    (turns : List (Turn arch))
    (s' : State arch) : Prop :=
  setup.errmark turns = .leave s' ∨
    ∃ code, setup.errmark turns = .halt (.exit code) s'

namespace Routed

variable {marks : Marks}
variable {owed other : List OutByte}
variable {d : Int}
variable {got more : List Piece}

/- Nothing is owed, and nothing has come. -/
theorem nil : Routed marks [] d [] where
  data := rfl
  marks := by
    intro p hMem
    cases hMem

/- Marks of the descriptor may be added. -/
theorem append_marks
    (hRouted : Routed marks owed d got)
    (hMarks : ∀ p ∈ more, p.IsMarkOf marks d) :
    Routed marks owed d (got ++ more) where
  data := by
    have hNone : (more.filter fun p => !p.isMark) = [] := by
      rw [List.filter_eq_nil_iff]
      intro p hMem
      rcases hMarks p hMem with ⟨edge, text, _, hMark⟩
      simp [hMark, Piece.isMark]
    rw [List.filter_append, hNone, List.append_nil,
      hRouted.data]
  marks := by
    intro p hMem hMark
    rcases List.mem_append.mp hMem with hOld | hNew
    · exact hRouted.marks p hOld hMark
    · exact hMarks p hNew

/- More data may be owed, and arrive. -/
theorem append_data
    (hRouted : Routed marks owed d got)
    (other : List OutByte) :
    Routed marks (owed ++ other) d
      (got ++ other.map .data) where
  data := by
    have hAll :
        ((other.map Piece.data).filter fun p =>
          !p.isMark) = other.map .data := by
      rw [List.filter_eq_self]
      intro p hMem
      rcases List.mem_map.mp hMem with ⟨b, _, hData⟩
      rw [← hData]
      rfl
    rw [List.filter_append, hAll, hRouted.data,
      List.map_append]
  marks := by
    intro p hMem hMark
    rcases List.mem_append.mp hMem with hOld | hNew
    · exact hRouted.marks p hOld hMark
    · rcases List.mem_map.mp hNew with ⟨b, _, hData⟩
      rw [← hData] at hMark
      cases hMark

/- What arrived tells what was owed. -/
theorem iff_owed_eq
    (hRouted : Routed marks owed d got) :
    Routed marks other d got ↔ other = owed := by
  constructor
  · intro hOther
    have hSame := hOther.data.symm.trans hRouted.data
    apply List.map_injective_iff.mpr _ hSame
    intro a b hEq
    cases hEq
    rfl
  · intro hSame
    rw [hSame]
    exact hRouted

end Routed

end Errmark

------------------------------------------------------------
-- What errmark Sends Where
------------------------------------------------------------

namespace Errmark

open Foundation

variable {arch : Arch}
variable {d : Int}

/- The data of all writes goes to fd 1. -/
def sentTo
    (d : Int)
    (bytes : List OutByte) : List OutByte :=
  if d = 1 then bytes else []

/- Only its own marks go to a descriptor. -/
theorem isMarkOf_edgeMarks
    (marks : Marks)
    (fd : Int)
    (edge : Edge)
    {p : Piece}
    (hMem :
      p ∈ if Channels.single d fd then
          (marks.edgeMarks fd edge).map Piece.mark
        else
          []) :
    p.IsMarkOf marks d := by
  by_cases hFd : fd = d
  · subst hFd
    simp only [Channels.single, decide_true, if_true]
      at hMem
    unfold Marks.edgeMarks at hMem
    cases hText : marks.text fd edge with
    | none => simp [hText] at hMem
    | some text =>
        simp only [hText, List.map_cons, List.map_nil,
          List.mem_singleton] at hMem
        exact ⟨edge, text, hText, hMem⟩
  · simp [Channels.single, hFd] at hMem

/- So it is when groups are switched. -/
theorem isMarkOf_switchPieces
    {s : State arch}
    {w : Write arch}
    {p : Piece}
    (hMem :
      p ∈ s.switchPieces (Channels.single d) w) :
    p.IsMarkOf s.marks d := by
  unfold State.switchPieces at hMem
  split at hMem
  · rcases List.mem_append.mp hMem with hEnd | hStart
    · exact isMarkOf_edgeMarks _ _ _ hEnd
    · exact isMarkOf_edgeMarks _ _ _ hStart
  · cases hMem

/- A step sends each mark to its own descriptor. -/
theorem routed_step
    {render : Diagnostic → List UInt8}
    {s s' : State arch}
    {t : Turn arch}
    (hFd : d = 1 ∨ d = 2)
    (hSilent : s.Silent)
    (hRouted :
      Routed s.marks (sentTo d s.stdoutBytes) d
        (s.shown render (Channels.single d)))
    (hStep : Steps s t s') :
    Routed s'.marks (sentTo d s'.stdoutBytes) d
      (s'.shown render (Channels.single d)) := by
  rw [hStep.sameOptions.marks, hStep.stdoutBytes,
    hStep.shown render hSilent (watches_single hFd)]
  cases s.intercepted t with
  | none =>
      rw [List.append_nil, List.append_nil]
      exact hRouted
  | some w =>
      have hMarks :
          ∀ p ∈ s.switchPieces (Channels.single d) w,
            p.IsMarkOf s.marks d :=
        fun p hMem => isMarkOf_switchPieces hMem
      have hSwitched := hRouted.append_marks hMarks
      dsimp only
      rw [← List.append_assoc]
      rcases hFd with rfl | rfl
      · exact hSwitched.append_data _
      · exact hSwitched.append_data []

/- After a run, a descriptor has what was sent to it. -/
theorem routed_of_run
    {setup : Setup arch}
    (render : Diagnostic → List UInt8)
    {s : State arch}
    {turns : List (Turn arch)}
    (hFd : d = 1 ∨ d = 2)
    (hSilent : setup.Silent)
    (hRun : run iteration setup.begin turns = .next s) :
    s.Silent ∧
      Routed s.marks (sentTo d s.stdoutBytes) d
        (s.shown render (Channels.single d)) := by
  apply invariant_of_run
    (fun s : State arch =>
      s.Silent ∧
        Routed s.marks (sentTo d s.stdoutBytes) d
          (s.shown render (Channels.single d)))
    _ _ hRun
  · rintro s t s' ⟨hQuiet, hRouted⟩ hNext
    have hStep := steps_of_iteration hNext
    exact
      ⟨hQuiet.of_sameOptions hStep.sameOptions,
        routed_step hFd hQuiet hRouted hStep⟩
  · refine ⟨hSilent.begin, ?_⟩
    rw [State.stdoutBytes, State.shown, State.ops,
      hSilent.calls_begin]
    have hNil : sentTo d [] = [] := ite_self []
    change Routed _ (sentTo d []) d []
    rw [hNil]
    exact Routed.nil

/- After the loop only marks are sent. -/
theorem routed_leave
    {setup : Setup arch}
    (render : Diagnostic → List UInt8)
    {s last : State arch}
    {turns : List (Turn arch)}
    {t : Turn arch}
    (hFd : d = 1 ∨ d = 2)
    (hSilent : setup.Silent)
    (hRun : run iteration setup.begin turns = .next s)
    (hLeave : iteration s t = .leave last)
    (early : Nat → List (Int × Nat)) :
    Routed s.marks (sentTo d s.stdoutBytes) d
      (((afterTracing (afterLoop last)).atExit render
        early).arrived d) := by
  have hSink := watches_single hFd
  rcases routed_of_run render hFd hSilent hRun with
    ⟨hQuiet, hRouted⟩
  have hInOrder :=
    (inOrder_of_run hSink hSilent.begin
      (hSilent.inOrder_begin render _ d) hRun).2
  have hVerbose : last.cmd.verbose = false := by
    rcases leave_cases hLeave with
      ⟨_, hLast⟩ | ⟨_, _, _, hLast⟩
    · rw [hLast, childEnded_eq]
      exact hQuiet.verbose
    · rw [hLast]
      exact hQuiet.verbose
  have hCalls := calls_leave hLeave
  rw [leavingCalls_of_silent s t hQuiet.verbose
    hQuiet.traceFbt hVerbose] at hCalls
  have hClosed :=
    hInOrder.of_calls hCalls
      (guarded_closings render hSink s _)
  rw [State.arrived_atExit hFd hClosed,
    State.shown_of_calls hCalls, payload_closings]
  apply hRouted.append_marks
  intro p hMem
  rcases List.mem_flatten.mp hMem with ⟨pieces, hRep, hIn⟩
  rw [List.eq_of_mem_replicate hRep] at hIn
  exact isMarkOf_edgeMarks _ _ _ hIn

end Errmark

------------------------------------------------------------
-- Running Out Of Memory
------------------------------------------------------------

namespace Errmark

open Foundation

variable {arch : Arch}

/- `errprint_fh` leads to fd 1 or to fd 2. -/
theorem fd_setEprintFh (stdoutId stderrId : Option Fid) :
    (setEprintFh stdoutId stderrId).fd = 1 ∨
      (setEprintFh stdoutId stderrId).fd = 2 := by
  unfold setEprintFh
  split
  · exact Or.inl rfl
  · exact Or.inr rfl

/- The message about a failed allocation is not empty. -/
theorem message_mem_textPieces (rest : String) :
    Piece.message 0x6d ∈
      textPieces ("malloc(" ++ rest) := by
  have hByte :
      (0x6d : UInt8) ∈
        ("malloc(".toList.flatMap
          String.utf8EncodeChar) := by
    decide
  unfold textPieces
  rw [String.toList_append, List.flatMap_append,
    List.map_append]
  exact
    List.mem_append_left _ (List.mem_map_of_mem hByte)

/- What is said about a failed allocation, and where. -/
theorem calls_outOfMemory (s : State arch) :
    ∃ rest,
      (outOfMemory s).calls =
        s.calls ++
          [.fprintf s.errprintFh ("malloc(" ++ rest),
            .diagnose s.errprintFh
              (.explain Errno.ENOMEM)] := by
  refine
    ⟨(if s.wlen.toNat = 0 then "0"
      else "0x" ++ hexText s.wlen.toNat) ++ ") failed\n",
      ?_⟩
  rw [← String.append_assoc]
  rfl

/-
  A copy that finds no room: a message of errmark arrives at
  fd 1 or fd 2, where only data and marks belong.
-/
theorem not_routed_out_of_memory
    {setup : Setup arch}
    {s : State arch}
    {turns : List (Turn arch)}
    {t : Turn arch}
    {w : Write arch}
    (hSilent : setup.Silent)
    (hRun : run iteration setup.begin turns = .next s)
    (hWrite : s.intercepted t = some w)
    (render : Diagnostic → List UInt8)
    (early : Nat → List (Int × Nat)) :
    ∃ d, (d = 1 ∨ d = 2) ∧
      ∀ marks owed,
        ¬ Routed marks owed d
          (((outOfMemory (armed (entered s t) t)).atExit
            render early).arrived d) := by
  rcases State.intercepted_eq_some_iff.mp hWrite with
    ⟨regs, hSeen, hCall, hToggle, hFd, _⟩
  have hSame := (sameOptions_of_run hRun).errprintFh
  have hFh :
      s.errprintFh.fd = 1 ∨ s.errprintFh.fd = 2 := by
    rw [hSame]
    exact fd_setEprintFh _ _
  have hSink := watches_single hFh
  rcases inOrder_of_run hSink hSilent.begin
      (hSilent.inOrder_begin render _ s.errprintFh.fd)
      hRun with ⟨hQuiet, hInOrder⟩
  have hArmed := calls_armed hSeen hFd hQuiet.traceFbt
  rw [calls_entered hSeen hCall hToggle hQuiet.traceFbt,
    hQuiet.debugText, List.append_nil] at hArmed
  have hBefore :=
    hInOrder.of_calls hArmed
      (guarded_switching render hSink s _)
  rcases calls_outOfMemory (armed (entered s t) t) with
    ⟨rest, hCalls⟩
  have hFhArmed :
      (armed (entered s t) t).errprintFh = s.errprintFh :=
    armed_errprintFh _ _
  rw [hFhArmed] at hCalls
  have hAfter :=
    hBefore.of_calls hCalls
      ⟨fun _ => rfl, fun _ => rfl, trivial⟩
  refine ⟨s.errprintFh.fd, hFh, ?_⟩
  intro marks owed hRouted
  rw [State.arrived_atExit hFh hAfter,
    State.shown_of_calls hCalls] at hRouted
  have hText := message_mem_textPieces rest
  have hKept :
      Piece.message 0x6d ∈ owed.map Piece.data := by
    rw [← hRouted.data]
    refine List.mem_filter.mpr ⟨?_, rfl⟩
    apply List.mem_append_right
    simp [Call.ops, StreamOp.payload, Channels.single,
      hText]
  rcases List.mem_map.mp hKept with ⟨b, _, hNot⟩
  cases hNot

end Errmark

------------------------------------------------------------
-- When The Data Is Routed
------------------------------------------------------------

namespace Errmark

open Foundation

variable {arch : Arch}

/- Every byte that is asked for belongs to fd 1 or fd 2. -/
theorem fd_of_mem_asked
    {stop : Stop arch}
    {b : OutByte}
    (hMem : b ∈ stop.asked) :
    stop.EntersWrite ∧ b.fd = stop.regs.write.fd := by
  unfold Stop.asked at hMem
  split at hMem
  · next hEnters =>
      exact
        ⟨hEnters, Write.fd_of_mem_bytes _ _ hMem⟩
  · cases hMem

/- Nothing is owed to fd 2 but what went to fd 1. -/
theorem owed_eq_sent_iff (stops : List (Stop arch)) :
    (∀ d, d = 1 ∨ d = 2 →
        owedTo d stops =
          sentTo d (stops.flatMap Stop.asked)) ↔
      ∀ stop ∈ stops, stop.EntersWrite →
        stop.regs.write.fd = 2 →
          stop.regs.write.len = 0 := by
  constructor
  · intro hOwed stop hMem hEnters hFd
    have hNone : owedTo 2 stops = [] :=
      hOwed 2 (Or.inr rfl)
    rw [← Write.bytes_eq_nil_iff _ stop.memory,
      List.eq_nil_iff_forall_not_mem]
    intro b hByte
    have hAsked : b ∈ stop.asked := by
      rw [Stop.asked, if_pos hEnters]
      exact hByte
    have hIn : b ∈ owedTo 2 stops := by
      refine List.mem_filter.mpr
        ⟨List.mem_flatMap.mpr ⟨stop, hMem, hAsked⟩, ?_⟩
      rw [(fd_of_mem_asked hAsked).2, hFd]
      rfl
    rw [hNone] at hIn
    cases hIn
  · intro hEmpty d hFd
    have hOut :
        ∀ b ∈ stops.flatMap Stop.asked, b.fd = 1 := by
      intro b hByte
      rcases List.mem_flatMap.mp hByte with
        ⟨stop, hMem, hAsked⟩
      rcases fd_of_mem_asked hAsked with ⟨hEnters, hSame⟩
      rw [hSame]
      rcases hEnters.2.2 with hOne | hTwo
      · exact hOne
      · have hNil :=
          (Write.bytes_eq_nil_iff _ stop.memory).mpr
            (hEmpty stop hMem hEnters hTwo)
        rw [Stop.asked, if_pos hEnters, hNil] at hAsked
        cases hAsked
    unfold owedTo sentTo
    rcases hFd with rfl | rfl
    · rw [if_pos rfl, List.filter_eq_self]
      intro b hByte
      simpa using hOut b hByte
    · rw [if_neg (by decide), List.filter_eq_nil_iff]
      intro b hByte
      rw [hOut b hByte]
      decide

/- The stops before the first one that finds no room. -/
theorem exists_first_out_of_room
    {copyFh : Bool}
    {stops : List (Stop arch)}
    (hNot : ¬ ∀ stop ∈ stops, stop.FindsRoom copyFh) :
    ∃ pre stop post,
      stops = pre ++ stop :: post ∧
        (∀ other ∈ pre, other.FindsRoom copyFh) ∧
        ¬ stop.FindsRoom copyFh := by
  have hFound :
      (stops.find? fun stop =>
        ¬ stop.FindsRoom copyFh).isSome := by
    rw [List.find?_isSome]
    push Not at hNot
    rcases hNot with ⟨stop, hMem, hStop⟩
    exact ⟨stop, hMem, by simpa using hStop⟩
  rcases Option.isSome_iff_exists.mp hFound with
    ⟨stop, hStop⟩
  rcases List.find?_eq_some_iff_append.mp hStop with
    ⟨hHere, pre, post, hSplit, hBefore⟩
  refine ⟨pre, stop, post, hSplit, ?_, by simpa using hHere⟩
  intro other hMem
  simpa using hBefore other hMem

section Exits

variable {setup : Setup arch}
variable {stops : List (Stop arch)}
variable {last : Turn arch}

/- With room for the copies, all that is asked for goes out. -/
theorem stdoutBytes_of_whole
    (hSilent : setup.Silent)
    (hAdmitted : Admitted .starting stops)
    (hCalls : ∀ stop ∈ stops, ¬ stop.IsSignal)
    (hWhole :
      ∀ stop ∈ stops, stop.EntersWrite →
        stop.regs.write.IsWhole stop.memory)
    (hRoom :
      ∀ stop ∈ stops, stop.FindsRoom setup.options.copyFh)
    {s : State arch}
    (hRun :
      run iteration setup.begin (stops.map Stop.turn) =
        .next s) :
    s.stdoutBytes = stops.flatMap Stop.asked := by
  have hQuiet : ∀ stop ∈ stops, stop.IsQuiet := by
    intro stop hMem
    exact Stop.isQuiet_of_call (hCalls stop hMem)
  have hNone : setup.begin.stdoutBytes = [] := by
    rw [State.stdoutBytes, hSilent.calls_begin]
    rfl
  rw [stdoutBytes_of_run (tracks_begin setup) hAdmitted
    hQuiet hRun, hNone, List.nil_append]
  apply List.flatMap_congr
  intro stop hMem
  exact
    (Stop.ownBytes_eq_asked_iff (hRoom stop hMem)).mpr
      (hWhole stop hMem)

/- errmark then exits, and all data has gone to fd 1. -/
theorem exits_of_room
    (hSilent : setup.Silent)
    (hAdmitted : Admitted .starting stops)
    (hCalls : ∀ stop ∈ stops, ¬ stop.IsSignal)
    (hWhole :
      ∀ stop ∈ stops, stop.EntersWrite →
        stop.regs.write.IsWhole stop.memory)
    (hStops : stops ≠ [])
    (hGone : last.getRegs = .failed Errno.ESRCH)
    (hRoom :
      ∀ stop ∈ stops, stop.FindsRoom setup.options.copyFh)
    (render : Diagnostic → List UInt8)
    (early : Nat → List (Int × Nat)) :
    ∃ s',
      setup.Exits (stops.map Stop.turn ++ [last]) s' ∧
        (RoutedApart setup.marks stops
            (s'.atExit render early) ↔
          ∀ d, d = 1 ∨ d = 2 →
            owedTo d stops =
              sentTo d (stops.flatMap Stop.asked)) := by
  rcases run_of_calls hAdmitted hCalls hRoom with
    ⟨s, hRun, _⟩
  rcases leave_of_gone hGone
      (childExited_of_run hStops hRun) with
    ⟨looped, hLeave⟩
  refine ⟨afterTracing (afterLoop looped), ?_, ?_⟩
  · left
    rw [Setup.errmark_eq, run_snoc iteration hRun, hLeave]
    rfl
  · rw [← stdoutBytes_of_whole hSilent hAdmitted hCalls
      hWhole hRoom hRun]
    apply forall₂_congr
    intro d hFd
    have hRouted :=
      routed_leave render hFd hSilent hRun hLeave early
    rw [(sameOptions_of_run hRun).marks] at hRouted
    exact hRouted.iff_owed_eq

/- Where a copy finds no room, errmark exits with a message. -/
theorem exits_out_of_room
    (hSilent : setup.Silent)
    (hAdmitted : Admitted .starting stops)
    (hCalls : ∀ stop ∈ stops, ¬ stop.IsSignal)
    (hNot :
      ¬ ∀ stop ∈ stops,
        stop.FindsRoom setup.options.copyFh)
    (render : Diagnostic → List UInt8)
    (early : Nat → List (Int × Nat)) :
    ∃ s',
      setup.Exits (stops.map Stop.turn ++ [last]) s' ∧
        ¬ RoutedApart setup.marks stops
          (s'.atExit render early) := by
  rcases exists_first_out_of_room hNot with
    ⟨pre, stop, post, hSplit, hBefore, hHere⟩
  rw [hSplit] at hAdmitted hCalls
  rcases admitted_append_iff.mp hAdmitted with
    ⟨hPre, hAllows, _⟩
  have hPreCalls : ∀ other ∈ pre, ¬ other.IsSignal :=
    fun other hMem =>
      hCalls other (List.mem_append_left _ hMem)
  rcases run_of_calls hPre hPreCalls hBefore with
    ⟨s, hRun, hTracks⟩
  have hCopyFh : s.cmd.copyFh = setup.options.copyFh :=
    (sameOptions_of_run hRun).copyFh
  have hCall : ¬ stop.IsSignal := hCalls stop (by simp)
  unfold Stop.FindsRoom at hHere
  push Not at hHere
  rcases hHere with ⟨hEnters, hCopy, hFull⟩
  have hWrite :=
    hTracks.intercepted hAllows
      (Stop.isQuiet_of_call hCall)
      (Stop.expected_of_call hCall)
  rw [if_pos hEnters] at hWrite
  rw [← hCopyFh] at hCopy
  have hBlock : stop.malloc = none := by
    simpa using hFull
  have hHalt :=
    iteration_out_of_memory hWrite hCopy Reply.benign_ok
      hBlock
  refine
    ⟨outOfMemory (armed (entered s stop.turn) stop.turn),
      ?_, ?_⟩
  · right
    refine ⟨8, ?_⟩
    rw [Setup.errmark_eq, hSplit, List.map_append,
      List.map_cons, List.append_assoc, run_append, hRun,
      Outcome.next_andThen, List.cons_append, run_cons,
      hHalt]
    rfl
  · rcases not_routed_out_of_memory hSilent hRun hWrite
        render early with ⟨d, hFd, hNone⟩
    intro hRouted
    exact hNone _ _ (hRouted d hFd)

end Exits

/-
  With different files behind fd 1 and fd 2, errmark exits
  once its program is gone, the program itself has written
  nothing to them, and both descriptors got what they are
  owed exactly when the program wrote no byte to fd 2 and
  every copy found room.
-/
theorem routed_apart_iff
    (setup : Setup arch)
    (stops : List (Stop arch))
    (last : Turn arch)
    (render : Diagnostic → List UInt8)
    (early : Nat → List (Int × Nat))
    (hSilent : setup.Silent)
    (hAdmitted : Admitted .starting stops)
    (hCalls : ∀ stop ∈ stops, ¬ stop.IsSignal)
    (hWhole :
      ∀ stop ∈ stops, stop.EntersWrite →
        stop.regs.write.IsWhole stop.memory)
    (hStops : stops ≠ [])
    (hGone : last.getRegs = .failed Errno.ESRCH) :
    ∃ s',
      setup.Exits (stops.map Stop.turn ++ [last]) s' ∧
        setup.Nullifies stops ∧
        (RoutedApart setup.marks stops
            (s'.atExit render early) ↔
          (∀ stop ∈ stops, stop.EntersWrite →
              stop.regs.write.fd = 2 →
                stop.regs.write.len = 0) ∧
            ∀ stop ∈ stops,
              stop.FindsRoom setup.options.copyFh) := by
  have hNullifies : setup.Nullifies stops :=
    nullifies_of_calls hAdmitted hCalls
  by_cases hRoom :
      ∀ stop ∈ stops, stop.FindsRoom setup.options.copyFh
  · rcases exits_of_room hSilent hAdmitted hCalls hWhole
        hStops hGone hRoom render early with
      ⟨s', hExits, hIff⟩
    refine ⟨s', hExits, hNullifies, ?_⟩
    rw [hIff, owed_eq_sent_iff, and_iff_left hRoom]
  · rcases exits_out_of_room hSilent hAdmitted hCalls hRoom
        render early with ⟨s', hExits, hNot⟩
    refine ⟨s', hExits, hNullifies, ?_⟩
    exact iff_of_false hNot fun hAll => hRoom hAll.2

/- A byte for fd 2 arrives at fd 1. -/
theorem sample_not_routed :
    ∃ s',
      (sampleSetup false).Exits
          ((sampleStops 2 1).map Stop.turn ++ [goneTurn 0])
          s' ∧
        ¬ RoutedApart sampleMarks (sampleStops 2 1)
          (s'.atExit (fun _ => []) fun _ => []) := by
  refine
    ⟨_, Or.inl
      (Outcome.eq_leave_of_leaves (by decide +kernel)), ?_⟩
  intro hRouted
  have hData := (hRouted 1 (Or.inl rfl)).data
  revert hData
  decide +kernel

/- A program that writes to fd 1 only. -/
theorem sample_routed_apart_iff :
    ∃ s',
      (sampleSetup true).Exits
          ((sampleStops 1 3).map Stop.turn ++ [goneTurn 0])
          s' ∧
        RoutedApart sampleMarks (sampleStops 1 3)
          (s'.atExit (fun _ => []) fun _ => []) := by
  rcases routed_apart_iff (sampleSetup true)
      (sampleStops 1 3) (goneTurn 0) (fun _ => [])
      (fun _ => []) ⟨rfl, rfl⟩ (by decide +kernel)
      (by decide +kernel) (by decide +kernel)
      (by decide +kernel) rfl with ⟨s', hExits, _, hIff⟩
  exact ⟨s', hExits, hIff.mpr (by decide +kernel)⟩

end Errmark
