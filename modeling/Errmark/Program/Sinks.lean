import Errmark.Foundation.Streams
import Errmark.Program.Leaving

/-
  What arrives at the descriptors of errmark.

  Each call of errmark is an operation on the descriptors:
  `fprintf` and `fwrite` put bytes on a stream, `fflush`
  empties it, and `write` overtakes it. A sink is a set of
  descriptors behind which there is the same file. The mark
  writers flush before they write, so whatever goes out
  early, a silent errmark reaches a sink in the order in
  which it makes its calls.

  Key definitions include:
    * `File.fd`
    * `Piece`
    * `Call.ops`
    * `State.channels`
    * `State.atExit`
    * `Watches`
    * `State.shown`
    * `State.InOrder`

  Key theorems include:
    * `guarded_marks`
    * `State.contents_channels`
    * `State.arrived_atExit`
    * `Steps.shown`
    * `inOrder_of_run`
-/

------------------------------------------------------------
-- Descriptors
------------------------------------------------------------

namespace Errmark

open Foundation

variable {arch : Arch}

/-
  The descriptor of a stream. The files that errmark opens
  itself get the next free ones.
-/
def File.fd : File → Int
| .stdout => 1
| .stderr => 2
| .copyFh => 3
| .traceFbt => 4

/-
  What goes through a descriptor: a byte of the program, a
  byte of a message of errmark, or a mark, which is written
  by one `write`.
-/
inductive Piece where
  | data (b : OutByte)
  | message (b : UInt8)
  | mark (m : Mark)
  deriving DecidableEq, Repr

namespace Piece

/- The bytes of a piece. -/
def bytes : Piece → List UInt8
| .data b => [b.value]
| .message b => [b]
| .mark m => m.text

/- Whether a piece is a mark. -/
def isMark : Piece → Bool
| .data _ => false
| .message _ => false
| .mark _ => true

end Piece

/- The bytes of a message, in UTF-8. -/
def textPieces (text : String) : List Piece :=
  (text.toList.flatMap String.utf8EncodeChar).map .message

/-
  A call of errmark, as what it does to the descriptors. The
  texts of library functions are not looked into.
-/
def Call.ops
    (render : Diagnostic → List UInt8) :
    Call → List (StreamOp Int Piece)
| .fprintf file text => [.put file.fd (textPieces text)]
| .fwrite file bytes => [.put file.fd (bytes.map .data)]
| .fflush file => [.flush file.fd]
| .write mark => [.direct mark.fd [.mark mark]]
| .diagnose file what =>
    [.put file.fd ((render what).map .message)]
| .sleep _ => []

/- `exit` flushes all streams that are open. -/
def exitOps : List (StreamOp Int Piece) :=
  ([.stdout, .stderr, .copyFh, .traceFbt].map
    File.fd).map .flush

namespace State

/- The stream operations of errmark so far. -/
def ops
    (render : Diagnostic → List UInt8)
    (s : State arch) : List (StreamOp Int Piece) :=
  s.calls.flatMap (Call.ops render)

/-
  What has arrived and what still waits in a buffer, when
  `early` goes out on its own after each operation.
-/
def channels
    (render : Diagnostic → List UInt8)
    (early : Nat → List (Int × Nat))
    (s : State arch) : Channels Int Piece :=
  .execAll early 0 .empty (s.ops render)

/- The same once errmark has called `exit`. -/
def atExit
    (render : Diagnostic → List UInt8)
    (early : Nat → List (Int × Nat))
    (s : State arch) : Channels Int Piece :=
  .execAll early 0 .empty (s.ops render ++ exitOps)

/- What the calls made for a sink, in their order. -/
def shown
    (render : Diagnostic → List UInt8)
    (sink : Int → Bool)
    (s : State arch) : List Piece :=
  (s.ops render).flatMap (StreamOp.payload sink)

end State

end Errmark

------------------------------------------------------------
-- Sinks Of errmark
------------------------------------------------------------

namespace Errmark

open Foundation

variable {arch : Arch}

/-
  A sink behind fd 1 or fd 2 or both, but not behind the
  copy. Its main stream is stdout if fd 1 leads to it.
-/
structure Watches
    (sink : Int → Bool)
    (main : Int) : Prop where
  main_mem : sink main = true
  isWatched : main = 1 ∨ main = 2
  stdout : sink 1 = true → main = 1
  copyFh : sink 3 = false

/- The terminal that both fd 1 and fd 2 are open to. -/
def terminal (d : Int) : Bool :=
  d = 1 ∨ d = 2

/- A terminal gets stdout and stderr, stdout being buffered. -/
theorem watches_terminal : Watches terminal 1 where
  main_mem := rfl
  isWatched := Or.inl rfl
  stdout := fun _ => rfl
  copyFh := rfl

/- A file gets what goes to its descriptor. -/
theorem watches_single
    {d : Int}
    (hFd : d = 1 ∨ d = 2) :
    Watches (Channels.single d) d := by
  rcases hFd with rfl | rfl
  · exact ⟨rfl, Or.inl rfl, fun _ => rfl, rfl⟩
  · refine ⟨rfl, Or.inr rfl, ?_, rfl⟩
    intro hOut
    cases hOut

variable {sink : Int → Bool}
variable {main : Int}
variable (render : Diagnostic → List UInt8)

/- Guarded calls stay so in a row. -/
theorem guarded_flatMap
    {calls : List Call}
    (hCalls :
      ∀ call ∈ calls,
        Guarded sink main false (call.ops render)) :
    Guarded sink main false
      (calls.flatMap (Call.ops render)) := by
  induction calls with
  | nil => trivial
  | cons call calls ih =>
      rw [List.flatMap_cons]
      apply Guarded.append (hCalls call (by simp))
      apply ih
      intro other hMem
      exact hCalls other (List.mem_cons_of_mem call hMem)

/- The mark writers flush before they write. -/
theorem guarded_marks
    (hSink : Watches sink main)
    (marks : Marks)
    (fd : Int)
    (edge : Edge) :
    Guarded sink main false
      ((marks.calls fd edge).flatMap (Call.ops render)) := by
  unfold Marks.calls
  cases marks.text fd edge with
  | none => trivial
  | some text =>
      refine ⟨?_, trivial⟩
      intro _
      rcases hSink.isWatched with hMain | hMain
      · simp [hMain, File.fd]
      · simp [hMain, File.fd]

/- The calls for a mark show the mark. -/
theorem payload_marks
    (sink : Int → Bool)
    (marks : Marks)
    (fd : Int)
    (edge : Edge) :
    ((marks.calls fd edge).flatMap
        (Call.ops render)).flatMap
          (StreamOp.payload sink) =
      if sink fd then
        (marks.edgeMarks fd edge).map .mark
      else
        [] := by
  unfold Marks.calls Marks.edgeMarks
  cases marks.text fd edge with
  | none => simp [markCalls]
  | some text =>
      simp [markCalls, Call.ops, StreamOp.payload]

/- The bytes of a write go to stdout or to the copy. -/
theorem emission_cases
    {w : Write arch}
    {copyFh : Bool}
    {t : Turn arch}
    {call : Call}
    (hMem : call ∈ w.emission copyFh t) :
    (∃ bytes, call = .fwrite .stdout bytes) ∨
      (∃ bytes, call = .fwrite .copyFh bytes) ∨
      call = .fflush .stdout := by
  unfold Write.emission at hMem
  split at hMem
  · cases hBlock : t.malloc with
    | none => simp [hBlock] at hMem
    | some block =>
        simp only [hBlock, List.mem_cons, List.not_mem_nil,
          or_false] at hMem
        rcases hMem with hStdout | hCopy
        · exact Or.inl ⟨_, hStdout⟩
        · exact Or.inr (Or.inl ⟨_, hCopy⟩)
  · rcases List.mem_flatMap.mp hMem with
      ⟨pmemCall, _, hLift⟩
    cases pmemCall with
    | peekData addr => simp [PmemCall.lift] at hLift
    | fwrite bytes =>
        left
        exact ⟨_, by simpa [PmemCall.lift] using hLift⟩
    | fflush =>
        right
        right
        simpa [PmemCall.lift] using hLift

/- Data goes to stdout, which is where it may wait. -/
theorem guarded_emission
    (hSink : Watches sink main)
    (w : Write arch)
    (copyFh : Bool)
    (t : Turn arch) :
    Guarded sink main false
      ((w.emission copyFh t).flatMap
        (Call.ops render)) := by
  apply guarded_flatMap
  intro call hMem
  rcases emission_cases hMem with
    ⟨bytes, hCall⟩ | ⟨bytes, hCall⟩ | hCall
  · rw [hCall]
    exact ⟨fun hOut => (hSink.stdout hOut).symm, trivial⟩
  · rw [hCall]
    refine ⟨?_, trivial⟩
    intro hCopy
    rw [File.fd, hSink.copyFh] at hCopy
    cases hCopy
  · rw [hCall]
    trivial

/- Only stdout brings bytes of a write to a sink. -/
theorem payload_emission
    (hSink : Watches sink main)
    (w : Write arch)
    (copyFh : Bool)
    (t : Turn arch) :
    ((w.emission copyFh t).flatMap
        (Call.ops render)).flatMap
          (StreamOp.payload sink) =
      if sink 1 then
        (w.emitted copyFh t).map .data
      else
        [] := by
  have hCalls :
      ∀ call ∈ w.emission copyFh t,
        (call.ops render).flatMap (StreamOp.payload sink) =
          if sink 1 then call.toStdout.map .data
          else [] := by
    intro call hMem
    rcases emission_cases hMem with
      ⟨bytes, hCall⟩ | ⟨bytes, hCall⟩ | hCall
    · simp [hCall, Call.ops, StreamOp.payload, File.fd]
    · simp [hCall, Call.ops, StreamOp.payload, File.fd,
        hSink.copyFh]
    · simp [hCall, Call.ops, StreamOp.payload]
  rw [← Write.emission_toStdout, List.flatMap_assoc,
    List.flatMap_congr hCalls]
  by_cases hOut : sink 1 = true
  · simp [hOut, List.map_flatMap]
  · simp [hOut]

/- The marks of a switch that a sink gets. -/
def State.switchPieces
    (sink : Int → Bool)
    (s : State arch)
    (w : Write arch) : List Piece :=
  if ¬ IsIgnored w.addr w.len ∧ w.fd ≠ s.openedFd then
    (if sink s.openedFd then
      (s.marks.edgeMarks s.openedFd .finish).map .mark
    else
      []) ++
    if sink w.fd then
      (s.marks.edgeMarks w.fd .start).map .mark
    else
      []
  else
    []

/- Switching groups shows the marks of the switch. -/
theorem payload_switching
    (sink : Int → Bool)
    (s : State arch)
    (w : Write arch) :
    ((s.switching w).flatMap (Call.ops render)).flatMap
        (StreamOp.payload sink) =
      s.switchPieces sink w := by
  unfold State.switching State.switchPieces
  split
  · rw [List.flatMap_append, List.flatMap_append,
      payload_marks, payload_marks]
  · rfl

/- Before a mark, stdout is flushed. -/
theorem guarded_switching
    (hSink : Watches sink main)
    (s : State arch)
    (w : Write arch) :
    Guarded sink main false
      ((s.switching w).flatMap (Call.ops render)) := by
  unfold State.switching
  split
  · rw [List.flatMap_append]
    exact
      (guarded_marks render hSink _ _ _).append
        (guarded_marks render hSink _ _ _)
  · trivial

/- Closing a group, any number of times. -/
theorem guarded_closings
    (hSink : Watches sink main)
    (s : State arch)
    (n : Nat) :
    Guarded sink main false
      ((List.replicate n s.closingCalls).flatten.flatMap
        (Call.ops render)) := by
  induction n with
  | zero => trivial
  | succ n ih =>
      rw [List.replicate_succ, List.flatten_cons,
        List.flatMap_append]
      exact (guarded_marks render hSink _ _ _).append ih

/- Closing a group again shows its mark again. -/
theorem payload_closings
    (sink : Int → Bool)
    (s : State arch)
    (n : Nat) :
    ((List.replicate n s.closingCalls).flatten.flatMap
        (Call.ops render)).flatMap
          (StreamOp.payload sink) =
      (List.replicate n
        (if sink s.openedFd then s.closing.map .mark
        else [])).flatten := by
  induction n with
  | zero => rfl
  | succ n ih =>
      rw [List.replicate_succ, List.flatten_cons,
        List.flatMap_append, List.flatMap_append, ih,
        State.closingCalls, payload_marks]
      rfl

end Errmark

------------------------------------------------------------
-- Silent Runs
------------------------------------------------------------

namespace Errmark

open Foundation

variable {arch : Arch}
variable {sink : Int → Bool}
variable {main : Int}

namespace State

/- The calls so far reach a sink in their order. -/
def InOrder
    (render : Diagnostic → List UInt8)
    (sink : Int → Bool)
    (main : Int)
    (s : State arch) : Prop :=
  Guarded sink main false (s.ops render)

/- What goes out early does not change what a sink gets. -/
theorem contents_channels
    {render : Diagnostic → List UInt8}
    {s : State arch}
    (hSink : Watches sink main)
    (hInOrder : s.InOrder render sink main)
    (early : Nat → List (Int × Nat)) :
    (s.channels render early).contents sink main =
      s.shown render sink := by
  have hContents :=
    Channels.contents_execAll hSink.main_mem early 0
      (c := Channels.empty) hInOrder
      (fun _ _ _ => rfl) (fun _ => rfl)
  exact hContents.1.trans (List.nil_append _)

/- After `exit` all of it has arrived. -/
theorem arrived_atExit
    {render : Diagnostic → List UInt8}
    {s : State arch}
    {d : Int}
    (hFd : d = 1 ∨ d = 2)
    (hInOrder : s.InOrder render (Channels.single d) d)
    (early : Nat → List (Int × Nat)) :
    (s.atExit render early).arrived d =
      s.shown render (Channels.single d) := by
  have hSink := watches_single hFd
  have hMem :
      d ∈ [File.stdout, .stderr, .copyFh, .traceFbt].map
        File.fd := by
    rcases hFd with rfl | rfl
    · simp [File.fd]
    · simp [File.fd]
  have hNone : (s.atExit render early).pending d = [] := by
    rw [atExit, Channels.execAll_append]
    exact
      Channels.pending_execAll_flushes early _ _
        (Or.inl hMem)
  have hGuarded :
      Guarded (Channels.single d) d false
        (s.ops render ++ exitOps) :=
    hInOrder.append trivial
  have hContents :=
    Channels.contents_execAll hSink.main_mem early 0
      (c := Channels.empty) hGuarded
      (fun _ _ _ => rfl) (fun _ => rfl)
  rw [Channels.arrived_of_pending_nil hNone]
  refine hContents.1.trans ?_
  simp [shown, exitOps, StreamOp.payload, Channels.contents,
    Channels.empty]

variable {render : Diagnostic → List UInt8}
variable {s s' : State arch}
variable {calls : List Call}

/- More calls add to what is shown. -/
theorem shown_of_calls
    (hCalls : s'.calls = s.calls ++ calls) :
    s'.shown render sink =
      s.shown render sink ++
        (calls.flatMap (Call.ops render)).flatMap
          (StreamOp.payload sink) := by
  rw [shown, ops, hCalls, List.flatMap_append,
    List.flatMap_append]
  rfl

/- More guarded calls stay in order. -/
theorem InOrder.of_calls
    (hInOrder : s.InOrder render sink main)
    (hCalls : s'.calls = s.calls ++ calls)
    (hGuarded :
      Guarded sink main false
        (calls.flatMap (Call.ops render))) :
    s'.InOrder render sink main := by
  rw [InOrder, ops, hCalls, List.flatMap_append]
  exact Guarded.append hInOrder hGuarded

/- A silent errmark stays silent. -/
theorem Silent.of_sameOptions
    (hSilent : s.Silent)
    (hSame : s.SameOptions s') :
    s'.Silent where
  debug := hSame.debug.trans hSilent.debug
  cmdDebug := hSame.cmdDebug.trans hSilent.cmdDebug
  verbose := hSame.verbose.trans hSilent.verbose
  traceFbt := hSame.traceFbt.trans hSilent.traceFbt

end State

namespace Steps

variable {s s' : State arch}
variable {t : Turn arch}

/- What an iteration shows to a sink. -/
theorem shown
    (render : Diagnostic → List UInt8)
    (hStep : Steps s t s')
    (hSilent : s.Silent)
    (hSink : Watches sink main) :
    s'.shown render sink =
      s.shown render sink ++
        match s.intercepted t with
        | none => []
        | some w =>
            s.switchPieces sink w ++
              if sink 1 then
                (w.emitted s.cmd.copyFh t).map .data
              else
                [] := by
  rw [State.shown_of_calls (hStep.calls_of_silent hSilent),
    State.emission]
  cases s.intercepted t with
  | none => rfl
  | some w =>
      dsimp only
      rw [List.flatMap_append, List.flatMap_append,
        payload_switching, payload_emission render hSink]

/- Each iteration keeps the order. -/
theorem inOrder
    {render : Diagnostic → List UInt8}
    (hStep : Steps s t s')
    (hSilent : s.Silent)
    (hSink : Watches sink main)
    (hInOrder : s.InOrder render sink main) :
    s'.InOrder render sink main := by
  apply hInOrder.of_calls (hStep.calls_of_silent hSilent)
  rw [State.emission]
  cases s.intercepted t with
  | none => trivial
  | some w =>
      dsimp only
      rw [List.flatMap_append]
      exact
        (guarded_switching render hSink s w).append
          (guarded_emission render hSink w _ t)

end Steps

/- A silent run stays silent and in order. -/
theorem inOrder_of_run
    {render : Diagnostic → List UInt8}
    {s s' : State arch}
    {turns : List (Turn arch)}
    (hSink : Watches sink main)
    (hSilent : s.Silent)
    (hInOrder : s.InOrder render sink main)
    (hRun : run iteration s turns = .next s') :
    s'.Silent ∧ s'.InOrder render sink main := by
  apply invariant_of_run
    (fun mid : State arch =>
      mid.Silent ∧ mid.InOrder render sink main)
    _ ⟨hSilent, hInOrder⟩ hRun
  rintro mid t mid' ⟨hMid, hOrder⟩ hNext
  have hStep := steps_of_iteration hNext
  exact
    ⟨hMid.of_sameOptions hStep.sameOptions,
      hStep.inOrder hMid hSink hOrder⟩

namespace Setup

/- Neither `--verbose` nor `--debug` was given. -/
def Silent (setup : Setup arch) : Prop :=
  setup.options.verbose = false ∧
    setup.options.debug = false

variable {setup : Setup arch}

/- A silent errmark is so from the start. -/
theorem Silent.begin
    (hSilent : setup.Silent) :
    setup.begin.Silent := by
  rcases hSilent with ⟨hVerbose, hDebug⟩
  constructor
  · exact hDebug
  · exact hDebug
  · simp [Setup.begin, startTracing, Setup.state,
      Options.cmd, hVerbose, hDebug]
  · rfl

/- It has made no calls then. -/
theorem Silent.calls_begin
    (hSilent : setup.Silent) :
    setup.begin.calls = [] := by
  rcases hSilent with ⟨hVerbose, hDebug⟩
  simp [Setup.begin, startTracing, Setup.state,
    Options.cmd, hVerbose, hDebug]

/- Nothing of it is out of order. -/
theorem Silent.inOrder_begin
    (hSilent : setup.Silent)
    (render : Diagnostic → List UInt8)
    (sink : Int → Bool)
    (main : Int) :
    setup.begin.InOrder render sink main := by
  rw [State.InOrder, State.ops, hSilent.calls_begin]
  trivial

end Setup

end Errmark
