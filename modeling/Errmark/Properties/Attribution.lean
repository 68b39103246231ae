import Errmark.Properties.Bracketing
import Errmark.Program.Emission
import Errmark.Tracee.Stops

/-
  Whether the bytes of a write stand in the group of its
  descriptor.

  `before_write` leaves the open group alone for a NULL
  buffer and for a length of SIZE_MAX, as if such a write
  had no bytes. The emission that follows does not look at
  this: it copies, or streams up to the first word that
  cannot be read. Bytes are in the wrong group when the two
  disagree, and only then.

  Key definitions include:
    * `Attributed`
    * `KeepsToGroup`
    * `State.groupedBytes`
    * `AttributesOutput`

  Key theorems include:
    * `attributed_iff`
    * `OwnGroups.step`
    * `attributes_output_iff`
-/

------------------------------------------------------------
-- One Iteration
------------------------------------------------------------

namespace Errmark

open Foundation

variable {arch : Arch}

/-
  If an iteration emits bytes of a write, `cur_fd` is the
  descriptor of the write when it does.
-/
def Attributed
    (s : State arch)
    (t : Turn arch) : Prop :=
  ∀ w, s.intercepted t = some w →
    w.emitted s.cmd.copyFh t ≠ [] →
      (armed (entered s t) t).curFd = w.fd

/-
  A write that `before_write` ignores emits nothing, unless
  it belongs to the open group.
-/
def KeepsToGroup
    (s : State arch)
    (t : Turn arch) : Prop :=
  ∀ w, s.intercepted t = some w →
    IsIgnored w.addr w.len → w.fd ≠ s.openedFd →
      ¬ w.Emits s.cmd.copyFh t

/- The descriptor under which a write is emitted. -/
theorem curFd_armed
    {s : State arch}
    {t : Turn arch}
    {w : Write arch}
    (hWrite : s.intercepted t = some w) :
    (armed (entered s t) t).curFd =
      if IsIgnored w.addr w.len then s.openedFd
      else w.fd := by
  rcases State.intercepted_eq_some_iff.mp hWrite with
    ⟨regs, hSeen, _, _, hFd, hEq⟩
  rw [armed_curFd, switchedFd_entered hSeen hFd, hEq]

/- A step attributes its bytes if it keeps to the group. -/
theorem attributed_iff
    (s : State arch)
    (t : Turn arch) :
    Attributed s t ↔ KeepsToGroup s t := by
  apply forall_congr'
  intro w
  apply imp_congr_right
  intro hWrite
  rw [curFd_armed hWrite, Write.emitted_ne_nil_iff]
  by_cases hIgnored : IsIgnored w.addr w.len
  · rw [if_pos hIgnored]
    constructor
    · exact fun hOwn _ hNe hEmits =>
        hNe (hOwn hEmits).symm
    · intro hNone hEmits
      by_contra hNe
      exact hNone hIgnored (Ne.symm hNe) hEmits
  · simp [hIgnored]

end Errmark

------------------------------------------------------------
-- The Output Between The Marks
------------------------------------------------------------

namespace Errmark

open Foundation

variable {arch : Arch}

/- The descriptor whose start mark was written last, or -1. -/
def Call.groupAfter (group : Int) : Call → Int
| .fprintf _ _ => group
| .fwrite _ _ => group
| .fflush _ => group
| .write mark =>
    match mark.edge with
    | .start => mark.fd
    | .finish => -1
| .diagnose _ _ => group
| .sleep _ => group

/- The bytes handed to stdout, each with its group. -/
def State.groupedBytes
    (s : State arch) : List (Int × OutByte) :=
  labelled Call.groupAfter Call.toStdout (-1) s.calls

/-
  Every byte so far stands between the marks of its own
  descriptor, and the last marks tell which group is open.
-/
structure OwnGroups (s : State arch) : Prop where
  own : ∀ p ∈ s.groupedBytes, p.1 = p.2.fd
  last :
    s.calls.foldl Call.groupAfter (-1) = s.openedFd

/- Both can be read off the output alone. -/
theorem groupedBytes_output (s : State arch) :
    labelled Call.groupAfter Call.toStdout (-1) s.output =
        s.groupedBytes ∧
      s.output.foldl Call.groupAfter (-1) =
        s.calls.foldl Call.groupAfter (-1) := by
  apply labelled_filter
  · intro call hKeep
    cases call <;> simp_all [Call.isNoise]
  · intro call hKeep group
    cases call <;> simp_all [Call.isNoise, Call.groupAfter]

/- Only a mark changes the group. -/
theorem groupAfter_of_no_marks
    {call : Call}
    (hMarks : call.marks = [])
    (group : Int) :
    call.groupAfter group = group := by
  cases call with
  | write mark => cases hMarks
  | fprintf file text => rfl
  | fwrite file bytes => rfl
  | fflush file => rfl
  | diagnose file what => rfl
  | sleep seconds => rfl

/- A start mark leaves the group of its descriptor open. -/
theorem groupAfter_start
    {marks : Marks}
    (hMarks : marks.AllSet)
    {fd : Int}
    (hFd : fd = 1 ∨ fd = 2)
    (group : Int) :
    (marks.calls fd .start).foldl Call.groupAfter group =
      fd := by
  rcases Option.isSome_iff_exists.mp
      (hMarks fd .start hFd) with ⟨text, hText⟩
  simp [Marks.calls, hText, markCalls, Call.groupAfter]

/- After the switch of a write this group is open. -/
theorem groupAfter_switching
    {s : State arch}
    (hMarks : s.marks.AllSet)
    {w : Write arch}
    (hFd : w.Watched) :
    (s.switching w).foldl Call.groupAfter s.openedFd =
      if IsIgnored w.addr w.len then s.openedFd
      else w.fd := by
  unfold State.switching
  by_cases hIgnored : IsIgnored w.addr w.len
  · simp [hIgnored]
  · by_cases hSame : w.fd = s.openedFd
    · simp [hIgnored, hSame]
    · rw [if_pos ⟨hIgnored, hSame⟩, if_neg hIgnored,
        List.foldl_append]
      exact groupAfter_start hMarks hFd _

/- Emitted bytes are labelled with their descriptor. -/
theorem fd_of_mem_emitted
    {w : Write arch}
    {copyFh : Bool}
    {t : Turn arch}
    {b : OutByte}
    (hMem : b ∈ w.emitted copyFh t) :
    b.fd = w.fd := by
  unfold Write.emitted at hMem
  split at hMem
  · cases hBlock : t.malloc with
    | none => simp [hBlock] at hMem
    | some block =>
        simp only [hBlock] at hMem
        exact w.fd_of_mem_copied t.memory block hMem
  · exact w.fd_of_mem_streamed t.memory hMem

/- An iteration that is attributed adds to the right group. -/
theorem OwnGroups.step
    {s s' : State arch}
    {t : Turn arch}
    (hMarks : s.marks.AllSet)
    (hOwn : OwnGroups s)
    (hAttributed : Attributed s t)
    (hStep : Steps s t s') :
    OwnGroups s' := by
  rcases groupedBytes_output s with ⟨hBytes, hLast⟩
  rcases groupedBytes_output s' with ⟨hBytes', hLast'⟩
  rw [hStep.output, labelled_append, hBytes, hLast,
    hOwn.last] at hBytes'
  rw [hStep.output, List.foldl_append, hLast, hOwn.last]
    at hLast'
  have hOpened := hStep.openedFd
  cases hWrite : s.intercepted t with
  | none =>
      simp only [State.emission, hWrite, labelled,
        List.append_nil, List.foldl_nil]
        at hBytes' hLast' hOpened
      constructor
      · rw [← hBytes']
        exact hOwn.own
      · rw [← hLast', hOpened]
  | some w =>
      have hFd := State.intercepted_watched hWrite
      have hSwitch := groupAfter_switching hMarks hFd
      have hCurFd := curFd_armed hWrite
      simp only [hWrite] at hOpened
      rw [← hOpened] at hSwitch hCurFd
      simp only [State.emission, hWrite, labelled_append,
        List.foldl_append, hSwitch] at hBytes' hLast'
      rw [labelled_of_no_items _ _ _
        (s.switching_toStdout w), List.nil_append]
        at hBytes'
      have hStill :
          ∀ call ∈ w.emission s.cmd.copyFh t,
            call.groupAfter s'.openedFd = s'.openedFd := by
        intro call hMem
        apply groupAfter_of_no_marks
        exact
          List.flatMap_eq_nil_iff.mp
            (w.emission_marks s.cmd.copyFh t) call hMem
      rcases labelled_of_still Call.groupAfter Call.toStdout
          s'.openedFd hStill with ⟨hItems, hLabel⟩
      rw [hItems, Write.emission_toStdout] at hBytes'
      constructor
      · rw [← hBytes']
        intro p hMem
        rcases List.mem_append.mp hMem with hOld | hNew
        · exact hOwn.own p hOld
        · rcases List.mem_map.mp hNew with ⟨b, hByte, hPair⟩
          have hOwnFd :=
            hAttributed w hWrite
              (List.ne_nil_of_mem hByte)
          rw [hCurFd] at hOwnFd
          rw [← hPair, hOwnFd, fd_of_mem_emitted hByte]
      · rw [← hLast', hLabel]

end Errmark

------------------------------------------------------------
-- Attribution Over Runs
------------------------------------------------------------

namespace Errmark

open Foundation

variable {arch : Arch}

/-
  Each byte is emitted under the descriptor of its write,
  so that with all marks set it stands between the marks of
  this descriptor.
-/
structure AttributesOutput
    (setup : Setup arch)
    (turns : List (Turn arch)) : Prop where
  curFd :
    Everywhere iteration Attributed setup.begin turns
  marks :
    setup.marks.AllSet →
      ∀ pre post s, turns = pre ++ post →
        run iteration setup.begin pre = .next s →
          ∀ p ∈ s.groupedBytes, p.1 = p.2.fd

/- Nothing has been written yet. -/
theorem ownGroups_begin (setup : Setup arch) :
    OwnGroups setup.begin := by
  have hText :
      setup.begin.groupedBytes = [] ∧
        setup.begin.calls.foldl Call.groupAfter (-1) =
          -1 := by
    unfold State.groupedBytes Setup.begin startTracing
    dsimp only
    refine ⟨?_, ?_⟩ <;> split <;> rfl
  constructor
  · rw [hText.1]
    simp
  · rw [hText.2]
    rfl

/- What is attributed everywhere ends up in its own group. -/
theorem ownGroups_of_run
    {s s' : State arch}
    {turns : List (Turn arch)}
    (hMarks : s.marks.AllSet)
    (hOwn : OwnGroups s)
    (hAll : Everywhere iteration Attributed s turns)
    (hRun : run iteration s turns = .next s') :
    OwnGroups s' := by
  induction turns generalizing s with
  | nil =>
      cases hRun
      exact hOwn
  | cons t turns ih =>
      rw [run_cons, Outcome.andThen_eq_next_iff] at hRun
      rcases hRun with ⟨mid, hFirst, hRest⟩
      rcases hAll with ⟨hHead, hTail⟩
      have hStep := steps_of_iteration hFirst
      apply ih _ _ (hTail mid hFirst) hRest
      · rw [hStep.sameOptions.marks]
        exact hMarks
      · exact hOwn.step hMarks hHead hStep

/-
  The output of a live program is attributed exactly when
  every write that `before_write` ignores emits nothing, or
  belongs to the open group.
-/
theorem attributes_output_iff
    (setup : Setup arch)
    (stops : List (Stop arch)) :
    AttributesOutput setup (stops.map Stop.turn) ↔
      Everywhere iteration KeepsToGroup setup.begin
        (stops.map Stop.turn) := by
  have hSame :
      (Attributed : State arch → Turn arch → Prop) =
        KeepsToGroup := by
    funext s t
    exact propext (attributed_iff s t)
  rw [← hSame]
  constructor
  · exact fun hOutput => hOutput.curFd
  · intro hAll
    refine ⟨hAll, ?_⟩
    intro hMarks pre post s hSplit hRun
    rw [hSplit, everywhere_append_iff] at hAll
    exact
      (ownGroups_of_run hMarks (ownGroups_begin setup)
        hAll.1 hRun).own

/- A write to fd 1, and then one to fd 2 from nowhere. -/
def sampleNullStops : List (Stop .x86_64) :=
  sampleStops 1 1 ++
    [{ kind := .entry
       regs := .ofCall Arch.x86_64.sysWrite 2 0 5 (-38)
       memory := .uniform 0x78 (some Errno.EIO)
       malloc := some fun _ => 0 }]

/- Bytes of fd 2 stand between the marks of fd 1. -/
theorem sample_not_attributed :
    ¬ AttributesOutput (sampleSetup true)
      (sampleNullStops.map Stop.turn) := by
  intro hOutput
  have hOwn :=
    hOutput.marks sampleMarks_allSet
      (sampleNullStops.map Stop.turn) [] _
      (List.append_nil _).symm
      (Outcome.eq_next_of_goesOn (by decide +kernel))
  revert hOwn
  decide +kernel

end Errmark
