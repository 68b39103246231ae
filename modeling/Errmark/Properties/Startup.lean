import Errmark.Properties.CommandOptions

/-
  How `main` gets on, up to `errmark_run_program`.

  The loop of `main` is a run of `obey` over the options
  that the command line is read as, and ends at its
  operands. What follows the loop goes on or ends errmark.

  Key definitions include:
    * `readLine`
    * `Scanning`
    * `obeyAll`
    * `Prepared`

  Key theorems include:
    * `optionLoop_related`
    * `operands_of_optionLoop`
    * `prepareCommand_cases`
    * `mainBeforeRun_cases`
-/

------------------------------------------------------------
-- The Loop Follows The Reading
------------------------------------------------------------

namespace Errmark

open Foundation

variable {argv : List CString}
variable {operands : List CString}

/- The words after the name errmark was called by. -/
def readLine (argv : List CString) : CommandLine :=
  readWords optionTable false argv.tail

/-
  A state of the loop, with the same progress as the run,
  and the options that are still to be met.
-/
structure Scanning
    (argv operands : List CString)
    (ms : List Met)
    (s : MainState)
    (o : Progress) : Prop where
  progress : s.progress = o
  at_reading :
    s.getopt.At optionTable argv ⟨ms, operands⟩
  started : s.getopt.optind ≠ 0
  in_table : ∀ m ∈ ms, m.InTable optionTable

/- All options of a reading, and the end of it. -/
def obeyAll
    (o : Progress)
    (ms : List Met) : Outcome Progress MainHalt :=
  (run obey o ms).andThen obeyEnd

/- The options are obeyed one after the other. -/
theorem obeyAll_cons
    (o : Progress)
    (m : Met)
    (ms : List Met) :
    obeyAll o (m :: ms) =
      (obey o m).andThen fun o' => obeyAll o' ms := by
  rw [obeyAll, run_cons, Outcome.andThen_assoc]
  rfl

/- No option has the value that says there is none. -/
theorem optc_ne_noOption
    {m : Met}
    (hTable : m.InTable optionTable) :
    m.optc ≠ noOption := by
  cases m with
  | refused optopt word =>
      simp only [Met.optc]
      decide
  | option val arg =>
      rcases val_of_inTable hTable with
        ⟨_, rfl | rfl | rfl | rfl⟩ |
          ⟨_, _, rfl | rfl | rfl⟩ <;>
      simp only [Met.optc] <;>
      decide

/- Too many errors end the options. -/
theorem tooManyErrors_ne_next
    (o o' : Progress) :
    tooManyErrors o ≠ .next o' := by
  intro hNext
  rcases Outcome.andThen_eq_next_iff.mp hNext with
    ⟨mid, _, hLeave⟩
  cases hLeave

/- An iteration meets the next option of the reading. -/
theorem optionTurn_of_met
    {m : Met}
    {ms : List Met}
    {s : MainState}
    {o : Progress}
    (hScan : Scanning argv operands (m :: ms) s o) :
    (optionTurn argv s).Related
      (Scanning argv operands ms)
      (fun s' o' => s'.progress = o')
      (obey o m) := by
  have hTable := hScan.in_table m (by simp)
  have hStarted := hScan.started
  rcases hScan.at_reading.yields with
    ⟨g', hCall, hTold, hAt⟩
  have hForward : s.getopt.optind ≤ g'.optind := by
    simpa [hCall] using
      optind_le_getoptLong optionTable argv s.getopt
  unfold optionTurn obey
  rw [hScan.progress]
  by_cases hMany : o.errCount > 10
  · rw [if_pos hMany, if_pos hMany]
    apply Outcome.related_map
    · intro o' hNext
      exact absurd hNext (tooManyErrors_ne_next o o')
    · exact fun _ => rfl
  · rw [if_neg hMany, if_neg hMany, if_pos hStarted, hCall]
    simp only [if_neg (optc_ne_noOption hTable)]
    rw [takeOption_eq o hTable hTold]
    apply Outcome.related_map
    · intro o' _
      refine ⟨rfl, hAt, ?_, ?_⟩
      · simp only
        omega
      · exact fun m' hMem => hScan.in_table m' (by simp [hMem])
    · exact fun _ => rfl

/- The iteration after the last one leaves the loop. -/
theorem optionTurn_of_end
    {s : MainState}
    {o : Progress}
    (hScan : Scanning argv operands [] s o) :
    (optionTurn argv s).Related (fun _ _ => False)
        (fun s' o' => s'.progress = o') (obeyEnd o) ∧
      (o.errCount ≤ 10 →
        ∃ g', optionTurn argv s = .leave ⟨g', o⟩ ∧
          argv.drop g'.optind = operands) := by
  rcases hScan.at_reading.yields with ⟨g', hCall, hDrop⟩
  unfold optionTurn obeyEnd
  rw [hScan.progress]
  by_cases hMany : o.errCount > 10
  · rw [if_pos hMany, if_pos hMany]
    refine ⟨?_, fun hFew => by omega⟩
    apply Outcome.related_map
    · exact tooManyErrors_ne_next o
    · exact fun _ => rfl
  · rw [if_neg hMany, if_neg hMany, hCall]
    simp only [if_true]
    exact ⟨rfl, fun _ => ⟨g', rfl, hDrop⟩⟩

/- At first all of the command line is left. -/
theorem scanning_start
    (env : Environment)
    (argv : List CString) :
    Scanning argv (readLine argv).operands
      (readLine argv).met
      ⟨Getopt.initial, Progress.initial env argv⟩
      (Progress.initial env argv) where
  progress := rfl
  at_reading := .of_drop rfl List.drop_one
  started := by simp [Getopt.initial]
  in_table := fun _ hMem => inTable_of_mem_met hMem

/-
  The loop is the run over the options that the command line
  is read as, with an end.
-/
theorem optionLoop_related
    (env : Environment)
    (argv : List CString) :
    (optionLoop env argv).Related (fun _ _ => False)
      (fun s' o' => s'.progress = o')
      (obeyAll (Progress.initial env argv)
        (readLine argv).met) := by
  have hEnough :
      (readLine argv).met.length < iterations argv := by
    have hLength :
        (readLine argv).met.length ≤
          (argv.tail.map CString.length).sum :=
      length_met_le false argv.tail
    rw [iterations]
    cases argv with
    | nil => simpa using hLength
    | cons path words =>
        simp only [List.tail_cons, List.map_cons,
          List.sum_cons] at hLength ⊢
        omega
  exact
    loop_related_run
      (fun _ _ _ _ => optionTurn_of_met)
      (fun _ _ hScan => (optionTurn_of_end hScan).1)
      hEnough (scanning_start env argv)

/- What holds of every state the loop gets to. -/
def Underway
    (argv operands : List CString)
    (s : MainState) : Prop :=
  s.progress.Ready ∧
    ∃ ms, Scanning argv operands ms s s.progress

/- One more option is obeyed. -/
theorem Underway.step
    {s s' : MainState}
    (hUnderway : Underway argv operands s)
    (hNext : optionTurn argv s = .next s') :
    Underway argv operands s' := by
  rcases hUnderway with ⟨hReady, ms, hScan⟩
  cases ms with
  | nil =>
      have hEnd := (optionTurn_of_end hScan).1
      rw [hNext] at hEnd
      rcases hEnd.of_next with ⟨_, _, hNever⟩
      exact hNever.elim
  | cons m ms =>
      have hMet := optionTurn_of_met hScan
      rw [hNext] at hMet
      rcases hMet.of_next with ⟨o', hObey, hScan'⟩
      have hSame : s'.progress = o' := hScan'.progress
      rw [← hSame] at hObey hScan'
      exact ⟨(taken_of_obey hReady hObey).ready, ms, hScan'⟩

/-
  Unless there were too many errors, the scan is at the
  operands when the loop is left.
-/
theorem operands_of_optionLoop
    {env : Environment}
    {s : MainState}
    (hLoop : optionLoop env argv = .leave s)
    (hFew : s.progress.errCount ≤ 10) :
    argv.drop s.getopt.optind =
      (readLine argv).operands := by
  have hStart :
      Underway argv (readLine argv).operands
        ⟨Getopt.initial, Progress.initial env argv⟩ :=
    ⟨ready_initial env argv, _, scanning_start env argv⟩
  rcases exists_last_of_loop (fun _ _ => Underway.step)
    hStart hLoop with ⟨mid, ⟨hReady, ms, hScan⟩, hLast⟩
  cases ms with
  | cons m ms =>
      have hMet := optionTurn_of_met hScan
      rw [hLast] at hMet
      rcases hMet.of_leave with ⟨o', hObey, hSame⟩
      have hMany := (errors_of_obey hReady hObey).2
      rw [hSame] at hFew
      omega
  | nil =>
      rcases optionTurn_of_end hScan with ⟨hEnd, hOperands⟩
      rcases obeyEnd_cases hReady with
        ⟨_, hObey, _, hCount, _⟩
      rw [hLast] at hEnd
      rcases hEnd.of_leave with ⟨o', hObey', hSame⟩
      rw [hObey] at hObey'
      cases hObey'
      rw [hSame, hCount] at hFew
      rcases hOperands hFew with ⟨g', hTurn, hDrop⟩
      rw [hLast] at hTurn
      cases hTurn
      exact hDrop

/- A loop that is left leaves its streams as they were. -/
theorem ready_of_obeyAll
    {o o' : Progress}
    {ms : List Met}
    (hReady : o.Ready)
    (hLeave : obeyAll o ms = .leave o') :
    o'.Ready := by
  induction ms generalizing o with
  | nil =>
      rcases obeyEnd_cases hReady with
        ⟨end', hEnd, hReady', _⟩
      have hSame : Outcome.leave end' = .leave o' :=
        hEnd.symm.trans hLeave
      cases hSame
      exact hReady'
  | cons m ms ih =>
      rw [obeyAll_cons, Outcome.andThen_eq_leave_iff]
        at hLeave
      rcases hLeave with hEarly | ⟨mid, hObey, hRest⟩
      · exact (errors_of_obey hReady hEarly).1
      · exact ih (taken_of_obey hReady hObey).ready hRest

end Errmark

------------------------------------------------------------
-- After The Loop
------------------------------------------------------------

namespace Errmark

open Foundation

/- What has to hold for the program to be run. -/
structure Prepared
    (env : Environment)
    (argv args : List CString)
    (o : Progress) : Prop where
  errCount : o.errCount = 0
  argc : argv ≠ []
  shown :
    o.verbose = true ∨ o.debug = true →
      ∀ arg ∈ args, arg.IsAscii
  opened :
    ∀ fname, o.copyFname = some fname →
      env.canOpen fname = true

/- Only bytes that are not 7-bit overrun the buffer. -/
theorem any_overruns_iff (strs : List CString) :
    strs.any overruns = true ↔
      ¬ ∀ str ∈ strs, str.IsAscii := by
  simp only [List.any_eq_true, overruns_iff, not_forall,
    exists_prop]

/- The arguments are shown, or the first bad one overruns. -/
theorem showArguments_cases
    {o : Progress}
    (hReady : o.Ready)
    (args : List CString) :
    ((o.verbose = true → ∀ arg ∈ args, arg.IsAscii) ∧
        ∃ o', showArguments o args = .next o' ∧
          o'.Ready ∧ o'.copyFname = o.copyFname) ∨
      (¬ (∀ arg ∈ args, arg.IsAscii) ∧ o.verbose = true ∧
        ∃ o', showArguments o args = .halt .undefined o' ∧
          AllSet o'.prints) := by
  unfold showArguments
  cases hVerbose : o.verbose with
  | false => exact Or.inl ⟨by simp, o, rfl, hReady, rfl⟩
  | true =>
      simp only [if_true]
      rw [printShown_eq hReady (by simp)]
      have hPrinted :
          (o.printed
            [(.stderr, .text (fshowStrArray args))]).Ready :=
        hReady.printed (by simp)
      have hOver := any_overruns_iff args
      cases hAny : args.any overruns with
      | true =>
          exact Or.inr ⟨hOver.mp hAny, trivial, _, rfl,
            hPrinted.prints⟩
      | false =>
          left
          refine ⟨fun _ => ?_, _, rfl, hPrinted, rfl⟩
          by_contra hHigh
          rw [hOver.mpr hHigh] at hAny
          cases hAny

/- The copy is opened, or it cannot be. -/
theorem openCopy_cases
    {o : Progress}
    (hReady : o.Ready)
    (env : Environment) :
    ((∀ fname, o.copyFname = some fname →
          env.canOpen fname = true) ∧
        openCopy env o = .next o) ∨
      (¬ (∀ fname, o.copyFname = some fname →
          env.canOpen fname = true) ∧
        ∃ o', openCopy env o = .halt (.exit 2) o' ∧
          AllSet o'.prints) := by
  unfold openCopy
  cases hName : o.copyFname with
  | none => exact Or.inl ⟨by simp, rfl⟩
  | some fname =>
      cases hOpen : env.canOpen fname with
      | true =>
          exact Or.inl ⟨by simp [hOpen], by simp [hOpen]⟩
      | false =>
          right
          refine ⟨by simp [hOpen], ?_⟩
          simp only [hOpen, Bool.false_eq_true, if_false]
          rw [Progress.exitAfter_eq hReady (by simp [eprint])]
          exact ⟨_, rfl,
            (hReady.printed (by simp [eprint])).prints⟩

/- With it `main` goes on, and without it errmark ends. -/
theorem prepareCommand_cases
    {o : Progress}
    (hReady : o.Ready)
    (env : Environment)
    (argv args : List CString) :
    (Prepared env argv args o ∧
        ∃ o', prepareCommand env argv args o = .leave o' ∧
          AllSet o'.prints) ∨
      (¬ Prepared env argv args o ∧
        ∃ cause o',
          prepareCommand env argv args o =
              .halt cause o' ∧
            AllSet o'.prints ∧
            ((∀ arg ∈ args, arg.IsAscii) →
              ∃ code, cause = .exit code)) := by
  have hUsage :
      ∀ call ∈ usageCalls o, call.1 ≠ .dbgprintFh := by
    simp [usageCalls, eprint]
  have hReady' :
      ({ o with verbose := o.verbose || o.debug }
        : Progress).Ready :=
    ⟨hReady.errprint, hReady.dbgprint, hReady.prints⟩
  unfold prepareCommand
  by_cases hErrors : o.errCount ≠ 0
  · right
    refine ⟨fun hAll => hErrors hAll.errCount, ?_⟩
    rw [if_pos hErrors, Progress.exitAfter_eq hReady hUsage]
    exact ⟨_, _, rfl, (hReady.printed hUsage).prints,
      fun _ => ⟨1, rfl⟩⟩
  rw [if_neg hErrors]
  by_cases hArgc : argv.length = 0
  · right
    refine ⟨fun hAll => hAll.argc ?_, ?_⟩
    · exact List.length_eq_zero_iff.mp hArgc
    · simp only [hArgc, if_true]
      rw [Progress.exitAfter_eq hReady'
        (by simp [usageCalls, eprint])]
      exact ⟨_, _, rfl,
        (hReady'.printed (by simp [usageCalls, eprint])).prints,
        fun _ => ⟨2, rfl⟩⟩
  simp only [hArgc, if_false]
  have hNe : argv ≠ [] := by
    intro hNil
    exact hArgc (by simp [hNil])
  rcases showArguments_cases hReady' args with
    ⟨hShown, o', hShow, hReady'', hName⟩ |
      ⟨hHigh, hVerbose, o', hShow, hPrints⟩
  · rw [hShow, Outcome.next_andThen]
    rcases openCopy_cases hReady'' env with
      ⟨hOpen, hCopy⟩ | ⟨hClosed, o'', hCopy, hPrints⟩
    · left
      rw [hCopy, Outcome.next_andThen]
      refine ⟨⟨not_not.mp hErrors, hNe, ?_, ?_⟩, o', rfl,
        hReady''.prints⟩
      · simpa using hShown
      · simpa [hName] using hOpen
    · right
      rw [hCopy]
      refine ⟨?_, _, _, rfl, hPrints, fun _ => ⟨2, rfl⟩⟩
      intro hAll
      exact hClosed (by simpa [hName] using hAll.opened)
  · right
    rw [hShow]
    refine ⟨?_, _, _, rfl, hPrints,
      fun hAscii => absurd hAscii hHigh⟩
    intro hAll
    exact hHigh (hAll.shown (by simpa using hVerbose))

end Errmark

------------------------------------------------------------
-- main
------------------------------------------------------------

namespace Errmark

open Foundation

/-
  errmark ends while it takes its options, or it goes on to
  what follows the loop, with the operands if there were not
  too many errors.
-/
theorem mainBeforeRun_cases
    (env : Environment)
    (argv : List CString) :
    (∃ cause, ∃ s : MainState,
        obeyAll (Progress.initial env argv)
            (readLine argv).met =
            .halt cause s.progress ∧
          mainBeforeRun env argv = .halt cause s) ∨
      ∃ s : MainState,
        obeyAll (Progress.initial env argv)
            (readLine argv).met =
            .leave s.progress ∧
          s.progress.Ready ∧
          mainBeforeRun env argv =
            (prepareCommand env argv
              (argv.drop s.getopt.optind)
              s.progress).map (MainState.mk s.getopt) ∧
          (s.progress.errCount ≤ 10 →
            argv.drop s.getopt.optind =
              (readLine argv).operands) := by
  have hRelated := optionLoop_related env argv
  have hReady := ready_initial env argv
  unfold mainBeforeRun
  cases hLoop : optionLoop env argv with
  | next s =>
      rw [hLoop] at hRelated
      rcases hRelated.of_next with ⟨_, _, hNever⟩
      exact hNever.elim
  | leave s =>
      right
      rw [hLoop] at hRelated
      rcases hRelated.of_leave with ⟨o, hAll, hSame⟩
      rw [← hSame] at hAll
      exact ⟨s, hAll, ready_of_obeyAll hReady hAll, rfl,
        operands_of_optionLoop hLoop⟩
  | halt cause s =>
      left
      rw [hLoop] at hRelated
      rcases hRelated.of_halt with ⟨o, hAll, hSame⟩
      rw [← hSame] at hAll
      exact ⟨cause, s, hAll, rfl⟩

/- `errmark` and `ls` as words of a command line. -/
def sampleErrmark : CString :=
  ⟨asciiBytes "errmark", by decide⟩

/- `ls` -/
def sampleLs : CString :=
  ⟨asciiBytes "ls", by decide⟩

/- Nothing is redirected, and every file can be opened. -/
def sampleEnvironment : Environment where
  stdoutId := none
  stderrId := none
  canOpen := fun _ => true

end Errmark
