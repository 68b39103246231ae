import Errmark.Properties.Startup

/-
  When `main` forks, and for which command.

  Given arguments of ASCII and no `--debug`, `main` forks if
  and only if all options are accepted and the file for a
  copy can be opened. It does not ask for a command: with no
  operand, the child is to execute NULL.

  Key definitions include:
    * `CommandOption.Accepted`
    * `copyNamed`
    * `MayFork`
    * `KeepsContract`

  Key theorems include:
    * `obeyAll_of_plain`
    * `mayFork_iff_of_leave`
    * `mainBeforeRun_of_plain`
    * `exec_of_child`
    * `command_contract_iff`
-/

------------------------------------------------------------
-- Accepted Options
------------------------------------------------------------

namespace Errmark

open Foundation

namespace CommandOption

/- The options after which `main` may still fork. -/
def Accepted : CommandOption → Prop
| .help => False
| .version => False
| .mark spec => ¬ Rejected spec
| .color name => KnownColor name
| .unknown _ _ => False
| _ => True

/- They are no errors, and do not end errmark. -/
theorem accepted_iff
    {x : CommandOption}
    (hAscii : ∀ spec, x = .mark spec → spec.IsAscii)
    (verbose : Bool) :
    x.Accepted ↔ ¬ x.Stops verbose ∧ x.errors = 0 := by
  cases x with
  | mark spec =>
      simp [Accepted, Stops, hAscii spec rfl]
  | help | version | verbose | debug | color _ | copy _
  | unknown _ _ => simp [Accepted, Stops]

end CommandOption

/- The file for a copy that was named last. -/
def copyNamed (ms : List Met) : Option CString :=
  ms.foldl (fun fname m => m.meaning.copyName.or fname) none

/- No `--debug`, and no mark that overruns a buffer. -/
structure Met.Plain (m : Met) : Prop where
  noDebug : m.meaning ≠ .debug
  ascii : ∀ spec, m.meaning = .mark spec → spec.IsAscii

/-
  The loop is left without an error if and only if all
  options are accepted. Otherwise errmark exits there, or
  leaves it with an error.
-/
theorem obeyAll_of_plain
    {o : Progress}
    (hReady : o.Ready)
    (hNoDebug : o.debug = false)
    {ms : List Met}
    (hPlain : ∀ m ∈ ms, m.Plain) :
    ((o.errCount = 0 ∧ ∀ m ∈ ms, m.meaning.Accepted) ∧
        ∃ o', obeyAll o ms = .leave o' ∧
          o'.errCount = 0 ∧
          o'.copyFname =
            ms.foldl
              (fun fname m => m.meaning.copyName.or fname)
              o.copyFname) ∨
      (¬ (o.errCount = 0 ∧
          ∀ m ∈ ms, m.meaning.Accepted) ∧
        ((∃ code o', obeyAll o ms = .halt (.exit code) o') ∨
          ∃ o', obeyAll o ms = .leave o' ∧
            o'.errCount ≠ 0)) := by
  induction ms generalizing o with
  | nil =>
      rcases obeyEnd_cases hReady with
        ⟨o', hEnd, _, hCount, hSame⟩
      rw [obeyAll, run_nil, Outcome.next_andThen, hEnd]
      by_cases hNone : o.errCount = 0
      · left
        rw [hSame (by omega)]
        exact ⟨⟨hNone, by simp⟩, o, rfl, hNone, rfl⟩
      · right
        rw [← hCount] at hNone
        refine ⟨fun hAll => hNone ?_, Or.inr ⟨o', rfl, hNone⟩⟩
        rw [hCount]
        exact hAll.1
  | cons m ms ih =>
      rw [List.forall_mem_cons] at hPlain
      rcases hPlain with ⟨hFirst, hRest⟩
      have hAccepted :=
        CommandOption.accepted_iff hFirst.ascii o.verbose
      rw [obeyAll_cons, List.forall_mem_cons]
      rcases obey_cases hReady m with
        ⟨hMany, o', hObey, _, hCount⟩ | ⟨_, hDebug, _⟩ |
          ⟨_, _, hStops, hEnds⟩ |
          ⟨_, _, hNot, o', hObey, hTaken⟩
      · right
        rw [hObey, Outcome.leave_andThen]
        refine ⟨fun hAll => ?_, Or.inr ⟨o', rfl, ?_⟩⟩
        · rw [hAll.1] at hMany
          omega
        · omega
      · rw [hNoDebug] at hDebug
        cases hDebug
      · right
        rcases hEnds.exits hFirst.ascii with ⟨code, hExit⟩
        rw [hExit, Outcome.halt_andThen]
        refine ⟨fun hAll => ?_, Or.inl ⟨code, _, rfl⟩⟩
        exact (hAccepted.mp hAll.2.1).1 hStops
      · have hDebug : o'.debug = false := by
          simp [hTaken.debug, hNoDebug, hFirst.noDebug]
        have hSame :
            (o'.errCount = 0 ∧
                ∀ m ∈ ms, m.meaning.Accepted) ↔
              o.errCount = 0 ∧ m.meaning.Accepted ∧
                ∀ m ∈ ms, m.meaning.Accepted := by
          rw [hTaken.errCount, hAccepted, Nat.add_eq_zero_iff]
          tauto
        rw [hObey, Outcome.next_andThen, ← hSame,
          List.foldl_cons, ← hTaken.copyFname]
        exact ih hTaken.ready hDebug hRest

end Errmark

------------------------------------------------------------
-- Arguments Of ASCII
------------------------------------------------------------

namespace Errmark

/- The argument of an option is of ASCII. -/
def Met.AsciiArg : Met → Prop
| .option _ (some arg) => arg.IsAscii
| _ => True

/- The end of a 7-bit string is one, too. -/
theorem CString.IsAscii.stringAt
    {str : CString}
    (hAscii : str.IsAscii)
    (s : Nat) :
    (str.stringAt s).IsAscii :=
  fun b hMem => hAscii b (List.mem_of_mem_drop hMem)

/- Short options have no argument. -/
theorem asciiArg_readShort
    (table : OptionTable)
    (word : CString)
    (c : UInt8) :
    (readShort table word c).AsciiArg := by
  unfold readShort
  split <;> trivial

/- The argument of a long option is part of a word. -/
theorem asciiArg_readLong
    (table : OptionTable)
    {word : CString}
    {next : Option CString}
    (hWord : word.IsAscii)
    (hNext : ∀ w, next = some w → w.IsAscii) :
    (readLong table word next).1.AsciiArg := by
  simp only [readLong]
  split
  · trivial
  · split_ifs
    · exact (hWord.stringAt 2).stringAt _
    · trivial
    · cases next with
      | none => trivial
      | some w => exact hNext w rfl
    · trivial

/- Only a mark with an argument is a mark. -/
theorem ascii_of_meaning
    {m : Met}
    {spec : CString}
    (hAscii : m.AsciiArg)
    (hMark : m.meaning = .mark spec) :
    spec.IsAscii := by
  cases m with
  | refused optopt word =>
      simp only [Met.meaning] at hMark
      split_ifs at hMark
  | option val arg =>
      cases arg with
      | none =>
          simp only [Met.meaning] at hMark
          split_ifs at hMark
      | some a =>
          simp only [Met.meaning] at hMark
          split_ifs at hMark
          cases hMark
          exact hAscii

variable {argv : List CString}

/- What `main` is promised about its arguments. -/
theorem plain_of_readLine
    (hAscii : ∀ arg ∈ argv, arg.IsAscii)
    (hNoDebug :
      ∀ m ∈ (readLine argv).met, m.meaning ≠ .debug) :
    ∀ m ∈ (readLine argv).met, m.Plain := by
  intro m hMem
  refine ⟨hNoDebug m hMem, fun spec hMark => ?_⟩
  have hWords : ∀ word ∈ argv.tail, word.IsAscii :=
    fun word hWord => hAscii word (List.mem_of_mem_tail hWord)
  refine ascii_of_meaning ?_ hMark
  apply forall_met _ _ false m hMem
  · exact fun word _ => asciiArg_readShort optionTable word
  · intro word hWord next hNext
    apply asciiArg_readLong optionTable (hWords word hWord)
    exact fun w hSome => hWords w (hNext w hSome)

end Errmark

------------------------------------------------------------
-- main On Arguments Of ASCII
------------------------------------------------------------

namespace Errmark

open Foundation

variable {argv : List CString}

/-
  All options are accepted, and a copy gets its file. The
  first option that is not accepted would be reached, since
  no option before it ends errmark.
-/
structure MayFork
    (env : Environment)
    (argv : List CString) : Prop where
  accepted : ∀ m ∈ (readLine argv).met, m.meaning.Accepted
  opened :
    ∀ fname, copyNamed (readLine argv).met = some fname →
      env.canOpen fname = true

/- Whether it may is known when the loop is left. -/
theorem mayFork_iff_of_leave
    {env : Environment}
    (hPlain : ∀ m ∈ (readLine argv).met, m.Plain)
    {o : Progress}
    (hLeave :
      obeyAll (Progress.initial env argv)
        (readLine argv).met = .leave o) :
    MayFork env argv ↔
      o.errCount = 0 ∧
        ∀ fname, o.copyFname = some fname →
          env.canOpen fname = true := by
  rcases obeyAll_of_plain (ready_initial env argv) rfl hPlain
    with ⟨⟨_, hAccepted⟩, o', hLeave', hCount, hCopy⟩ |
      ⟨hNot, ⟨code, o', hExit⟩ | ⟨o', hLeave', hCount⟩⟩
  · rw [hLeave] at hLeave'
    cases hLeave'
    have hNamed :
        o.copyFname = copyNamed (readLine argv).met := hCopy
    rw [hNamed]
    exact
      ⟨fun hMayFork => ⟨hCount, hMayFork.opened⟩,
        fun hAll => ⟨hAccepted, hAll.2⟩⟩
  · rw [hLeave] at hExit
    cases hExit
  · rw [hLeave] at hLeave'
    cases hLeave'
    constructor
    · exact fun hMayFork =>
        absurd ⟨rfl, hMayFork.accepted⟩ hNot
    · exact fun hAll => absurd hAll.1 hCount

/- Then nothing but the copy can keep `main` from it. -/
theorem prepareCommand_of_ascii
    {o : Progress}
    (hReady : o.Ready)
    (env : Environment)
    (hName : argv ≠ [])
    {args : List CString}
    (hArgs : ∀ arg ∈ args, arg.IsAscii) :
    ((o.errCount = 0 ∧
          ∀ fname, o.copyFname = some fname →
            env.canOpen fname = true) ∧
        ∃ o', prepareCommand env argv args o =
          .leave o') ∨
      (¬ (o.errCount = 0 ∧
          ∀ fname, o.copyFname = some fname →
            env.canOpen fname = true) ∧
        ∃ code o', prepareCommand env argv args o =
          .halt (.exit code) o') := by
  rcases prepareCommand_cases hReady env argv args with
    ⟨hPrepared, o', hLeave, _⟩ |
      ⟨hNot, cause, o', hHalt, _, hExits⟩
  · exact Or.inl ⟨⟨hPrepared.errCount, hPrepared.opened⟩,
      o', hLeave⟩
  · right
    rcases hExits hArgs with ⟨code, rfl⟩
    refine ⟨fun hAll => hNot ?_, code, o', hHalt⟩
    exact ⟨hAll.1, hName, fun _ => hArgs, hAll.2⟩

/- `main` forks if it may, and exits otherwise. -/
theorem mainBeforeRun_of_plain
    (env : Environment)
    (hName : argv ≠ [])
    (hAscii : ∀ arg ∈ argv, arg.IsAscii)
    (hNoDebug :
      ∀ m ∈ (readLine argv).met, m.meaning ≠ .debug) :
    (MayFork env argv ∧
        ∃ s : MainState, mainBeforeRun env argv = .leave s ∧
          argv.drop s.getopt.optind =
            (readLine argv).operands) ∨
      (¬ MayFork env argv ∧
        ∃ code, ∃ s : MainState,
          mainBeforeRun env argv =
            .halt (.exit code) s) := by
  have hPlain := plain_of_readLine hAscii hNoDebug
  rcases mainBeforeRun_cases env argv with
    ⟨cause, s, hAll, hMain⟩ |
      ⟨s, hAll, hReady, hMain, hOperands⟩
  · right
    rcases obeyAll_of_plain (ready_initial env argv) rfl
        hPlain with ⟨_, o', hLeave, _⟩ |
          ⟨hNot, ⟨code, o', hExit⟩ | ⟨o', hLeave, _⟩⟩
    · rw [hAll] at hLeave
      cases hLeave
    · rw [hAll] at hExit
      cases hExit
      refine ⟨fun hMayFork => hNot ?_, code, s, hMain⟩
      exact ⟨rfl, hMayFork.accepted⟩
    · rw [hAll] at hLeave
      cases hLeave
  · have hMayFork := mayFork_iff_of_leave hPlain hAll
    have hArgs :
        ∀ arg ∈ argv.drop s.getopt.optind, arg.IsAscii :=
      fun arg hMem => hAscii arg (List.mem_of_mem_drop hMem)
    rcases prepareCommand_of_ascii hReady env hName hArgs with
      ⟨hGood, o', hLeave⟩ | ⟨hBad, code, o', hHalt⟩
    · left
      rw [hLeave] at hMain
      exact ⟨hMayFork.mpr hGood, ⟨s.getopt, o'⟩, hMain,
        hOperands (by omega)⟩
    · right
      rw [hHalt] at hMain
      exact ⟨fun hMay => hBad (hMayFork.mp hMay), code,
        ⟨s.getopt, o'⟩, hMain⟩

end Errmark

------------------------------------------------------------
-- The Contract
------------------------------------------------------------

namespace Errmark

open Foundation

variable {argv : List CString}

/- `main` gets to the call in which errmark forks. -/
def Forks
    (env : Environment)
    (argv : List CString) : Prop :=
  ∃ s : MainState, mainBeforeRun env argv = .leave s

/-
  errmark forks if and only if it may and there are operands.
  The child executes them, and without a fork errmark exits.
-/
structure KeepsContract
    (env : Environment)
    (argv : List CString) : Prop where
  forks :
    Forks env argv ↔
      MayFork env argv ∧ (readLine argv).operands ≠ []
  executes :
    ∀ s : MainState, mainBeforeRun env argv = .leave s →
      ∃ path args,
        (readLine argv).operands = path :: args ∧
          ∀ (arch : Arch) (setup : Setup arch)
            (turns : List (Turn arch)),
            setup.options = s.options argv →
            ∃ s', errmarkRunProgram setup.state
                (.child .ok .ok) turns =
              .halt
                (.exec (some path.text)
                  ((path :: args).map CString.text)) s'
  exits :
    ¬ Forks env argv →
      ∃ code, ∃ s : MainState,
        mainBeforeRun env argv = .halt (.exit code) s

/- The child executes what `main` found. -/
theorem exec_of_child
    {arch : Arch}
    (setup : Setup arch)
    (turns : List (Turn arch)) :
    ∃ s, errmarkRunProgram setup.state
        (.child .ok .ok) turns =
      .halt
        (.exec setup.options.cmdPath setup.options.argv)
        s := by
  rw [errmarkRunProgram, runChild,
    guardPtrace_of_benign _ _ (Or.inl rfl)]
  exact ⟨_, rfl⟩

/- What the command is when `main` has come to operands. -/
theorem options_of_operands
    {s : MainState}
    {path : CString}
    {args : List CString}
    (hDrop : argv.drop s.getopt.optind = path :: args) :
    (s.options argv).cmdPath = some path.text ∧
      (s.options argv).argv =
        (path :: args).map CString.text := by
  have hPath := (getElem?_of_drop hDrop).1
  simp only [MainState.options, hPath, hDrop,
    Option.map_some, and_self]

/-
  Unless errmark ends for another reason, it has to be given
  an operand: the test for a command looks at `argc`, from
  which the options are not subtracted.
-/
theorem command_contract_iff
    (env : Environment)
    (hName : argv ≠ [])
    (hAscii : ∀ arg ∈ argv, arg.IsAscii)
    (hNoDebug :
      ∀ m ∈ (readLine argv).met, m.meaning ≠ .debug) :
    KeepsContract env argv ↔
      (MayFork env argv →
        (readLine argv).operands ≠ []) := by
  rcases mainBeforeRun_of_plain env hName hAscii hNoDebug
    with ⟨hMayFork, s, hFork, hDrop⟩ |
      ⟨hNot, code, s, hExit⟩
  · constructor
    · exact fun hKeeps _ => (hKeeps.forks.mp ⟨s, hFork⟩).2
    · intro hOperands
      have hGiven := hOperands hMayFork
      refine
        ⟨iff_of_true ⟨s, hFork⟩ ⟨hMayFork, hGiven⟩, ?_,
          fun hNone => absurd ⟨s, hFork⟩ hNone⟩
      intro s' hFork'
      rw [hFork] at hFork'
      cases hFork'
      rcases List.exists_cons_of_ne_nil hGiven with
        ⟨path, args, hCons⟩
      refine ⟨path, args, hCons, ?_⟩
      intro arch setup turns hSetup
      rw [hCons] at hDrop
      rcases options_of_operands hDrop with ⟨hPath, hArgs⟩
      rcases exec_of_child setup turns with ⟨s', hExec⟩
      rw [hSetup, hPath, hArgs] at hExec
      exact ⟨s', hExec⟩
  · refine iff_of_true ?_ (fun hMayFork => absurd hMayFork hNot)
    have hNone : ¬ Forks env argv := by
      rintro ⟨s', hFork⟩
      rw [hExit] at hFork
      cases hFork
    refine ⟨iff_of_false hNone fun hAll => hNot hAll.1, ?_,
      fun _ => ⟨code, s, hExit⟩⟩
    intro s' hFork
    exact absurd ⟨s', hFork⟩ hNone

/- `errmark ls` -/
def sampleCommand : List CString :=
  [sampleErrmark, sampleLs]

/- With an operand, the contract is kept. -/
theorem sample_command_contract :
    KeepsContract sampleEnvironment sampleCommand :=
  (command_contract_iff sampleEnvironment (by decide)
    (by decide) (by decide +kernel)).mpr
      fun _ => by decide +kernel

/- `errmark` -/
def sampleNoCommand : List CString :=
  [sampleErrmark]

/- errmark forks, and the child is to execute NULL. -/
theorem sample_no_command :
    (∃ s : MainState,
        mainBeforeRun sampleEnvironment sampleNoCommand =
            .leave s ∧
          (s.options sampleNoCommand).cmdPath = none ∧
          (s.options sampleNoCommand).argv = []) ∧
      ¬ ∀ env argv, argv ≠ [] →
          (∀ arg ∈ argv, arg.IsAscii) →
          (∀ m ∈ (readLine argv).met,
            m.meaning ≠ .debug) →
          KeepsContract env argv := by
  have hFork :
      mainBeforeRun sampleEnvironment sampleNoCommand =
        .leave (mainBeforeRun sampleEnvironment
          sampleNoCommand).final :=
    Outcome.eq_leave_of_leaves (by decide +kernel)
  refine
    ⟨⟨_, hFork, by decide +kernel, by decide +kernel⟩, ?_⟩
  intro hAll
  have hKeeps :=
    hAll sampleEnvironment sampleNoCommand (by decide)
      (by decide) (by decide +kernel)
  have hGiven := (hKeeps.forks.mp ⟨_, hFork⟩).2
  exact hGiven (by decide +kernel)

end Errmark
