import Mathlib.Data.List.Forall2
import Errmark.Foundation.Projections
import Errmark.Properties.HandedOver

/-
  Command lines that mean the same.

  Nothing that `main` does depends on what it printed. So
  two command lines whose options mean the same bring it to
  the same settings, or to the same end: a color is short
  for a mark with its escape sequences.

  Key definitions include:
    * `Recolored`

  Key theorems include:
    * `ignores_obey`
    * `related_prepareCommand`
    * `related_mainBeforeRun`
    * `color_is_mark`
-/

------------------------------------------------------------
-- Nothing Depends On What Was Printed
------------------------------------------------------------

namespace Errmark

open Foundation

/- The streams are known without the options. -/
theorem file_eq_of_bare
    {o o' : Progress}
    (hBare : o.bare = o'.bare)
    (stream : StreamVar) :
    o.file stream = o'.file stream := by
  simp only [Progress.bare, Progress.mk.injEq] at hBare
  rcases hBare with ⟨_, hErrprint, hDbgprint, _⟩
  cases stream with
  | stdout => rfl
  | stderr => rfl
  | errprintFh => exact hErrprint
  | dbgprintFh => exact hDbgprint

/- What a call leaves behind, apart from what it prints. -/
theorem map_print
    (o : Progress)
    (call : StreamVar × Message) :
    (o.print call).map Progress.bare =
      if o.file call.1 = none then
        .halt .undefined o.bare
      else
        .next o.bare := by
  simp only [Progress.print]
  split <;> rfl

/- To print a message is to ignore what was printed. -/
theorem ignores_print (call : StreamVar × Message) :
    Ignores Progress.bare
      (fun o : Progress => o.print call) := by
  intro o o' hBare
  rw [map_print, map_print, hBare, file_eq_of_bare hBare]

/- So it is to print several ones. -/
theorem ignores_printAll
    (calls : List (StreamVar × Message)) :
    Ignores Progress.bare
      (fun o : Progress => o.printAll calls) :=
  Ignores.run ignores_print calls

/- So it is to exit after that. -/
theorem ignores_exitAfter
    (calls : List (StreamVar × Message))
    (code : Nat) :
    Ignores Progress.bare
      (fun o : Progress => o.exitAfter calls code) :=
  (ignores_printAll calls).andThen (Blind.id.halt _)

/- Showing strings depends on the strings only. -/
theorem ignores_printShown
    (call : StreamVar × Message)
    (strs : List CString) :
    Ignores Progress.bare
      (fun o : Progress => o.printShown call strs) :=
  (ignores_print call).andThen
    (.ite (fun _ _ _ => Iff.rfl) (Blind.id.halt _)
      Blind.id.next)

/- Setting marks looks at nothing else. -/
theorem blind_setMarks (marks : Marks) :
    Blind Progress.bare
      (fun o : Progress => o.setMarks marks) := by
  apply blind_of_absorbed
  intro o
  rfl

/- A field that is not printed is the same. -/
theorem programName_of_bare
    {o o' : Progress}
    (hBare : o.bare = o'.bare) :
    o.programName = o'.programName := by
  have hName := congrArg Progress.programName hBare
  exact hName

/- The flags and the marks are known, too. -/
theorem flags_of_bare
    {o o' : Progress}
    (hBare : o.bare = o'.bare) :
    (o.verbose, o.debug, o.marks) =
      (o'.verbose, o'.debug, o'.marks) := by
  simp only [Progress.bare, Progress.mk.injEq] at hBare
  rcases hBare with ⟨_, _, _, hVerbose, hDebug, hMarks, _⟩
  rw [hVerbose, hDebug, hMarks]

/- So is the number of errors. -/
theorem errCount_of_bare
    {o o' : Progress}
    (hBare : o.bare = o'.bare) :
    o.errCount = o'.errCount := by
  have hCount := congrArg Progress.errCount hBare
  exact hCount

end Errmark

------------------------------------------------------------
-- Options
------------------------------------------------------------

namespace Errmark

open Foundation

/- The functions of `main`, one by one. -/
theorem ignores_showOptc (optc : CInt) :
    Ignores Progress.bare
      (fun o : Progress => showOptc o optc) := by
  apply Ignores.ite
  · intro o o' hBare
    have hFlags := flags_of_bare hBare
    simp only [Prod.mk.injEq] at hFlags
    rw [hFlags.2.1]
  · exact ignores_printAll _
  · exact Blind.id.next

/- `opt_mark`, given the flags and the marks it looks at. -/
def optMarkWith
    (spec : CString)
    (flags : Bool × Bool × Marks)
    (o : Progress) : Outcome Progress MainHalt :=
  let parsed := parseMarkSpecs flags.2.1 flags.2.2 spec
  let done := optMark flags.1 flags.2.1 flags.2.2 spec
  let o := o.setMarks done.marks
  (if parsed.printed ≠ [] then
    o.printShown (dbgPrint parsed.printed)
      (parsed.dups.map fun dup => strndup spec dup.1 dup.2)
  else
    .next o).andThen fun o =>
      (if done.printed ≠ [] then
        o.printShown (.stderr, .text done.printed) [spec]
      else
        .next o).andThen fun o =>
          done.exit.elim (.next o) fun code =>
            .halt (.exit code) o

/- `opt_mark` depends on the flags and marks. -/
theorem runOptMark_eq
    (spec : CString)
    (o : Progress) :
    runOptMark o spec =
      optMarkWith spec (o.verbose, o.debug, o.marks) o := by
  simp only [runOptMark, optMarkWith]
  cases (optMark o.verbose o.debug o.marks spec).exit with
  | none => rfl
  | some code => rfl

theorem ignores_optMarkWith
    (spec : CString)
    (flags : Bool × Bool × Marks) :
    Ignores Progress.bare (optMarkWith spec flags) := by
  have hShown :
      ∀ (p : Prop) [Decidable p] call strs,
        Ignores Progress.bare fun o : Progress =>
          if p then o.printShown call strs else .next o :=
    fun p _ call strs =>
      .ite (fun _ _ _ => Iff.rfl)
        (ignores_printShown call strs) Blind.id.next
  refine
    ((hShown _ _ _).comp (blind_setMarks _)).andThen
      ((hShown _ _ _).andThen ?_)
  cases (optMark flags.1 flags.2.1 flags.2.2 spec).exit with
  | some code => exact Blind.id.halt _
  | none => exact Blind.id.next

theorem ignores_runOptMark (spec : CString) :
    Ignores Progress.bare
      (fun o : Progress => runOptMark o spec) := by
  rw [funext (runOptMark_eq spec)]
  exact
    Ignores.keyed
      (fun o : Progress => (o.verbose, o.debug, o.marks))
      (optMarkWith spec) (fun _ _ => flags_of_bare)
      (ignores_optMarkWith spec)

theorem ignores_optColor (name : Option CString) :
    Ignores Progress.bare
      (fun o : Progress => optColor o name) := by
  unfold optColor
  cases lookupColor name with
  | none => exact ignores_exitAfter _ 2
  | some ent =>
      exact
        Ignores.keyed
          (fun o : Progress => (o.verbose, o.debug, o.marks))
          (fun k o =>
            .next
              (o.setMarks
                (setMark k.2.2 2 ent.escStart
                  ent.escEnd).marks))
          (fun _ _ => flags_of_bare)
          fun k => (blind_setMarks _).next

theorem ignores_unknownOption
    (optopt : CInt)
    (word : CString) :
    Ignores Progress.bare
      (fun o : Progress => unknownOption o optopt word) := by
  refine
    Ignores.keyed Progress.programName
      (fun name o =>
        (o.printAll
          [eprint (stringText name), eprint (asciiBytes ": "),
            if isLongOption word then
              eprint
                (asciiBytes "unknown long option, '" ++
                  word.bytes ++ asciiBytes "'\n")
            else
              eprint
                (asciiBytes "unknown short option, '" ++
                  visCharR 10 optopt ++
                  asciiBytes "'\n")]).andThen fun o =>
            .next { o with errCount := o.errCount + 1 })
      (fun _ _ => programName_of_bare) fun name => ?_
  refine (ignores_printAll _).andThen (Blind.next ?_)
  apply blind_of_absorbed
  intro o
  rfl

/- No option looks at what was printed before it. -/
theorem ignores_enact (x : CommandOption) :
    Ignores Progress.bare
      (fun o : Progress => enact o x) := by
  cases x with
  | help => exact ignores_exitAfter _ 0
  | version => exact ignores_exitAfter _ 0
  | verbose =>
      exact Blind.next (blind_of_absorbed fun _ => rfl)
  | debug =>
      exact Blind.next (blind_of_absorbed fun _ => rfl)
  | mark spec => exact ignores_runOptMark spec
  | color name => exact ignores_optColor (some name)
  | copy fname =>
      exact Blind.next (blind_of_absorbed fun _ => rfl)
  | unknown optopt word =>
      exact ignores_unknownOption optopt word

theorem ignores_tooManyErrors :
    Ignores Progress.bare tooManyErrors :=
  Ignores.keyed Progress.programName
    (fun name o =>
      (o.printAll
        [eprint
          (stringText name ++
            asciiBytes
              ": Too many option errors.\n")]).andThen
        fun o => .leave o)
    (fun _ _ => programName_of_bare) fun _ =>
      (ignores_printAll _).andThen Blind.id.leave

theorem ignores_obey (m : Met) :
    Ignores Progress.bare (fun o : Progress => obey o m) := by
  apply Ignores.ite
  · intro o o' hBare
    rw [errCount_of_bare hBare]
  · exact ignores_tooManyErrors
  · exact (ignores_showOptc m.optc).andThen (ignores_enact _)

theorem ignores_obeyEnd :
    Ignores Progress.bare obeyEnd := by
  apply Ignores.ite
  · intro o o' hBare
    rw [errCount_of_bare hBare]
  · exact ignores_tooManyErrors
  · exact Blind.id.leave

end Errmark

------------------------------------------------------------
-- From The Options To The Call
------------------------------------------------------------

namespace Errmark

open Foundation

/- The same settings, whatever was printed. -/
def Progress.Same (o o' : Progress) : Prop :=
  o.bare = o'.bare

/-
  The words shown with `--verbose` may differ, as long as
  both lists overrun a buffer or none does.
-/
theorem related_showArguments
    {o o' : Progress}
    (hSame : o.Same o')
    {args args' : List CString}
    (hShown :
      o.verbose = true →
        args.any overruns = args'.any overruns) :
    (showArguments o args).Related Progress.Same
      Progress.Same (showArguments o' args') := by
  have hFlags := flags_of_bare hSame
  simp only [Prod.mk.injEq] at hFlags
  unfold showArguments
  rw [← hFlags.1]
  split
  · next hVerbose =>
      rw [Progress.printShown, Progress.printShown,
        ← hShown hVerbose]
      have hPrint :
          ((o.print
              (.stderr, .text (fshowStrArray args))).Related
            Progress.Same Progress.Same
            (o'.print
              (.stderr, .text (fshowStrArray args')))) := by
        apply Outcome.map_eq_map_iff.mp
        rw [map_print, map_print, hSame]
        rfl
      apply hPrint.andThen
      intro mid mid' hMid
      split
      · exact ⟨rfl, hMid⟩
      · exact hMid
  · exact hSame

/- The name that is looked at to open the copy. -/
def Progress.withCopyFname
    (o : Progress)
    (copyFname : Option CString) : Progress :=
  { o with copyFname := copyFname }

/- The rest of `main`, in the same way. -/
theorem blind_withCopyFname
    (copyFname : Option CString) :
    Blind Progress.bare
      (fun o : Progress => o.withCopyFname copyFname) := by
  apply blind_of_absorbed
  intro o
  rfl

theorem ignores_openCopy (env : Environment) :
    Ignores Progress.bare (openCopy env) := by
  refine
    Ignores.keyed Progress.copyFname
      (fun name o => openCopy env (o.withCopyFname name))
      ?_ fun name => ?_
  · intro o o' hBare
    have hName := congrArg Progress.copyFname hBare
    exact hName
  · have hOpened :
        ∀ fname : CString,
          Ignores Progress.bare fun o : Progress =>
            if env.canOpen fname then .next o
            else
              o.exitAfter
                [eprint
                  (asciiBytes "open('" ++ fname.bytes ++
                    asciiBytes "', \"w\") failed.\n")] 2 :=
      fun fname =>
        .ite (fun _ _ _ => Iff.rfl) Blind.id.next
          (ignores_exitAfter _ 2)
    cases name with
    | none => exact (blind_withCopyFname none).next
    | some fname =>
        have hSome :=
          (hOpened fname).comp
            (blind_withCopyFname (some fname))
        exact hSome

end Errmark

------------------------------------------------------------
-- Two Calls Of main
------------------------------------------------------------

namespace Errmark

open Foundation

variable {argv argv' : List CString}

/- `verbose = verbose || debug`, after the loop. -/
def Progress.merged (o : Progress) : Progress :=
  { o with verbose := o.verbose || o.debug }

/- Passing the options on looks at nothing else. -/
theorem blind_merged :
    Blind Progress.bare Progress.merged :=
  blind_of_absorbed fun _ => rfl

/- The complaint about a missing command. -/
def noCommandCalls
    (o : Progress) : List (StreamVar × Message) :=
  eprint
      (stringText o.programName ++
        asciiBytes
          ": Must supply at least a command name.\n") ::
    usageCalls o

/-
  What is done after the options, written as one branch
  after the other.
-/
theorem prepareCommand_eq
    (env : Environment)
    (argv args : List CString)
    (o : Progress) :
    prepareCommand env argv args o =
      if o.errCount ≠ 0 then
        o.exitAfter (usageCalls o) 1
      else if argv.length = 0 then
        o.merged.exitAfter (noCommandCalls o.merged) 2
      else
        (showArguments o.merged args).andThen fun o =>
          (openCopy env o).andThen fun o => .leave o := rfl

/- Both ways exit with the same code. -/
theorem related_exitAfter
    {Next : Progress → Progress → Prop}
    {o o' : Progress}
    (hSame : o.Same o')
    (calls : List (StreamVar × Message))
    (code : Nat) :
    (o.exitAfter calls code).Related Next Progress.Same
      (o'.exitAfter calls code) :=
  ((ignores_printAll calls).related hSame).andThen
    fun _ _ hMid => ⟨rfl, hMid⟩

/-
  They do the same after the options, if they show the same
  arguments.
-/
theorem related_prepareCommand
    (env : Environment)
    (hArgc : argv.length = 0 ↔ argv'.length = 0)
    {o o' : Progress}
    (hSame : o.Same o')
    {args args' : List CString}
    (hShown :
      o.errCount = 0 → (o.verbose || o.debug) = true →
        args.any overruns = args'.any overruns) :
    (prepareCommand env argv args o).Related
      (fun _ _ => False) Progress.Same
      (prepareCommand env argv' args' o') := by
  have hMerged : o.merged.Same o'.merged :=
    blind_merged o o' hSame
  have hUsage : usageCalls o = usageCalls o' := by
    unfold usageCalls
    rw [programName_of_bare hSame]
  have hNoCommand :
      noCommandCalls o.merged = noCommandCalls o'.merged := by
    unfold noCommandCalls usageCalls
    rw [programName_of_bare hMerged]
  rw [prepareCommand_eq, prepareCommand_eq, ← hUsage,
    ← hNoCommand, ← errCount_of_bare hSame]
  by_cases hErrors : o.errCount ≠ 0
  · rw [if_pos hErrors, if_pos hErrors]
    exact related_exitAfter hSame _ 1
  rw [if_neg hErrors, if_neg hErrors]
  by_cases hNoArgs : argv.length = 0
  · rw [if_pos hNoArgs, if_pos (hArgc.mp hNoArgs)]
    exact related_exitAfter hMerged _ 2
  · rw [if_neg hNoArgs, if_neg (mt hArgc.mpr hNoArgs)]
    have hShow :=
      related_showArguments hMerged
        (hShown (not_not.mp hErrors))
    apply hShow.andThen
    intro mid mid' hMid
    apply ((ignores_openCopy env).related hMid).andThen
    exact fun _ _ hLast => hLast

/-
  Two command lines that `main` takes the same way, and
  whose commands it shows the same way, lead to calls with
  the same settings, or to the same end.
-/
theorem related_mainBeforeRun
    (env : Environment)
    (hArgc : argv.length = 0 ↔ argv'.length = 0)
    (hLoop :
      (obeyAll (Progress.initial env argv)
          (readLine argv).met).Related
        (fun _ _ => False) Progress.Same
        (obeyAll (Progress.initial env argv')
          (readLine argv').met))
    (hShown :
      ∀ o, run obey (Progress.initial env argv)
          (readLine argv).met = .next o →
        (o.verbose || o.debug) = true →
        (readLine argv).operands.any overruns =
          (readLine argv').operands.any overruns) :
    (mainBeforeRun env argv).Related (fun _ _ => False)
      (fun s s' => s.progress.Same s'.progress)
      (mainBeforeRun env argv') := by
  rcases mainBeforeRun_cases env argv with
    ⟨cause, s, hAll, hMain⟩ | ⟨s, hAll, _, hMain, hArgs⟩
  · rw [hAll] at hLoop
    rcases hLoop.of_halt with ⟨o', hAll', hSame⟩
    rcases mainBeforeRun_cases env argv' with
      ⟨cause', s', hOther, hMain'⟩ | ⟨s', hOther, _⟩
    · rw [hAll'] at hOther
      cases hOther
      rw [hMain, hMain']
      exact ⟨rfl, hSame⟩
    · rw [hAll'] at hOther
      cases hOther
  · rw [hAll] at hLoop
    rcases hLoop.of_leave with ⟨o', hAll', hSame⟩
    rcases mainBeforeRun_cases env argv' with
      ⟨cause', s', hOther, _⟩ |
        ⟨s', hOther, _, hMain', hArgs'⟩
    · rw [hAll'] at hOther
      cases hOther
    · rw [hAll'] at hOther
      cases hOther
      have hCount := errCount_of_bare hSame
      have hCommand :
          s.progress.errCount = 0 →
            (s.progress.verbose || s.progress.debug) =
              true →
            (argv.drop s.getopt.optind).any overruns =
              (argv'.drop s'.getopt.optind).any
                overruns := by
        intro hNone hFlag
        have hRun :=
          run_of_obeyAll (ready_initial env argv) hAll
            (by omega)
        rw [hArgs (by omega), hArgs' (by omega)]
        exact hShown s.progress hRun hFlag
      rw [hMain, hMain']
      exact
        (related_prepareCommand env hArgc hSame
          hCommand).map (fun _ _ hNever => hNever)
          fun _ _ hLast => hLast

end Errmark

------------------------------------------------------------
-- Colors Are Marks
------------------------------------------------------------

namespace Errmark

open Foundation

/-
  An option, and itself or a mark for the color that it is.
  The separator may not occur in the first sequence, and is
  7-bit text where mark specifications are shown.
-/
inductive Recolored (shown : Prop) : Met → Met → Prop where
  | same (m : Met) : Recolored shown m m
  | color
      (name spec : CString)
      (ent : ColorEsc)
      (fsep : UInt8)
      (hFound : lookupColor (some name) = some ent)
      (hText :
        spec.bytes =
          fdDigit 2 :: fsep ::
            (ent.escStart ++ fsep :: ent.escEnd))
      (hSep : fsep ∉ ent.escStart)
      (hAscii : shown → spec.IsAscii) :
      Recolored shown (.option Opt.color (some name))
        (.option Opt.mark (some spec))

/- An option of the line is `--verbose`. -/
def HasVerbose (ms : List Met) : Prop :=
  ∃ m ∈ ms, m.meaning = .verbose

/- With `debug` set, errmark goes no further. -/
theorem map_showOptc
    {o : Progress}
    (hReady : o.Ready)
    (optc : CInt) :
    (showOptc o optc).map Progress.bare =
      if o.debug then .halt .undefined o.bare
      else .next o.bare := by
  unfold showOptc
  cases hDebug : o.debug with
  | false => rfl
  | true =>
      have hFile : o.file .dbgprintFh = none :=
        hReady.dbgprint
      simp only [if_true]
      rw [List.cons_append, Progress.printAll, run_cons]
      simp only [Progress.print, dbgPrint, hFile, if_true,
        Outcome.halt_andThen]
      rfl

/- The mark for a color sets what the color sets. -/
theorem map_enact_color
    {o : Progress}
    (hReady : o.Ready)
    (hDebug : o.debug = false)
    {name spec : CString}
    {ent : ColorEsc}
    {fsep : UInt8}
    (hFound : lookupColor (some name) = some ent)
    (hText :
      spec.bytes =
        fdDigit 2 :: fsep ::
          (ent.escStart ++ fsep :: ent.escEnd))
    (hSep : fsep ∉ ent.escStart)
    (hAscii : o.verbose = true → spec.IsAscii) :
    (enact o (.color name)).map Progress.bare =
      (enact o (.mark spec)).map Progress.bare := by
  have hAccepted :
      Accepted 2 fsep (ent.escStart ++ fsep :: ent.escEnd)
        spec :=
    ⟨Or.inr rfl, hText⟩
  rcases parse_of_accepted o.debug o.marks hAccepted with
    ⟨start, finish, hStart, hFinish, hValue, hMarks, _⟩
  rcases fields_append hSep ent.escEnd with
    ⟨hFirst, hSecond⟩
  rw [hFirst] at hStart
  rw [hSecond] at hFinish
  have hNot : ¬ Rejected spec :=
    (parse_value_iff o.debug o.marks spec).mp hValue
  rcases runOptMark_cases hReady hDebug spec with
    ⟨hStops, _⟩ | ⟨_, o', hNext, _⟩
  · rcases hStops with hReject | ⟨hVerbose, hHigh⟩
    · exact absurd hReject hNot
    · exact absurd (hAscii hVerbose) hHigh
  · have hBare := (bare_of_runOptMark hNext).1
    rw [hMarks] at hBare
    have hSet :
        o.marks.replace 2 start finish =
          (setMark o.marks 2 ent.escStart
            ent.escEnd).marks := by
      simp [Marks.replace, setMark, hStart, hFinish]
    rw [hSet] at hBare
    have hColor :
        enact o (.color name) =
          .next
            (o.setMarks
              (setMark o.marks 2 ent.escStart
                ent.escEnd).marks) := by
      simp only [enact, optColor, hFound]
      rfl
    rw [hColor, enact, hNext]
    exact congrArg Outcome.next hBare.symm

/- A color and its marks do the same, one option at a time. -/
theorem map_obey_color
    {o : Progress}
    (hReady : o.Ready)
    {shown : Prop}
    (hVerbose : o.verbose = true → shown)
    {m m' : Met}
    (hMet : Recolored shown m m') :
    (obey o m).map Progress.bare =
      (obey o m').map Progress.bare := by
  cases hMet with
  | same => rfl
  | color name spec ent fsep hFound hText hSep hAscii =>
      unfold obey
      split
      · rfl
      cases hDebug : o.debug with
      | true =>
          have hShow :
              ∀ optc x,
                ((showOptc o optc).andThen
                    fun o => enact o x).map Progress.bare =
                  .halt .undefined o.bare := by
            intro optc x
            have hMap := map_showOptc hReady optc
            rw [hDebug, if_pos rfl] at hMap
            cases hOutcome : showOptc o optc with
            | next mid => rw [hOutcome] at hMap; cases hMap
            | leave mid => rw [hOutcome] at hMap; cases hMap
            | halt e mid => rw [hOutcome] at hMap; exact hMap
          rw [hShow, hShow]
      | false =>
          have hShow :
              ∀ optc, showOptc o optc = .next o := by
            intro optc
            simp [showOptc, hDebug]
          rw [hShow, hShow, Outcome.next_andThen,
            Outcome.next_andThen]
          exact
            map_enact_color hReady hDebug hFound hText hSep
              fun hSet => hAscii (hVerbose hSet)

/-
  Two runs in step, with the same settings so far. What is
  shown is known from the options: `--verbose` is the only
  one that makes errmark show a mark.
-/
theorem related_obeyAll
    {ms ms' : List Met}
    (hMet : List.Forall₂ (Recolored (HasVerbose ms)) ms ms')
    {o o' : Progress}
    (hReady : o.Ready)
    (hReady' : o'.Ready)
    (hQuiet : o.verbose = false)
    (hSame : o.Same o') :
    (obeyAll o ms).Related (fun _ _ => False)
      Progress.Same (obeyAll o' ms') := by
  have hStep :
      ∀ m m' (p p' : Progress),
        ((m.meaning = .verbose → HasVerbose ms) ∧
          Recolored (HasVerbose ms) m m') →
        (p.Same p' ∧ p.Ready ∧ p'.Ready ∧
          (p.verbose = true → HasVerbose ms)) →
        (obey p m).Related
          (fun p p' =>
            p.Same p' ∧ p.Ready ∧ p'.Ready ∧
              (p.verbose = true → HasVerbose ms))
          Progress.Same (obey p' m') := by
    rintro m m' p p' ⟨hOption, hFirst⟩
      ⟨hSame, hReady, hReady', hVerbose⟩
    have hMap :=
      (map_obey_color hReady hVerbose hFirst).trans
        (ignores_obey m' p p' hSame)
    apply (Outcome.map_eq_map_iff.mp hMap).with_next
    intro q q' hNext hNext' hSame
    have hTaken := taken_of_obey hReady hNext
    refine
      ⟨hSame, hTaken.ready,
        (taken_of_obey hReady' hNext').ready, ?_⟩
    rw [hTaken.verbose, Bool.or_eq_true, decide_eq_true_eq]
    rintro (hOld | hNew)
    · exact hVerbose hOld
    · exact hOption hNew
  have hMet' :=
    (List.forall₂_and_left ms ms').mpr
      ⟨fun m hMem (hOption : m.meaning = .verbose) =>
        (⟨m, hMem, hOption⟩ : HasVerbose ms), hMet⟩
  apply
    (related_of_forall₂ hStep hMet'
      ⟨hSame, hReady, hReady', by simp [hQuiet]⟩).andThen
  rintro p p' ⟨hSame, hReady, _⟩
  apply (ignores_obeyEnd.related hSame).with_next
  intro q _ hNext
  rcases obeyEnd_cases hReady with ⟨_, hEnd, _⟩
  rw [hEnd] at hNext
  cases hNext

variable {argv argv' : List CString}

/- What is kept at first depends on `argv[0]` alone. -/
theorem initial_of_head
    (env : Environment)
    (hName : argv.head? = argv'.head?) :
    Progress.initial env argv =
        Progress.initial env argv' ∧
      (argv.length = 0 ↔ argv'.length = 0) := by
  constructor
  · simp only [Progress.initial, programNameOf, hName]
  · cases argv with
    | nil =>
        cases argv' with
        | nil => exact Iff.rfl
        | cons => cases hName
    | cons =>
        cases argv' with
        | nil => cases hName
        | cons => simp

/-
  Any colors of a command line can be written as marks, with
  any separators that do not occur in the sequences that
  turn them on, and with `--verbose` any that are 7-bit.
-/
theorem color_is_mark
    (env : Environment)
    (hName : argv.head? = argv'.head?)
    (hMet :
      List.Forall₂
        (Recolored (HasVerbose (readLine argv).met))
        (readLine argv).met (readLine argv').met)
    (hOperands :
      (readLine argv).operands =
        (readLine argv').operands) :
    (mainBeforeRun env argv).Related (fun _ _ => False)
      (fun s s' => s.progress.Same s'.progress)
      (mainBeforeRun env argv') := by
  rcases initial_of_head env hName with ⟨hInitial, hArgc⟩
  apply related_mainBeforeRun env hArgc
  · rw [← hInitial]
    have hReady := ready_initial env argv
    exact related_obeyAll hMet hReady hReady rfl rfl
  · intro _ _ _
    rw [hOperands]

/- `errmark --color=red ls` -/
def sampleColored : List CString :=
  [sampleErrmark, sampleRedOption, sampleLs]

/- The same with a mark, and `:` as its separator. -/
def sampleRedSpec : CString :=
  ⟨asciiBytes "2:" ++ escSequence "[0;31m" ++
      asciiBytes ":" ++ escSequence "[m",
    by decide⟩

/- `--mark` with the marks of red. -/
def sampleRecolored : List CString :=
  [sampleErrmark, ⟨asciiBytes "--mark", by decide⟩,
    sampleRedSpec, sampleLs]

/- Both command lines prepare the same run. -/
theorem sample_color_is_mark :
    (mainBeforeRun sampleEnvironment sampleColored).Related
      (fun _ _ => False)
      (fun s s' => s.progress.Same s'.progress)
      (mainBeforeRun sampleEnvironment sampleRecolored) := by
  have hColored :
      (readLine sampleColored).met =
        [.option Opt.color
          (some ⟨asciiBytes "red", by decide⟩)] := by
    decide +kernel
  have hRecolored :
      (readLine sampleRecolored).met =
        [.option Opt.mark (some sampleRedSpec)] := by
    decide +kernel
  apply color_is_mark sampleEnvironment (by decide)
  · rw [hColored, hRecolored]
    refine .cons ?_ .nil
    exact
      .color _ _
        ⟨"red", escSequence "[0;31m", escSequence "[m"⟩
        0x3a (by decide +kernel) (by decide) (by decide)
        (fun _ => by decide)
  · decide +kernel

end Errmark
