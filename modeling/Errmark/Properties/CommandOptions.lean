import Errmark.Machine.CommandLine
import Errmark.Program.OptionLoop
import Errmark.Properties.MarkSpecs
import Errmark.Properties.SafeDisplay

/-
  What `main` does with each option of its command line.

  `obey` is an iteration of the loop of `main` for an option
  that was met, without the scan that finds it. All that an
  iteration can do is said once, in `obey_cases`.

  Key definitions include:
    * `CommandOption`
    * `Met.meaning`
    * `obey`
    * `Progress.Ready`
    * `CommandOption.Stops`
    * `Taken`

  Key theorems include:
    * `takeOption_eq`
    * `overruns_iff`
    * `enact_cases`
    * `obey_cases`
    * `taken_of_obey`
-/

------------------------------------------------------------
-- Meanings
------------------------------------------------------------

namespace Errmark

/- What an option asks for. -/
inductive CommandOption where
  | help
  | version
  | verbose
  | debug
  | mark (spec : CString)
  | color (name : CString)
  | copy (fname : CString)
  | unknown (optopt : CInt) (word : CString)
  deriving DecidableEq

/-
  The meaning of an option that was met. A question mark is
  refused, and asks for help; a value without an entry here
  is in no table.
-/
def Met.meaning : Met → CommandOption
| .refused optopt word =>
    if optopt = charCode '?' then .help
    else .unknown optopt word
| .option val none =>
    if val = charCode 'V' then .version
    else if val = charCode 'h' then .help
    else if val = charCode 'd' then .debug
    else if val = charCode 'v' then .verbose
    else .unknown val .empty
| .option val (some arg) =>
    if val = Opt.mark then .mark arg
    else if val = Opt.color then .color arg
    else if val = Opt.copy then .copy arg
    else .unknown val .empty

end Errmark

------------------------------------------------------------
-- Iterations Without The Scan
------------------------------------------------------------

namespace Errmark

open Foundation

/- What `main` does for an option. -/
def enact
    (o : Progress) :
    CommandOption → Outcome Progress MainHalt
| .help =>
    o.exitAfter [(.stdout, .text (asciiBytes usageText))] 0
| .version => o.exitAfter [(.stdout, .programVersion)] 0
| .verbose => .next { o with verbose := true }
| .debug => .next { o with debug := true }
| .mark spec => runOptMark o spec
| .color name => optColor o (some name)
| .copy fname => .next { o with copyFname := some fname }
| .unknown optopt word => unknownOption o optopt word

/- The iteration for an option that was met. -/
def obey
    (o : Progress)
    (m : Met) : Outcome Progress MainHalt :=
  if o.errCount > 10 then
    tooManyErrors o
  else
    (showOptc o m.optc).andThen fun o => enact o m.meaning

/- The iteration in which `getopt_long` finds no option. -/
def obeyEnd (o : Progress) : Outcome Progress MainHalt :=
  if o.errCount > 10 then tooManyErrors o else .leave o

/- The values in the table. -/
theorem val_of_inTable
    {val : CInt}
    {arg : Option CString}
    (hTable : (Met.option val arg).InTable optionTable) :
    (arg = none ∧
        (val = charCode 'h' ∨ val = charCode 'V' ∨
          val = charCode 'd' ∨ val = charCode 'v')) ∨
      ∃ a, arg = some a ∧
        (val = Opt.mark ∨ val = Opt.color ∨
          val = Opt.copy) := by
  cases arg with
  | none =>
      left
      refine ⟨rfl, ?_⟩
      rcases hTable with
        ⟨c, hShort, rfl⟩ | ⟨o, hMem, hNoArg, rfl⟩
      · revert hShort
        exact forall_byte_of_fin
          (fun c => optionTable.isShort c = true →
            charToInt c = charCode 'h' ∨
              charToInt c = charCode 'V' ∨
              charToInt c = charCode 'd' ∨
              charToInt c = charCode 'v')
          (by decide +kernel) c
      · revert o
        decide
  | some a =>
      right
      refine ⟨a, rfl, ?_⟩
      rcases hTable with ⟨o, hMem, hArg, rfl⟩
      revert o
      decide

/- The body of the loop does what the option means. -/
theorem takeOption_eq
    (o : Progress)
    {argv : List CString}
    {m : Met}
    {g g' : Getopt}
    (hTable : m.InTable optionTable)
    (hTold : m.ToldBy argv g g') :
    takeOption o m.optc g'.optopt g'.optarg
        argv[g.optind]? =
      (showOptc o m.optc).andThen fun o =>
        enact o m.meaning := by
  cases m with
  | refused optopt word =>
      rcases hTold with ⟨hOptopt, hWord⟩
      rw [hOptopt, hWord]
      by_cases hHelp : optopt = charCode '?'
      · rw [hHelp]
        rfl
      · simp only [takeOption, Met.optc, Met.meaning,
          hHelp, and_false, if_false]
        rfl
  | option val arg =>
      have hArg : g'.optarg = arg := hTold
      rw [hArg]
      rcases val_of_inTable hTable with
        ⟨rfl, rfl | rfl | rfl | rfl⟩ |
          ⟨a, rfl, rfl | rfl | rfl⟩ <;>
      rfl

end Errmark

------------------------------------------------------------
-- Calls That Print
------------------------------------------------------------

namespace Errmark

open Foundation

/- No call has found its stream NULL. -/
def AllSet (prints : List Print) : Prop :=
  ∀ p ∈ prints, p.file ≠ none

/-
  How `main` stands before an iteration: `errprint_fh` is
  set, `dbgprint_fh` is not, and no call has gone wrong.
-/
structure Progress.Ready (o : Progress) : Prop where
  errprint : o.errprintFh ≠ none
  dbgprint : o.dbgprintFh = none
  prints : AllSet o.prints

namespace Progress

/- The streams stay ready when marks are set. -/
theorem Ready.setMarks
    {o : Progress}
    (hReady : o.Ready)
    (marks : Marks) :
    (o.setMarks marks).Ready :=
  ⟨hReady.errprint, hReady.dbgprint, hReady.prints⟩

/- The state after some calls that print. -/
def printed
    (o : Progress)
    (calls : List (StreamVar × Message)) : Progress :=
  { o with
    prints :=
      o.prints ++
        calls.map fun call =>
          ⟨call.1, o.file call.1, call.2⟩ }

section Frames

variable
  (o : Progress)
  (marks : Marks)
  (calls : List (StreamVar × Message))

/- Printing and setting marks change no flag. -/
@[simp] theorem printed_verbose :
    (o.printed calls).verbose = o.verbose := rfl

@[simp] theorem printed_debug :
    (o.printed calls).debug = o.debug := rfl

@[simp] theorem printed_errCount :
    (o.printed calls).errCount = o.errCount := rfl

@[simp] theorem printed_copyFname :
    (o.printed calls).copyFname = o.copyFname := rfl

@[simp] theorem setMarks_verbose :
    (o.setMarks marks).verbose = o.verbose := rfl

@[simp] theorem setMarks_debug :
    (o.setMarks marks).debug = o.debug := rfl

@[simp] theorem setMarks_errCount :
    (o.setMarks marks).errCount = o.errCount := rfl

@[simp] theorem setMarks_copyFname :
    (o.setMarks marks).copyFname = o.copyFname := rfl

end Frames

/- A call through any variable but `dbgprint_fh`. -/
theorem Ready.file_ne_none
    {o : Progress}
    (hReady : o.Ready)
    {stream : StreamVar}
    (hStream : stream ≠ .dbgprintFh) :
    o.file stream ≠ none := by
  cases stream with
  | stdout => simp [file]
  | stderr => simp [file]
  | errprintFh => exact hReady.errprint
  | dbgprintFh => exact absurd rfl hStream

/- They stay ready if nothing is printed to `dbgprint_fh`. -/
theorem Ready.printed
    {o : Progress}
    (hReady : o.Ready)
    {calls : List (StreamVar × Message)}
    (hCalls : ∀ call ∈ calls, call.1 ≠ .dbgprintFh) :
    (o.printed calls).Ready := by
  refine ⟨hReady.errprint, hReady.dbgprint, ?_⟩
  intro p hMem
  rcases List.mem_append.mp hMem with hBefore | hNew
  · exact hReady.prints p hBefore
  · rcases List.mem_map.mp hNew with ⟨call, hCall, rfl⟩
    exact hReady.file_ne_none (hCalls call hCall)

/- Calls that find their streams are made. -/
theorem print_eq
    {o : Progress}
    (hReady : o.Ready)
    {call : StreamVar × Message}
    (hCall : call.1 ≠ .dbgprintFh) :
    o.print call = .next (o.printed [call]) := by
  simp [print, hReady.file_ne_none hCall, Progress.printed]

/- Ready streams print everything. -/
theorem printAll_eq
    {o : Progress}
    (hReady : o.Ready)
    {calls : List (StreamVar × Message)}
    (hCalls : ∀ call ∈ calls, call.1 ≠ .dbgprintFh) :
    o.printAll calls = .next (o.printed calls) := by
  induction calls generalizing o with
  | nil => simp [printAll, Progress.printed]
  | cons call calls ih =>
      rw [List.forall_mem_cons] at hCalls
      have hReady' : (o.printed [call]).Ready :=
        hReady.printed (by simpa using hCalls.1)
      have hRest := ih hReady' hCalls.2
      rw [printAll] at hRest ⊢
      rw [run_cons, print_eq hReady hCalls.1,
        Outcome.next_andThen, hRest]
      simp [Progress.printed, file]

/- So a message is printed before the exit. -/
theorem exitAfter_eq
    {o : Progress}
    (hReady : o.Ready)
    {calls : List (StreamVar × Message)}
    (hCalls : ∀ call ∈ calls, call.1 ≠ .dbgprintFh)
    (code : Nat) :
    o.exitAfter calls code =
      .halt (.exit code) (o.printed calls) := by
  rw [exitAfter, printAll_eq hReady hCalls,
    Outcome.next_andThen]

end Progress

/- The first call through `dbgprint_fh` goes wrong. -/
theorem showOptc_of_debug
    {o : Progress}
    (hReady : o.Ready)
    (hDebug : o.debug = true)
    (optc : CInt) :
    ∃ o', showOptc o optc = .halt .undefined o' ∧
      ¬ AllSet o'.prints := by
  unfold showOptc
  rw [if_pos hDebug, List.cons_append, Progress.printAll,
    run_cons]
  have hFile : o.file .dbgprintFh = none := hReady.dbgprint
  simp only [Progress.print, dbgPrint, hFile, if_true,
    Outcome.halt_andThen]
  refine ⟨_, rfl, ?_⟩
  intro hAll
  exact hAll _
    (List.mem_append_right _ (List.mem_singleton.mpr rfl))
    rfl

/- A byte from 0x80 up overruns the buffer. -/
theorem overruns_iff (str : CString) :
    overruns str = true ↔ ¬ str.IsAscii := by
  have hByte :
      ∀ b, dbufSize < (storedInDbuf b).length ↔
        ¬ b < 0x80 := by
    intro b
    by_cases hAscii : b < 0x80
    · have hLength := length_shownAs_le b
      rw [storedInDbuf_of_ascii hAscii, List.length_append,
        List.length_singleton, dbufSize]
      simp only [hAscii, not_true_eq_false, iff_false]
      omega
    · simp [storedInDbuf_of_high hAscii, dbufSize, hAscii]
  simp only [overruns, CString.IsAscii, List.any_eq_true,
    decide_eq_true_eq, hByte, not_forall, exists_prop]

/- A call that shows strings is made, and may overrun. -/
theorem printShown_eq
    {o : Progress}
    (hReady : o.Ready)
    {call : StreamVar × Message}
    (hCall : call.1 ≠ .dbgprintFh)
    (strs : List CString) :
    o.printShown call strs =
      if strs.any overruns then
        .halt .undefined (o.printed [call])
      else
        .next (o.printed [call]) := by
  rw [Progress.printShown, Progress.print_eq hReady hCall,
    Outcome.next_andThen]

end Errmark

------------------------------------------------------------
-- Effects Of An Option
------------------------------------------------------------

namespace Errmark

open Foundation

namespace CommandOption

/- The options that end errmark, given `verbose` so far. -/
def Stops (verbose : Bool) : CommandOption → Prop
| .help => True
| .version => True
| .mark spec =>
    Rejected spec ∨ (verbose = true ∧ ¬ spec.IsAscii)
| .color name => ¬ KnownColor name
| _ => False

/- The errors it counts. -/
@[simp] def errors : CommandOption → Nat
| .unknown _ _ => 1
| _ => 0

/- The name of a copy it gives. -/
@[simp] def copyName : CommandOption → Option CString
| .copy fname => some fname
| _ => none

end CommandOption

/- What an option that does not end errmark leaves behind. -/
structure Taken
    (o : Progress)
    (x : CommandOption)
    (o' : Progress) : Prop where
  ready : o'.Ready
  debug : o'.debug = (o.debug || x = .debug)
  verbose : o'.verbose = (o.verbose || x = .verbose)
  errCount : o'.errCount = o.errCount + x.errors
  copyFname : o'.copyFname = x.copyName.or o.copyFname

/-
  The end of errmark by an option, with an exit code unless
  the string of a mark overruns a buffer.
-/
structure EndsBy
    (x : CommandOption)
    (outcome : Outcome Progress MainHalt) : Prop where
  halts : ∃ cause, outcome = .halt cause outcome.final
  prints : AllSet outcome.final.prints
  exits :
    (∀ spec, x = .mark spec → spec.IsAscii) →
      ∃ code,
        outcome = .halt (.exit code) outcome.final

/- An exit ends the options. -/
theorem endsBy_exitAfter
    {o : Progress}
    (hReady : o.Ready)
    {calls : List (StreamVar × Message)}
    (hCalls : ∀ call ∈ calls, call.1 ≠ .dbgprintFh)
    (x : CommandOption)
    (code : Nat) :
    EndsBy x (o.exitAfter calls code) := by
  rw [Progress.exitAfter_eq hReady hCalls]
  exact ⟨⟨_, rfl⟩, (hReady.printed hCalls).prints,
    fun _ => ⟨code, rfl⟩⟩

/- Without `debug`, parsing a mark prints nothing. -/
theorem printed_of_no_debug
    (marks : Marks)
    (mspec : CString) :
    (parseMarkSpecs false marks mspec).printed = [] := by
  simp only [parseMarkSpecs, Bool.false_eq_true, if_false]
  split
  · split <;> rfl
  · rfl

/- When `opt_mark` prints something. -/
theorem optMark_printed
    (verbose debug : Bool)
    (marks : Marks)
    (mspec : CString) :
    (optMark verbose debug marks mspec).printed ≠ [] ↔
      verbose = true ∨ Rejected mspec := by
  have hShow :
      (verbose = true ∨
          ¬ (parseMarkSpecs debug marks mspec).value =
            true) ↔
        verbose = true ∨ Rejected mspec := by
    rw [parse_value_iff, not_not]
  have hText : asciiBytes "--mark='" ≠ [] := by decide
  rw [← hShow]
  simp only [optMark]
  split_ifs with hBoth
  · exact ⟨fun _ => hBoth, fun _ => by simp [hText]⟩
  · exact ⟨fun hNil => absurd rfl hNil,
      fun hEither => absurd hEither hBoth⟩

/-
  A mark that is accepted is set. Its text is shown with
  `verbose`, and always if it is rejected.
-/
theorem runOptMark_cases
    {o : Progress}
    (hReady : o.Ready)
    (hDebug : o.debug = false)
    (spec : CString) :
    ((CommandOption.mark spec).Stops o.verbose ∧
        EndsBy (.mark spec) (runOptMark o spec)) ∨
      (¬ (CommandOption.mark spec).Stops o.verbose ∧
        ∃ o', runOptMark o spec = .next o' ∧
          Taken o (.mark spec) o') := by
  have hShow := optMark_printed o.verbose false o.marks spec
  have hOver := overruns_iff spec
  have hReady' :=
    hReady.setMarks
      (optMark o.verbose false o.marks spec).marks
  have hCall :
      ∀ text,
        ((.stderr, .text text) : StreamVar × Message).1 ≠
          .dbgprintFh := by
    simp
  have hPrinted :
      ∀ text,
        ((o.setMarks
          (optMark o.verbose false o.marks
            spec).marks).printed
              [(.stderr, .text text)]).Ready :=
    fun text => hReady'.printed (by simp)
  simp only [runOptMark, hDebug, printed_of_no_debug,
    ne_eq, not_true_eq_false, if_false,
    Outcome.next_andThen]
  rcases optMark_cases o.verbose false o.marks spec with
    ⟨hReject, hExit, _⟩ | ⟨hNot, hExit⟩
  · left
    refine ⟨Or.inl hReject, ?_⟩
    rw [if_pos (hShow.mpr (Or.inr hReject)),
      printShown_eq hReady' (hCall _), hExit]
    cases hAny : [spec].any overruns with
    | true =>
        refine ⟨⟨_, rfl⟩, (hPrinted _).prints, ?_⟩
        intro hAscii
        rw [List.any_cons, List.any_nil, Bool.or_false,
          hOver] at hAny
        exact absurd (hAscii spec rfl) hAny
    | false =>
        exact ⟨⟨_, rfl⟩, (hPrinted _).prints,
          fun _ => ⟨2, rfl⟩⟩
  · by_cases hVerbose : o.verbose = true
    · rw [if_pos (hShow.mpr (Or.inl hVerbose)),
        printShown_eq hReady' (hCall _), hExit]
      cases hAny : [spec].any overruns with
      | true =>
          rw [List.any_cons, List.any_nil, Bool.or_false,
            hOver] at hAny
          refine Or.inl ⟨Or.inr ⟨hVerbose, hAny⟩,
            ⟨_, rfl⟩, (hPrinted _).prints, ?_⟩
          intro hAscii
          exact absurd (hAscii spec rfl) hAny
      | false =>
          right
          have hAscii : spec.IsAscii := by
            by_contra hHigh
            simp [hOver.mpr hHigh] at hAny
          refine ⟨?_, _, rfl, hPrinted _, ?_, ?_, ?_, ?_⟩
          · simp [CommandOption.Stops, hNot, hAscii]
          all_goals simp
    · right
      have hQuiet :
          (optMark o.verbose false o.marks spec).printed =
            [] := by
        by_contra hText
        rcases hShow.mp hText with hYes | hReject
        · exact hVerbose hYes
        · exact hNot hReject
      rw [if_neg (not_not_intro hQuiet), hExit]
      refine ⟨?_, _, rfl, hReady', ?_, ?_, ?_, ?_⟩
      · simp [CommandOption.Stops, hNot, hVerbose]
      all_goals simp

/- A known color is set as a pair of marks. -/
theorem optColor_cases
    {o : Progress}
    (hReady : o.Ready)
    (name : CString) :
    ((CommandOption.color name).Stops o.verbose ∧
        EndsBy (.color name) (optColor o (some name))) ∨
      (¬ (CommandOption.color name).Stops o.verbose ∧
        ∃ o', optColor o (some name) = .next o' ∧
          Taken o (.color name) o') := by
  have hKnown := lookupColor_isSome_iff name
  unfold optColor
  cases hFound : lookupColor (some name) with
  | none =>
      left
      rw [hFound] at hKnown
      refine ⟨fun hName => ?_, ?_⟩
      · simpa using hKnown.mpr hName
      · exact endsBy_exitAfter hReady (by simp) _ 2
  | some ent =>
      right
      rw [hFound] at hKnown
      refine ⟨fun hNot => hNot (hKnown.mp rfl), _, rfl,
        hReady.setMarks _, ?_, ?_, ?_, ?_⟩
      all_goals simp

/- Each option ends errmark, or is taken. -/
theorem enact_cases
    {o : Progress}
    (hReady : o.Ready)
    (hDebug : o.debug = false)
    (x : CommandOption) :
    (x.Stops o.verbose ∧ EndsBy x (enact o x)) ∨
      (¬ x.Stops o.verbose ∧
        ∃ o', enact o x = .next o' ∧ Taken o x o') := by
  cases x with
  | help =>
      exact Or.inl ⟨trivial,
        endsBy_exitAfter hReady (by simp) _ 0⟩
  | version =>
      exact Or.inl ⟨trivial,
        endsBy_exitAfter hReady (by simp) _ 0⟩
  | verbose =>
      refine Or.inr ⟨id, _, rfl, ?_, ?_, ?_, ?_, ?_⟩
      · exact
          ⟨hReady.errprint, hReady.dbgprint, hReady.prints⟩
      all_goals simp
  | debug =>
      refine Or.inr ⟨id, _, rfl, ?_, ?_, ?_, ?_, ?_⟩
      · exact
          ⟨hReady.errprint, hReady.dbgprint, hReady.prints⟩
      all_goals simp
  | mark spec => exact runOptMark_cases hReady hDebug spec
  | color name => exact optColor_cases hReady name
  | copy fname =>
      refine Or.inr ⟨id, _, rfl, ?_, ?_, ?_, ?_, ?_⟩
      · exact
          ⟨hReady.errprint, hReady.dbgprint, hReady.prints⟩
      all_goals simp
  | unknown optopt word =>
      have hCalls :
          ∀ call ∈
            ([eprint (stringText o.programName),
              eprint (asciiBytes ": "),
              if isLongOption word then
                eprint
                  (asciiBytes "unknown long option, '" ++
                    word.bytes ++ asciiBytes "'\n")
              else
                eprint
                  (asciiBytes "unknown short option, '" ++
                    visCharR 10 optopt ++
                    asciiBytes "'\n")] :
              List (StreamVar × Message)),
            call.1 ≠ .dbgprintFh := by
        simp only [List.mem_cons, List.not_mem_nil, or_false]
        rintro call (rfl | rfl | rfl)
        · simp [eprint]
        · simp [eprint]
        · split <;> simp [eprint]
      refine Or.inr ⟨id, ?_⟩
      rw [enact, unknownOption,
        Progress.printAll_eq hReady hCalls]
      have hReady' := hReady.printed hCalls
      refine ⟨_, rfl,
        ⟨hReady'.errprint, hReady'.dbgprint,
          hReady'.prints⟩, ?_, ?_, ?_, ?_⟩
      all_goals simp

/-
  An iteration gives up after too many errors, goes wrong
  where `debug` is set, and otherwise does what the option
  means.
-/
theorem obey_cases
    {o : Progress}
    (hReady : o.Ready)
    (m : Met) :
    (10 < o.errCount ∧
        ∃ o', obey o m = .leave o' ∧
          o'.Ready ∧ o'.errCount = o.errCount) ∨
      (o.errCount ≤ 10 ∧ o.debug = true ∧
        ∃ o', obey o m = .halt .undefined o' ∧
          ¬ AllSet o'.prints) ∨
      (o.errCount ≤ 10 ∧ o.debug = false ∧
        m.meaning.Stops o.verbose ∧
        EndsBy m.meaning (obey o m)) ∨
      (o.errCount ≤ 10 ∧ o.debug = false ∧
        ¬ m.meaning.Stops o.verbose ∧
        ∃ o', obey o m = .next o' ∧
          Taken o m.meaning o') := by
  unfold obey
  by_cases hMany : o.errCount > 10
  · left
    refine ⟨hMany, ?_⟩
    rw [if_pos hMany, tooManyErrors,
      Progress.printAll_eq hReady (by simp [eprint])]
    exact
      ⟨_, rfl, hReady.printed (by simp [eprint]), rfl⟩
  · right
    have hFew : o.errCount ≤ 10 := Nat.le_of_not_lt hMany
    rw [if_neg hMany]
    cases hDebug : o.debug with
    | true =>
        left
        rcases showOptc_of_debug hReady hDebug m.optc with
          ⟨o', hShow, hUnset⟩
        rw [hShow]
        exact ⟨hFew, rfl, o', rfl, hUnset⟩
    | false =>
        right
        have hShow : showOptc o m.optc = .next o := by
          simp [showOptc, hDebug]
        rw [hShow, Outcome.next_andThen]
        rcases enact_cases hReady hDebug m.meaning with
          ⟨hStops, hEnds⟩ | ⟨hNot, hTaken⟩
        · exact Or.inl ⟨hFew, rfl, hStops, hEnds⟩
        · exact Or.inr ⟨hFew, rfl, hNot, hTaken⟩

/- The loop goes on with an option that was taken. -/
theorem taken_of_obey
    {o o' : Progress}
    {m : Met}
    (hReady : o.Ready)
    (hNext : obey o m = .next o') :
    Taken o m.meaning o' := by
  rcases obey_cases hReady m with
    ⟨_, _, hObey, _⟩ | ⟨_, _, _, hObey, _⟩ |
      ⟨_, _, _, hEnds⟩ | ⟨_, _, _, _, hObey, hTaken⟩
  · rw [hObey] at hNext
    cases hNext
  · rw [hObey] at hNext
    cases hNext
  · rcases hEnds.halts with ⟨_, hHalt⟩
    rw [hHalt] at hNext
    cases hNext
  · rw [hObey] at hNext
    cases hNext
    exact hTaken

/- With an option still to be met, it is left by errors. -/
theorem errors_of_obey
    {o o' : Progress}
    {m : Met}
    (hReady : o.Ready)
    (hLeave : obey o m = .leave o') :
    o'.Ready ∧ 10 < o'.errCount := by
  rcases obey_cases hReady m with
    ⟨hMany, _, hObey, hReady', hCount⟩ |
      ⟨_, _, _, hObey, _⟩ | ⟨_, _, _, hEnds⟩ |
      ⟨_, _, _, _, hObey, _⟩
  · rw [hObey] at hLeave
    cases hLeave
    exact ⟨hReady', by omega⟩
  · rw [hObey] at hLeave
    cases hLeave
  · rcases hEnds.halts with ⟨_, hHalt⟩
    rw [hHalt] at hLeave
    cases hLeave
  · rw [hObey] at hLeave
    cases hLeave

/- After the last option, the loop is left in any case. -/
theorem obeyEnd_cases
    {o : Progress}
    (hReady : o.Ready) :
    ∃ o', obeyEnd o = .leave o' ∧
      o'.Ready ∧ o'.errCount = o.errCount ∧
      (o.errCount ≤ 10 → o' = o) := by
  unfold obeyEnd
  by_cases hMany : o.errCount > 10
  · rw [if_pos hMany, tooManyErrors,
      Progress.printAll_eq hReady (by simp [eprint])]
    refine
      ⟨_, rfl, hReady.printed (by simp [eprint]), rfl, ?_⟩
    intro hFew
    omega
  · rw [if_neg hMany]
    exact ⟨o, rfl, hReady, rfl, fun _ => rfl⟩

/- At first the streams are ready. -/
theorem ready_initial
    (env : Environment)
    (argv : List CString) :
    (Progress.initial env argv).Ready := by
  refine ⟨by simp [Progress.initial], rfl, ?_⟩
  simp [AllSet, Progress.initial]

end Errmark
