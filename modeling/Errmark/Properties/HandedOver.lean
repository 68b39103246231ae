import Errmark.Foundation.Settings
import Errmark.Properties.Startup

/-
  What `main` hands over to `errmark_run_program`.

  Each setting is that of the last option of the command
  line that names it: the two marks of each descriptor, the
  file for a copy, and the two flags. The command is what
  the options leave over.

  Key definitions include:
    * `CommandOption.markText`
    * `Progress.bare`
    * `Concluded`
    * `HandedOver`

  Key theorems include:
    * `marks_of_enact`
    * `run_of_obeyAll`
    * `concluded_of_leave`
    * `handed_over`
-/

------------------------------------------------------------
-- The Marks An Option Sets
------------------------------------------------------------

namespace Errmark

/- The field of a mark specification for an edge. -/
def Edge.field
    (edge : Edge)
    (fsep : UInt8)
    (rest : List UInt8) : List UInt8 :=
  match edge with
  | .start => startField fsep rest
  | .finish => endField fsep rest

/- The escape sequence of a color for an edge. -/
def Edge.escape
    (edge : Edge)
    (ent : ColorEsc) : List UInt8 :=
  match edge with
  | .start => ent.escStart
  | .finish => ent.escEnd

/-
  The mark that an option sets for a descriptor. A digit
  alone sets none, and a color is for stderr.
-/
def CommandOption.markText
    (fd : Int)
    (edge : Edge) : CommandOption → Option (List UInt8)
| .mark spec =>
    match spec.bytes with
    | digit :: fsep :: rest =>
        if (fd = 1 ∨ fd = 2) ∧ digit = fdDigit fd then
          some (edge.field fsep rest)
        else
          none
    | _ => none
| .color name =>
    if fd = 2 then
      (lookupColor (some name)).map edge.escape
    else
      none
| _ => none

/- The digits are told apart. -/
theorem fdDigit_inj
    {fd other : Int}
    (hFd : fd = 1 ∨ fd = 2)
    (hOther : other = 1 ∨ other = 2)
    (hSame : fdDigit fd = fdDigit other) :
    fd = other := by
  rcases hFd with rfl | rfl <;>
    rcases hOther with rfl | rfl <;>
    first
      | rfl
      | exact absurd hSame (by decide)

/- An accepted specification sets the marks it names. -/
theorem markText_of_accepted
    {spec : CString}
    {fd : Int}
    {fsep : UInt8}
    {rest : List UInt8}
    (hText : Accepted fd fsep rest spec)
    (other : Int)
    (edge : Edge) :
    (CommandOption.mark spec).markText other edge =
      if other = fd then some (edge.field fsep rest)
      else none := by
  simp only [CommandOption.markText, hText.2]
  by_cases hSame : other = fd
  · rw [if_pos hSame, if_pos ⟨by rw [hSame]; exact hText.1,
      by rw [hSame]⟩]
  · rw [if_neg hSame, if_neg]
    rintro ⟨hOther, hDigit⟩
    exact hSame (fdDigit_inj hOther hText.1 hDigit.symm)

/- The marks after a text was parsed, if it was accepted. -/
theorem text_parseMarkSpecs
    (debug : Bool)
    (marks : Marks)
    {spec : CString}
    (hNot : ¬ Rejected spec)
    (fd : Int)
    (edge : Edge) :
    (parseMarkSpecs debug marks spec).marks.text fd edge =
      ((CommandOption.mark spec).markText fd edge).or
        (marks.text fd edge) := by
  rcases text_cases spec with
    hReject | ⟨digit, hDigit, hText⟩ |
      ⟨set, fsep, rest, hText⟩
  · exact absurd hReject hNot
  · rcases parse_of_digit debug marks hDigit hText with
      ⟨_, hMarks, _⟩
    rw [hMarks]
    simp [CommandOption.markText, hText]
  · rcases parse_of_accepted debug marks hText with
      ⟨start, finish, hStart, hFinish, _, hMarks, _⟩
    rcases text_replace marks start finish hText.1 with
      ⟨hStartText, hFinishText, hOthers⟩
    rw [hMarks, markText_of_accepted hText]
    by_cases hSame : fd = set
    · rw [if_pos hSame, hSame]
      cases edge with
      | start => rw [hStartText, hStart]; rfl
      | finish => rw [hFinishText, hFinish]; rfl
    · rw [if_neg hSame, hOthers fd hSame]
      rfl

/- The marks after a color was set. -/
theorem text_setMark
    (marks : Marks)
    {name : CString}
    {ent : ColorEsc}
    (hFound : lookupColor (some name) = some ent)
    (fd : Int)
    (edge : Edge) :
    (setMark marks 2 ent.escStart ent.escEnd).marks.text
        fd edge =
      ((CommandOption.color name).markText fd edge).or
        (marks.text fd edge) := by
  simp only [CommandOption.markText, hFound, Option.map_some]
  by_cases hFd : fd = 2
  · rw [if_pos hFd, hFd]
    cases edge <;> rfl
  · rw [if_neg hFd]
    simp [setMark, Marks.text, hFd]

end Errmark

------------------------------------------------------------
-- Progress Without What Was Printed
------------------------------------------------------------

namespace Errmark

open Foundation

namespace Progress

/- All that `main` has come to, but what it printed. -/
def bare (o : Progress) : Progress :=
  { o with prints := [] }

/- The marks are known without what was printed. -/
theorem marks_of_bare
    {o o' : Progress}
    (hBare : o'.bare = o.bare) :
    o'.marks = o.marks := by
  have hMarks := congrArg marks hBare
  exact hMarks

/- Printing a message sets no option. -/
theorem bare_of_print
    {o o' : Progress}
    {call : StreamVar × Message}
    (hNext : o.print call = .next o') :
    o'.bare = o.bare := by
  simp only [print] at hNext
  split at hNext
  · cases hNext
  · cases hNext
    rfl

/- Nor does printing several ones. -/
theorem bare_of_printAll
    {o o' : Progress}
    {calls : List (StreamVar × Message)}
    (hNext : o.printAll calls = .next o') :
    o'.bare = o.bare := by
  refine
    invariant_of_run (fun s => s.bare = o.bare) ?_ rfl hNext
  intro s call s' hSame hPrint
  rw [bare_of_print hPrint, hSame]

/- Nor does showing strings. -/
theorem bare_of_printShown
    {o o' : Progress}
    {call : StreamVar × Message}
    {strs : List CString}
    (hNext : o.printShown call strs = .next o') :
    o'.bare = o.bare := by
  rcases Outcome.andThen_eq_next_iff.mp hNext with
    ⟨mid, hPrint, hRest⟩
  split at hRest
  · cases hRest
  · cases hRest
    exact bare_of_print hPrint

/- A call that ends errmark does not go on. -/
theorem exitAfter_ne_next
    (o o' : Progress)
    (calls : List (StreamVar × Message))
    (code : Nat) :
    o.exitAfter calls code ≠ .next o' := by
  intro hNext
  rcases Outcome.andThen_eq_next_iff.mp hNext with
    ⟨_, _, hHalt⟩
  cases hHalt

end Progress

/- Nor does showing an option. -/
theorem bare_of_showOptc
    {o o' : Progress}
    {optc : CInt}
    (hNext : showOptc o optc = .next o') :
    o'.bare = o.bare := by
  unfold showOptc at hNext
  split at hNext
  · exact Progress.bare_of_printAll hNext
  · cases hNext
    rfl

end Errmark

------------------------------------------------------------
-- The Marks After An Option
------------------------------------------------------------

namespace Errmark

open Foundation

/- An accepted mark is set, and nothing else is changed. -/
theorem bare_of_runOptMark
    {o o' : Progress}
    {spec : CString}
    (hNext : runOptMark o spec = .next o') :
    o'.bare =
        (o.setMarks
          (parseMarkSpecs o.debug o.marks
            spec).marks).bare ∧
      ¬ Rejected spec := by
  simp only [runOptMark] at hNext
  rcases Outcome.andThen_eq_next_iff.mp hNext with
    ⟨first, hFirst, hRest⟩
  rcases Outcome.andThen_eq_next_iff.mp hRest with
    ⟨second, hSecond, hLast⟩
  have hFirstBare :
      first.bare =
        (o.setMarks
          (parseMarkSpecs o.debug o.marks
            spec).marks).bare := by
    split at hFirst
    · exact Progress.bare_of_printShown hFirst
    · cases hFirst
      rfl
  have hSecondBare : second.bare = first.bare := by
    split at hSecond
    · exact Progress.bare_of_printShown hSecond
    · cases hSecond
      rfl
  rcases optMark_cases o.verbose o.debug o.marks spec with
    ⟨_, hExit, _⟩ | ⟨hNot, hExit⟩
  · rw [hExit] at hLast
    cases hLast
  · rw [hExit] at hLast
    cases hLast
    exact ⟨hSecondBare.trans hFirstBare, hNot⟩

/- An option overrides the marks it names. -/
theorem marks_of_enact
    {o o' : Progress}
    {x : CommandOption}
    (hNext : enact o x = .next o')
    (fd : Int)
    (edge : Edge) :
    o'.marks.text fd edge =
      (x.markText fd edge).or (o.marks.text fd edge) := by
  cases x with
  | help =>
      exact absurd hNext (Progress.exitAfter_ne_next o o' _ 0)
  | version =>
      exact absurd hNext (Progress.exitAfter_ne_next o o' _ 0)
  | verbose =>
      cases hNext
      rfl
  | debug =>
      cases hNext
      rfl
  | mark spec =>
      rcases bare_of_runOptMark hNext with ⟨hBare, hNot⟩
      rw [Progress.marks_of_bare hBare]
      exact text_parseMarkSpecs o.debug o.marks hNot fd edge
  | color name =>
      simp only [enact, optColor] at hNext
      split at hNext
      · exact
          absurd hNext (Progress.exitAfter_ne_next o o' _ 2)
      · next ent hFound =>
          cases hNext
          exact text_setMark o.marks hFound fd edge
  | copy fname =>
      cases hNext
      rfl
  | unknown optopt word =>
      rcases Outcome.andThen_eq_next_iff.mp hNext with
        ⟨mid, hPrint, hCount⟩
      cases hCount
      have hMarks :=
        Progress.marks_of_bare
          (Progress.bare_of_printAll hPrint)
      simp only [hMarks]
      rfl

/- An option sets its marks, and keeps the others. -/
theorem marks_of_obey
    {o o' : Progress}
    {m : Met}
    (hNext : obey o m = .next o')
    (fd : Int)
    (edge : Edge) :
    o'.marks.text fd edge =
      (m.meaning.markText fd edge).or
        (o.marks.text fd edge) := by
  unfold obey at hNext
  split at hNext
  · exact absurd hNext (tooManyErrors_ne_next o o')
  · rcases Outcome.andThen_eq_next_iff.mp hNext with
      ⟨mid, hShow, hEnact⟩
    rw [marks_of_enact hEnact,
      Progress.marks_of_bare (bare_of_showOptc hShow)]

end Errmark

------------------------------------------------------------
-- Around The Options
------------------------------------------------------------

namespace Errmark

open Foundation

/- Without too many errors the loop meets every option. -/
theorem run_of_obeyAll
    {o o' : Progress}
    {ms : List Met}
    (hReady : o.Ready)
    (hLeave : obeyAll o ms = .leave o')
    (hFew : o'.errCount ≤ 10) :
    run obey o ms = .next o' := by
  induction ms generalizing o with
  | nil =>
      rcases obeyEnd_cases hReady with
        ⟨end', hEnd, _, hCount, hSame⟩
      have hEq : Outcome.leave end' = .leave o' :=
        hEnd.symm.trans hLeave
      cases hEq
      rw [hSame (by omega)]
      rfl
  | cons m ms ih =>
      rw [obeyAll_cons, Outcome.andThen_eq_leave_iff]
        at hLeave
      rcases hLeave with hEarly | ⟨mid, hObey, hRest⟩
      · have hMany := (errors_of_obey hReady hEarly).2
        omega
      · rw [run_cons, hObey, Outcome.next_andThen]
        exact ih (taken_of_obey hReady hObey).ready hRest

/- What is changed on the way to the call. -/
structure Concluded (o o' : Progress) : Prop where
  errCount : o.errCount = 0
  marks : o'.marks = o.marks
  copyFname : o'.copyFname = o.copyFname
  debug : o'.debug = o.debug
  verbose : o'.verbose = (o.verbose || o.debug)

/- Showing the arguments sets no option. -/
theorem bare_of_showArguments
    {o o' : Progress}
    {args : List CString}
    (hNext : showArguments o args = .next o') :
    o'.bare = o.bare := by
  unfold showArguments at hNext
  split at hNext
  · exact Progress.bare_of_printShown hNext
  · cases hNext
    rfl

/- After the options, only `verbose` may still be set. -/
theorem concluded_of_leave
    {env : Environment}
    {argv args : List CString}
    {o o' : Progress}
    (hReady : o.Ready)
    (hLeave : prepareCommand env argv args o = .leave o') :
    Concluded o o' := by
  have hReady' :
      ({ o with verbose := o.verbose || o.debug }
        : Progress).Ready :=
    ⟨hReady.errprint, hReady.dbgprint, hReady.prints⟩
  rcases prepareCommand_cases hReady env argv args with
    ⟨hPrepared, _⟩ | ⟨_, _, _, hHalt, _⟩
  · unfold prepareCommand at hLeave
    rw [if_neg (not_not_intro hPrepared.errCount)] at hLeave
    split at hLeave
    · next hArgc =>
        rw [List.length_eq_zero_iff] at hArgc
        exact absurd hArgc hPrepared.argc
    · dsimp only at hLeave
      rcases showArguments_cases hReady' args with
        ⟨_, mid, hShow, hMid, _⟩ | ⟨_, _, _, hShow, _⟩
      · rw [hShow, Outcome.next_andThen] at hLeave
        rcases openCopy_cases hMid env with
          ⟨_, hCopy⟩ | ⟨_, _, hCopy, _⟩
        · rw [hCopy] at hLeave
          cases hLeave
          have hBare := bare_of_showArguments hShow
          simp only [Progress.bare, Progress.mk.injEq]
            at hBare
          rcases hBare with
            ⟨_, _, _, hVerbose, hDebug, hMarks, hName, _⟩
          exact ⟨hPrepared.errCount, hMarks, hName, hDebug,
            hVerbose⟩
        · rw [hCopy] at hLeave
          cases hLeave
      · rw [hShow] at hLeave
        cases hLeave
  · rw [hHalt] at hLeave
    cases hLeave

end Errmark

------------------------------------------------------------
-- What Is Handed Over
------------------------------------------------------------

namespace Errmark

open Foundation

variable {env : Environment}
variable {argv : List CString}

/-
  The settings with which `errmark_run_program` is called,
  in terms of the options met, in any order and any number.
-/
structure HandedOver
    (argv : List CString)
    (s : MainState) : Prop where
  marks :
    ∀ fd edge,
      s.progress.marks.text fd edge =
        lastSetting (fun m => m.meaning.markText fd edge)
          (readLine argv).met
  copyFname :
    s.progress.copyFname =
      lastSetting (fun m => m.meaning.copyName)
        (readLine argv).met
  debug :
    s.progress.debug = true ↔
      ∃ m ∈ (readLine argv).met, m.meaning = .debug
  verbose :
    s.progress.verbose = true ↔
      ∃ m ∈ (readLine argv).met,
        m.meaning = .verbose ∨ m.meaning = .debug
  args :
    argv.drop s.getopt.optind = (readLine argv).operands

/- A flag that is up after a run was set by some option. -/
theorem flag_of_obey
    (flag : Progress → Bool)
    (x : CommandOption)
    (hTaken :
      ∀ o m o', Taken o m o' →
        flag o' = (flag o || m = x))
    {o o' : Progress}
    {ms : List Met}
    (hReady : o.Ready)
    (hRun : run obey o ms = .next o') :
    flag o' = true ↔
      flag o = true ∨ ∃ m ∈ ms, m.meaning = x := by
  induction ms generalizing o with
  | nil =>
      cases hRun
      simp
  | cons m ms ih =>
      rw [run_cons, Outcome.andThen_eq_next_iff] at hRun
      rcases hRun with ⟨mid, hObey, hRest⟩
      have hFirst := taken_of_obey hReady hObey
      rw [ih hFirst.ready hRest, hTaken _ _ _ hFirst]
      simp [or_assoc]

/- The marks after a run, before which there are none. -/
theorem marks_of_run
    {o : Progress}
    {ms : List Met}
    (hRun :
      run obey (Progress.initial env argv) ms = .next o)
    (fd : Int)
    (edge : Edge) :
    o.marks.text fd edge =
      lastSetting (fun m => m.meaning.markText fd edge)
        ms := by
  have hStep :
      ∀ (o : Progress) m o', o.Ready →
        obey o m = .next o' →
        o'.Ready ∧
          o'.marks.text fd edge =
            (m.meaning.markText fd edge).or
              (o.marks.text fd edge) :=
    fun o m o' hReady hNext =>
      ⟨(taken_of_obey hReady hNext).ready,
        marks_of_obey hNext fd edge⟩
  have hNone :
      (Progress.initial env argv).marks.text fd edge =
        none := by
    unfold Marks.text
    split_ifs <;> cases edge <;> rfl
  rw [setting_of_run hStep (ready_initial env argv) hRun,
    hNone, Option.or_none]

/- The last `--copy` counts. -/
theorem copyFname_of_run
    {o : Progress}
    {ms : List Met}
    (hRun :
      run obey (Progress.initial env argv) ms = .next o) :
    o.copyFname =
      lastSetting (fun m => m.meaning.copyName) ms := by
  have hStep :
      ∀ (o : Progress) m o', o.Ready →
        obey o m = .next o' →
        o'.Ready ∧
          o'.copyFname =
            m.meaning.copyName.or o.copyFname :=
    fun o m o' hReady hNext =>
      ⟨(taken_of_obey hReady hNext).ready,
        (taken_of_obey hReady hNext).copyFname⟩
  have hNone :
      (Progress.initial env argv).copyFname = none := rfl
  rw [setting_of_run hStep (ready_initial env argv) hRun,
    hNone, Option.or_none]

/- The progress of the loop that was left, and the rest. -/
theorem exists_of_leave
    {s : MainState}
    (hLeave : mainBeforeRun env argv = .leave s) :
    ∃ o : Progress,
      run obey (Progress.initial env argv)
            (readLine argv).met = .next o ∧
        Concluded o s.progress ∧
        argv.drop s.getopt.optind =
          (readLine argv).operands := by
  rcases mainBeforeRun_cases env argv with
    ⟨_, _, _, hMain⟩ | ⟨mid, hAll, hReady, hMain, hArgs⟩
  · rw [hMain] at hLeave
    cases hLeave
  · rw [hMain] at hLeave
    cases hPrepare :
        prepareCommand env argv
          (argv.drop mid.getopt.optind) mid.progress with
    | next o =>
        rw [hPrepare] at hLeave
        cases hLeave
    | halt e o =>
        rw [hPrepare] at hLeave
        cases hLeave
    | leave o =>
        rw [hPrepare] at hLeave
        cases hLeave
        have hEnd := concluded_of_leave hReady hPrepare
        have hNone := hEnd.errCount
        exact
          ⟨mid.progress,
            run_of_obeyAll (ready_initial env argv) hAll
              (by omega),
            hEnd, hArgs (by omega)⟩

/- One `--debug` is enough. -/
theorem debug_of_run
    {o : Progress}
    {ms : List Met}
    (hRun :
      run obey (Progress.initial env argv) ms = .next o) :
    o.debug = true ↔ ∃ m ∈ ms, m.meaning = .debug := by
  have hNone :
      (Progress.initial env argv).debug = false := rfl
  rw [flag_of_obey Progress.debug .debug
    (fun _ _ _ hTaken => hTaken.debug)
    (ready_initial env argv) hRun, hNone]
  simp

/- `--debug` stands for `--verbose` as well. -/
theorem verbose_of_run
    {o : Progress}
    {ms : List Met}
    (hRun :
      run obey (Progress.initial env argv) ms = .next o) :
    (o.verbose || o.debug) = true ↔
      ∃ m ∈ ms,
        m.meaning = .verbose ∨ m.meaning = .debug := by
  have hNone :
      (Progress.initial env argv).verbose = false := rfl
  rw [Bool.or_eq_true, debug_of_run hRun,
    flag_of_obey Progress.verbose .verbose
      (fun _ _ _ hTaken => hTaken.verbose)
      (ready_initial env argv) hRun, hNone]
  simp [and_or_left, exists_or]

/- The marks handed over are those that were named last. -/
theorem marks_of_leave
    {s : MainState}
    (hLeave : mainBeforeRun env argv = .leave s)
    (fd : Int)
    (edge : Edge) :
    s.progress.marks.text fd edge =
      lastSetting (fun m => m.meaning.markText fd edge)
        (readLine argv).met := by
  rcases exists_of_leave hLeave with ⟨o, hRun, hEnd, _⟩
  rw [hEnd.marks]
  exact marks_of_run hRun fd edge

/-
  Whatever the order of its options, errmark traces with the
  settings that were named last, and those that were not
  named at all are not set.
-/
theorem handed_over
    (env : Environment)
    (argv : List CString)
    {s : MainState}
    (hLeave : mainBeforeRun env argv = .leave s) :
    HandedOver argv s := by
  rcases exists_of_leave hLeave with
    ⟨o, hRun, hEnd, hArgs⟩
  refine ⟨?_, ?_, ?_, ?_, hArgs⟩
  · exact marks_of_leave hLeave
  · rw [hEnd.copyFname]
    exact copyFname_of_run hRun
  · rw [hEnd.debug]
    exact debug_of_run hRun
  · rw [hEnd.verbose]
    exact verbose_of_run hRun

/- `--color=red` -/
def sampleRedOption : CString :=
  ⟨asciiBytes "--color=red", by decide⟩

/- `errmark --color=red --mark=2:<:> ls` -/
def sampleSettings : List CString :=
  [sampleErrmark, sampleRedOption,
    ⟨asciiBytes "--mark=2:<:>", by decide⟩, sampleLs]

/- The marks override the color. -/
theorem sample_handed_over :
    ∃ s : MainState,
      mainBeforeRun sampleEnvironment sampleSettings =
          .leave s ∧
        HandedOver sampleSettings s ∧
        s.progress.marks =
          ⟨none, none, some [0x3c], some [0x3e]⟩ := by
  have hLeave :
      mainBeforeRun sampleEnvironment sampleSettings =
        .leave (mainBeforeRun sampleEnvironment
          sampleSettings).final :=
    Outcome.eq_leave_of_leaves (by decide +kernel)
  exact
    ⟨_, hLeave,
      handed_over sampleEnvironment sampleSettings hLeave,
      by decide +kernel⟩

end Errmark
