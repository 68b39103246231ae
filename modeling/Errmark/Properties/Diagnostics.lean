import Errmark.Properties.Startup

/-
  Which calls of `main` find the stream they write to.

  `dbgprint_fh` is never set, so the first option that is
  met after `--debug` writes through NULL. All other calls
  find their streams.

  Key definitions include:
    * `AllTaken`
    * `DebugFollowed`

  Key theorems include:
    * `debugFollowed_cons_iff`
    * `allSet_obeyAll_iff`
    * `diagnostics_find_streams_iff`
-/

------------------------------------------------------------
-- Options Before Others
------------------------------------------------------------

namespace Errmark

/-
  None of some options ends errmark, given `verbose` and the
  number of errors so far.
-/
def AllTaken : Bool → Nat → List Met → Prop
| _, _, [] => True
| verbose, errors, m :: ms =>
    errors ≤ 10 ∧ ¬ m.meaning.Stops verbose ∧
      AllTaken (verbose || m.meaning = .verbose)
        (errors + m.meaning.errors) ms

/-
  `debug` is set by an option that errmark gets to, and that
  is not the last one.
-/
def DebugFollowed
    (verbose : Bool)
    (errors : Nat)
    (ms : List Met) : Prop :=
  ∃ before m next after,
    ms = before ++ m :: next :: after ∧
      m.meaning = .debug ∧
      AllTaken verbose errors (before ++ [m])

/- No option follows where there is none. -/
theorem not_debugFollowed_nil
    (verbose : Bool)
    (errors : Nat) :
    ¬ DebugFollowed verbose errors [] := by
  rintro ⟨before, m, next, after, hSplit, _⟩
  simp at hSplit

/- The first option is the one, or comes before it. -/
theorem debugFollowed_cons_iff
    (verbose : Bool)
    (errors : Nat)
    (m : Met)
    (ms : List Met) :
    DebugFollowed verbose errors (m :: ms) ↔
      errors ≤ 10 ∧ ¬ m.meaning.Stops verbose ∧
        ((m.meaning = .debug ∧ ms ≠ []) ∨
          DebugFollowed (verbose || m.meaning = .verbose)
            (errors + m.meaning.errors) ms) := by
  constructor
  · rintro
      ⟨before, m', next, after, hSplit, hDebug, hTaken⟩
    cases before with
    | nil =>
        rw [List.nil_append, List.cons.injEq] at hSplit
        rcases hSplit with ⟨rfl, rfl⟩
        exact ⟨hTaken.1, hTaken.2.1,
          Or.inl ⟨hDebug, List.cons_ne_nil _ _⟩⟩
    | cons first before =>
        rw [List.cons_append, List.cons.injEq] at hSplit
        rcases hSplit with ⟨rfl, hSplit⟩
        exact ⟨hTaken.1, hTaken.2.1,
          Or.inr ⟨before, m', next, after, hSplit, hDebug,
            hTaken.2.2⟩⟩
  · rintro ⟨hFew, hNot, ⟨hDebug, hMore⟩ | hRest⟩
    · rcases List.exists_cons_of_ne_nil hMore with
        ⟨next, after, rfl⟩
      exact ⟨[], m, next, after, rfl, hDebug, hFew, hNot,
        trivial⟩
    · rcases hRest with
        ⟨before, m', next, after, rfl, hDebug, hTaken⟩
      exact ⟨m :: before, m', next, after, rfl, hDebug,
        hFew, hNot, hTaken⟩

end Errmark

------------------------------------------------------------
-- Calls In The Loop
------------------------------------------------------------

namespace Errmark

open Foundation

/- The option after the one that sets `debug` goes wrong. -/
theorem obeyAll_of_debug
    {o : Progress}
    (hReady : o.Ready)
    (hDebug : o.debug = true)
    (hFew : o.errCount ≤ 10)
    (ms : List Met) :
    AllSet (obeyAll o ms).final.prints ↔ ms = [] := by
  cases ms with
  | nil =>
      rcases obeyEnd_cases hReady with
        ⟨o', hEnd, hReady', _⟩
      rw [obeyAll, run_nil, Outcome.next_andThen, hEnd]
      exact iff_of_true hReady'.prints rfl
  | cons m ms =>
      rw [obeyAll_cons]
      rcases obey_cases hReady m with
        ⟨hMany, _⟩ | ⟨_, _, o', hObey, hUnset⟩ |
          ⟨_, hNoDebug, _⟩ | ⟨_, hNoDebug, _⟩
      · omega
      · rw [hObey, Outcome.halt_andThen]
        exact iff_of_false hUnset (List.cons_ne_nil m ms)
      · simp [hDebug] at hNoDebug
      · simp [hDebug] at hNoDebug

/- A stream is missing if something follows `--debug`. -/
theorem allSet_obeyAll_iff
    {o : Progress}
    (hReady : o.Ready)
    (hNoDebug : o.debug = false)
    (ms : List Met) :
    AllSet (obeyAll o ms).final.prints ↔
      ¬ DebugFollowed o.verbose o.errCount ms := by
  induction ms generalizing o with
  | nil =>
      rcases obeyEnd_cases hReady with
        ⟨o', hEnd, hReady', _⟩
      rw [obeyAll, run_nil, Outcome.next_andThen, hEnd]
      exact iff_of_true hReady'.prints
        (not_debugFollowed_nil _ _)
  | cons m ms ih =>
      rw [obeyAll_cons, debugFollowed_cons_iff]
      rcases obey_cases hReady m with
        ⟨hMany, o', hObey, hReady', _⟩ | ⟨_, hDebug, _⟩ |
          ⟨_, _, hStops, hEnds⟩ |
          ⟨hFew, _, hNot, o', hObey, hTaken⟩
      · rw [hObey, Outcome.leave_andThen]
        refine iff_of_true hReady'.prints ?_
        rintro ⟨hFew, _⟩
        omega
      · simp [hNoDebug] at hDebug
      · rcases hEnds.halts with ⟨cause, hHalt⟩
        rw [hHalt, Outcome.halt_andThen]
        refine iff_of_true hEnds.prints ?_
        exact fun hAll => hAll.2.1 hStops
      · rw [hObey, Outcome.next_andThen]
        by_cases hMeans : m.meaning = .debug
        · have hDebug : o'.debug = true := by
            simp [hTaken.debug, hMeans]
          have hFew' : o'.errCount ≤ 10 := by
            simpa [hTaken.errCount, hMeans] using hFew
          rw [obeyAll_of_debug hTaken.ready hDebug hFew']
          constructor
          · rintro rfl ⟨_, _, ⟨_, hMore⟩ | hRest⟩
            · exact hMore rfl
            · exact not_debugFollowed_nil _ _ hRest
          · intro hNone
            by_contra hMore
            exact hNone
              ⟨hFew, hNot, Or.inl ⟨hMeans, hMore⟩⟩
        · have hDebug : o'.debug = false := by
            simp [hTaken.debug, hNoDebug, hMeans]
          rw [ih hTaken.ready hDebug, hTaken.verbose,
            hTaken.errCount]
          simp only [hFew, hNot, hMeans, not_false_eq_true,
            false_and, false_or, true_and]

end Errmark

------------------------------------------------------------
-- Calls Of main
------------------------------------------------------------

namespace Errmark

open Foundation

/-
  Every call finds its stream if and only if `main` gets to
  no option after one that sets `debug`.
-/
theorem diagnostics_find_streams_iff
    (env : Environment)
    (argv : List CString) :
    AllSet (mainBeforeRun env argv).final.progress.prints ↔
      ¬ DebugFollowed false 0 (readLine argv).met := by
  have hReady := ready_initial env argv
  have hLoop :=
    allSet_obeyAll_iff hReady rfl (readLine argv).met
  rcases mainBeforeRun_cases env argv with
    ⟨cause, s, hAll, hMain⟩ |
      ⟨s, hAll, hReady', hMain, _⟩
  · rw [hAll] at hLoop
    rw [hMain]
    exact hLoop
  · rw [hAll] at hLoop
    rw [hMain, Outcome.map_final]
    refine iff_of_true ?_ (hLoop.mp hReady'.prints)
    rcases prepareCommand_cases hReady' env argv
        (argv.drop s.getopt.optind) with
      ⟨_, o', hLeave, hPrints⟩ |
        ⟨_, cause, o', hHalt, hPrints, _⟩
    · rw [hLeave]
      exact hPrints
    · rw [hHalt]
      exact hPrints

/- `errmark -d -v ls` -/
def sampleDebugFirst : List CString :=
  [sampleErrmark, ⟨asciiBytes "-d", by decide⟩,
    ⟨asciiBytes "-v", by decide⟩, sampleLs]

/- What `-v` is shown as goes to NULL. -/
theorem sample_stream_unset :
    ⟨.dbgprintFh, none, .text (asciiBytes "optc=0x76")⟩ ∈
        (mainBeforeRun sampleEnvironment
          sampleDebugFirst).final.progress.prints ∧
      ¬ ∀ env argv,
        AllSet
          (mainBeforeRun env argv).final.progress.prints := by
  have hPrint :
      ⟨.dbgprintFh, none, .text (asciiBytes "optc=0x76")⟩ ∈
        (mainBeforeRun sampleEnvironment
          sampleDebugFirst).final.progress.prints := by
    decide +kernel
  refine ⟨hPrint, ?_⟩
  intro hAll
  exact hAll _ _ _ hPrint rfl

end Errmark
