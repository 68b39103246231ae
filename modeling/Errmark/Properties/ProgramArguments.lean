import Mathlib.Data.List.Forall2
import Errmark.Properties.CommandContract
import Errmark.Properties.CommandLines

/-
  The arguments of the traced program.

  Once errmark has found the program, it does not look at
  the words after it, even if they look like options of its
  own. With other arguments it comes to the same settings,
  or to the same end, and executes the program with them.

  Key theorems include:
    * `readWords_append`
    * `arguments_opaque`
-/

------------------------------------------------------------
-- Words After The First Operand
------------------------------------------------------------

namespace Errmark

open Foundation

variable {table : OptionTable}

/- The operands are words of the command line. -/
theorem length_operands_le
    (table : OptionTable)
    (taken : Bool)
    (words : List CString) :
    (readWords table taken words).operands.length ≤
      words.length := by
  induction words generalizing taken with
  | nil => cases taken <;> exact Nat.le_refl 0
  | cons word words ih =>
      cases taken with
      | true => exact Nat.le_succ_of_le (ih false)
      | false =>
          rw [readWords_cons_eq]
          split_ifs
          · exact Nat.le_succ _
          · exact Nat.le_refl _
          · exact Nat.le_succ_of_le (ih _)
          · exact Nat.le_succ_of_le (ih _)

/-
  The words after the first operand are not looked at. The
  induction is on the words before it; it is itself the next
  word of an option, if need be.
-/
theorem readWords_append
    {taken : Bool}
    {words : List CString}
    {path : CString}
    {args : List CString}
    (hOperands :
      (readWords table taken
        (words ++ path :: args)).operands = path :: args)
    (args' : List CString) :
    (readWords table taken
        (words ++ path :: args')).met =
        (readWords table taken (words ++ path :: args)).met ∧
      (readWords table taken
        (words ++ path :: args')).operands =
          path :: args' := by
  have hShort :
      ∀ taken, (readWords table taken args).operands ≠
        path :: args := by
    intro taken hSame
    have hLength := length_operands_le table taken args
    rw [hSame, List.length_cons] at hLength
    omega
  induction words generalizing taken with
  | nil =>
      rw [List.nil_append] at hOperands
      rw [List.nil_append, List.nil_append]
      cases taken with
      | true => exact absurd hOperands (hShort false)
      | false =>
          rw [readWords_cons_eq] at hOperands
          rw [readWords_cons_eq, readWords_cons_eq]
          split_ifs at hOperands ⊢ with hDashes hOperand hLong
          · have hLength := congrArg List.length hOperands
            simp at hLength
          · exact ⟨rfl, rfl⟩
          · exact absurd hOperands (hShort _)
          · exact absurd hOperands (hShort _)
  | cons word words ih =>
      rw [List.cons_append] at hOperands
      rw [List.cons_append, List.cons_append]
      cases taken with
      | true => exact ih hOperands
      | false =>
          have hHead :
              (words ++ path :: args').head? =
                (words ++ path :: args).head? := by
            cases words <;> rfl
          rw [readWords_cons_eq] at hOperands
          rw [readWords_cons_eq, readWords_cons_eq, hHead]
          split_ifs at hOperands ⊢ with hDashes hOperand hLong
          · have hNil : words = [] := by
              have hLength := congrArg List.length hOperands
              simpa using hLength
            rw [hNil]
            exact ⟨rfl, rfl⟩
          · have hLength := congrArg List.length hOperands
            simp at hLength
            omega
          · rcases ih hOperands with ⟨hMet, hRest⟩
            simp only [CommandLine.prepend, hMet]
            exact ⟨trivial, hRest⟩
          · rcases ih hOperands with ⟨hMet, hRest⟩
            simp only [CommandLine.prepend, hMet]
            exact ⟨trivial, hRest⟩

end Errmark

------------------------------------------------------------
-- main
------------------------------------------------------------

namespace Errmark

open Foundation

/- Words of ASCII do not decide whether a buffer overruns. -/
theorem any_overruns_cons
    (path : CString)
    {args args' : List CString}
    (hAscii : ∀ arg ∈ args ++ args', arg.IsAscii) :
    (path :: args).any overruns =
      (path :: args').any overruns := by
  have hNone :
      ∀ words : List CString,
        (∀ word ∈ words, word.IsAscii) →
        words.any overruns = false := by
    intro words hWords
    rw [← Bool.not_eq_true, any_overruns_iff, not_not]
    exact hWords
  rw [List.any_cons, List.any_cons,
    hNone args fun arg hMem =>
      hAscii arg (List.mem_append_left _ hMem),
    hNone args' fun arg hMem =>
      hAscii arg (List.mem_append_right _ hMem)]

/-
  What `main` makes of two command lines that differ in the
  arguments of the program.
-/
structure SameButArguments
    (env : Environment)
    (front : List CString)
    (path : CString)
    (args args' : List CString) : Prop where
  settings :
    (mainBeforeRun env (front ++ path :: args)).Related
      (fun _ _ => False)
      (fun s s' => s.progress.Same s'.progress)
      (mainBeforeRun env (front ++ path :: args'))
  command :
    ∀ s : MainState,
      mainBeforeRun env (front ++ path :: args') =
        .leave s →
      (s.options (front ++ path :: args')).cmdPath =
          some path.text ∧
        (s.options (front ++ path :: args')).argv =
          (path :: args').map CString.text

/-
  Any arguments lead to the same settings. With `--verbose`
  errmark shows them, so they have to be of ASCII then.
-/
theorem arguments_opaque
    (env : Environment)
    {front : List CString}
    {path : CString}
    {args : List CString}
    (hCommand :
      (readLine (front ++ path :: args)).operands =
        path :: args)
    (args' : List CString)
    (hShown :
      (∃ m ∈ (readLine (front ++ path :: args)).met,
        m.meaning = .verbose ∨ m.meaning = .debug) →
      ∀ arg ∈ args ++ args', arg.IsAscii) :
    SameButArguments env front path args args' := by
  cases front with
  | nil =>
      have hLength :=
        length_operands_le optionTable false args
      have hReading :
          (readWords optionTable false args).operands =
            path :: args := hCommand
      rw [hReading, List.length_cons] at hLength
      omega
  | cons name words =>
      have hReading :
          (readWords optionTable false
            (words ++ path :: args)).operands =
              path :: args := hCommand
      rcases readWords_append hReading args' with
        ⟨hMet, hOperands⟩
      have hHead :
          (name :: words ++ path :: args).head? =
            (name :: words ++ path :: args').head? := rfl
      rcases initial_of_head env hHead with
        ⟨hInitial, hArgc⟩
      constructor
      · apply related_mainBeforeRun env hArgc
        · rw [← hInitial]
          have hReady :=
            ready_initial env (name :: words ++ path :: args)
          have hSameMet :
              (readLine (name :: words ++ path :: args')).met =
                (readLine
                  (name :: words ++ path :: args)).met :=
            hMet
          rw [hSameMet]
          apply related_obeyAll _ hReady hReady rfl rfl
          exact List.forall₂_same.mpr fun m _ => .same m
        · intro o hRun hFlags
          have hAscii :=
            hShown ((verbose_of_run hRun).mp hFlags)
          have hOther :
              (readLine
                (name :: words ++ path :: args')).operands =
                  path :: args' := hOperands
          rw [hCommand, hOther]
          exact any_overruns_cons path hAscii
      · intro s hLeave
        apply options_of_operands
        rcases exists_of_leave hLeave with
          ⟨_, _, _, hArgs⟩
        rw [hArgs]
        exact hOperands

/- `errmark --color=red`, and arguments like options. -/
def sampleColoredFront : List CString :=
  [sampleErrmark, sampleRedOption]

/- Arguments that look like options. -/
def sampleArguments : List CString :=
  [⟨asciiBytes "--", by decide⟩,
    ⟨asciiBytes "--color", by decide⟩]

/- The argument makes no difference. -/
theorem sample_arguments_opaque :
    SameButArguments sampleEnvironment sampleColoredFront
      sampleLs [] sampleArguments :=
  arguments_opaque sampleEnvironment (by decide +kernel)
    sampleArguments (by decide +kernel)

end Errmark
