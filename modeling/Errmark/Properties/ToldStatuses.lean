import Errmark.Properties.Explanations

/-
  What `--verbose` tells about the end of the program.

  The words for a wait status say how the program ended, and
  with which code or signal. They are never those for an
  internal error, and no two statuses that are reported have
  the same words, whatever the signals are called.

  Key definitions include:
    * `signalText`
    * `Report.told`

  Key theorems include:
    * `fshowWaitStatus_report`
    * `status_of_told`
    * `wait_status_told`
-/

------------------------------------------------------------
-- Words For Reports
------------------------------------------------------------

namespace Errmark

open Foundation

/- What is said about a signal. -/
def signalText
    (siglist : Nat → Option String)
    (sig : Signal) : String :=
  (decodeSignalR siglist 32 sig.number).getD ""

/- A buffer of 32 bytes holds the text of any signal. -/
theorem decodeSignalR_signal
    (siglist : Nat → Option String)
    (sig : Signal) :
    decodeSignalR siglist 32 sig.number =
      some (signalText siglist sig) := by
  have hLe := sig.le
  have hLength :
      (unlistedText sig.number).length ≤ 26 :=
    length_unlistedText_le (by omega)
  have hRoom :
      (unlistedText sig.number).length < 32 - 1 := by
    omega
  have hSome :
      ∃ text,
        decodeSignalR siglist 32 sig.number = some text :=
    decodeSignalR_of_room hRoom
  rcases hSome with ⟨text, hText⟩
  rw [signalText, hText, Option.getD_some]

/- What is said about a report, after the program's name. -/
def Report.told
    (siglist : Nat → Option String)
    (head : String) : Report → String
| .exited code =>
    head ++ "  exited, status=" ++ toString (code % 256) ++
      "\n"
| .killed sig core =>
    head ++ "  killed by signal " ++ toString sig.number ++
      " (" ++ signalText siglist sig ++ ")" ++
      (if core then " (core dumped)" else "") ++ "\n"
| .stopped sig =>
    head ++ "  stopped by signal " ++ toString sig.number ++
      " (" ++ signalText siglist sig ++ ")\n"

namespace Report

/- The word for an exit is a byte above an empty one. -/
theorem status_exited_eq (code : Int) :
    (Report.exited code).status =
      BitVec.ofNat 32 (code % 256).toNat <<< 8 := by
  rw [← BitVec.toNat_inj, toNat_status_exited,
    BitVec.toNat_shiftLeft, BitVec.toNat_ofNat,
    Nat.shiftLeft_eq]
  omega

/- What the macros say about an exit. -/
theorem macros_exited (code : Int) :
    wIfExited (Report.exited code).status = true ∧
      (wExitStatus (Report.exited code).status : Int) =
        code % 256 := by
  have hAll :
      ∀ n : Fin 256,
        wIfExited (BitVec.ofNat 32 n <<< 8) = true ∧
          wExitStatus (BitVec.ofNat 32 n <<< 8) = n := by
    decide +kernel
  have hLt : (code % 256).toNat < 256 := by omega
  rcases hAll ⟨(code % 256).toNat, hLt⟩ with
    ⟨hExited, hStatus⟩
  rw [status_exited_eq]
  refine ⟨hExited, ?_⟩
  rw [hStatus]
  simp only
  omega

/- What they say about a death by a signal. -/
theorem macros_killed
    (sig : Signal)
    (core : Bool) :
    wIfExited (Report.killed sig core).status = false ∧
      wIfSignaled (Report.killed sig core).status = true ∧
      wTermSig (Report.killed sig core).status =
        sig.number ∧
      wCoreDump (Report.killed sig core).status = core := by
  cases core
  · exact
      Signal.forall_of_fin
        (P := fun n =>
          wIfExited (BitVec.ofNat 32 n ||| 0) = false ∧
            wIfSignaled (BitVec.ofNat 32 n ||| 0) = true ∧
            wTermSig (BitVec.ofNat 32 n ||| 0) = n ∧
            wCoreDump (BitVec.ofNat 32 n ||| 0) = false)
        (by decide +kernel) sig
  · exact
      Signal.forall_of_fin
        (P := fun n =>
          wIfExited (BitVec.ofNat 32 n ||| 0x80) = false ∧
            wIfSignaled (BitVec.ofNat 32 n ||| 0x80) =
              true ∧
            wTermSig (BitVec.ofNat 32 n ||| 0x80) = n ∧
            wCoreDump (BitVec.ofNat 32 n ||| 0x80) = true)
        (by decide +kernel) sig

/- What they say about a stop. -/
theorem macros_stopped (sig : Signal) :
    wIfExited (Report.stopped sig).status = false ∧
      wIfSignaled (Report.stopped sig).status = false :=
  Signal.forall_of_fin
    (P := fun n =>
      wIfExited ((BitVec.ofNat 32 n <<< 8) ||| 0x7f) =
          false ∧
        wIfSignaled ((BitVec.ofNat 32 n <<< 8) ||| 0x7f) =
          false)
    (by decide +kernel) sig

end Report

/- Each status that is reported is put in words. -/
theorem fshowWaitStatus_report
    (siglist : Nat → Option String)
    (name : Option String)
    (r : Report) :
    fshowWaitStatus siglist name r.status =
      some
        (r.told siglist (name.getD "(null)" ++ " ...\n")) := by
  cases r with
  | exited code =>
      rcases Report.macros_exited code with
        ⟨hExited, hStatus⟩
      have hText :
          toString (wExitStatus (Report.exited code).status) =
            toString (code % 256) := by
        rw [← hStatus]
        rfl
      rw [fshowWaitStatus, if_pos hExited, hText,
        Report.told]
  | killed sig core =>
      rcases Report.macros_killed sig core with
        ⟨hExited, hSignaled, hTerm, hCore⟩
      rw [fshowWaitStatus, hExited, hSignaled, hTerm, hCore]
      simp only [Bool.false_eq_true, if_false, if_true,
        decodeSignalR_signal, Option.map_some, Report.told]
  | stopped sig =>
      rcases Report.macros_stopped sig with
        ⟨hExited, hSignaled⟩
      rw [fshowWaitStatus, hExited, hSignaled,
        Report.wIfStopped_stopped,
        Report.wStopSig_stopped]
      simp only [Bool.false_eq_true, if_false, if_true,
        decodeSignalR_signal, Option.map_some, Report.told]

end Errmark

------------------------------------------------------------
-- Telling Statuses Apart
------------------------------------------------------------

namespace Errmark

open Foundation

variable {siglist : Nat → Option String}
variable {head : String}

namespace Report

/- The characters of what is said about each kind. -/
theorem toList_told_exited (code : Int) :
    ((Report.exited code).told siglist head).toList =
      head.toList ++
        (' ' :: ' ' :: 'e' :: "xited, status=".toList ++
          ((toString (code % 256)).toList ++ '\n' :: [])) := by
  have hWords :
      "  exited, status=".toList =
        ' ' :: ' ' :: 'e' :: "xited, status=".toList := by
    decide
  have hEnd : "\n".toList = ['\n'] := by decide
  simp only [told, String.toList_append, hWords, hEnd,
    List.append_assoc]

/- The text of a death, down to its characters. -/
theorem toList_told_killed
    (sig : Signal)
    (core : Bool) :
    ((Report.killed sig core).told siglist head).toList =
      head.toList ++
        (' ' :: ' ' :: 'k' :: "illed by signal ".toList ++
          ((toString sig.number).toList ++
            ' ' :: ('(' :: (signalText siglist sig).toList ++
              (')' ::
                ((if core then " (core dumped)"
                  else "").toList ++ ['\n']))))) := by
  have hWords :
      "  killed by signal ".toList =
        ' ' :: ' ' :: 'k' :: "illed by signal ".toList := by
    decide
  have hOpen : " (".toList = [' ', '('] := by decide
  have hClose : ")".toList = [')'] := by decide
  have hEnd : "\n".toList = ['\n'] := by decide
  simp only [told, String.toList_append, hWords, hOpen,
    hClose, hEnd, List.append_assoc, List.cons_append,
    List.nil_append]

/- The text of a stop. -/
theorem toList_told_stopped (sig : Signal) :
    ((Report.stopped sig).told siglist head).toList =
      head.toList ++
        (' ' :: ' ' :: 's' :: "topped by signal ".toList ++
          ((toString sig.number).toList ++
            ' ' :: ('(' :: (signalText siglist sig).toList ++
              [')', '\n']))) := by
  have hWords :
      "  stopped by signal ".toList =
        ' ' :: ' ' :: 's' :: "topped by signal ".toList := by
    decide
  have hOpen : " (".toList = [' ', '('] := by decide
  have hClose : ")\n".toList = [')', '\n'] := by decide
  simp only [told, String.toList_append, hWords, hOpen,
    hClose, List.append_assoc, List.cons_append,
    List.nil_append]

end Report

/- A signal is known by its number. -/
theorem signal_of_number
    {sig sig' : Signal}
    (hNumber : (sig.number : Int) = sig'.number) :
    sig = sig' := by
  cases sig
  cases sig'
  simp only [Nat.cast_inj] at hNumber
  simp only [hNumber]

/- Whether there is a core is told by the length. -/
theorem core_of_told
    {core core' : Bool}
    (hSame :
      (if core then " (core dumped)" else "").toList ++
          ['\n'] =
        (if core' then " (core dumped)" else "").toList ++
          ['\n']) :
    core = core' := by
  cases core <;> cases core' <;>
    first
      | rfl
      | exact absurd hSame (by decide)

/- The first letter of what is said. -/
def Report.kind : Report → Char
| .exited _ => 'e'
| .killed _ _ => 'k'
| .stopped _ => 's'

/- The texts of different kinds differ. -/
theorem kind_of_told
    {r r' : Report}
    (hSame :
      r.told siglist head = r'.told siglist head) :
    r.kind = r'.kind := by
  have hLetter :
      ∀ r : Report, ∃ rest,
        (r.told siglist head).toList =
          head.toList ++ ' ' :: ' ' :: r.kind :: rest := by
    intro r
    cases r with
    | exited code => exact ⟨_, Report.toList_told_exited code⟩
    | killed sig core =>
        exact ⟨_, Report.toList_told_killed sig core⟩
    | stopped sig =>
        exact ⟨_, Report.toList_told_stopped sig⟩
  rcases hLetter r with ⟨rest, hFirst⟩
  rcases hLetter r' with ⟨rest', hSecond⟩
  rw [hSame, hSecond] at hFirst
  have hKind := List.append_cancel_left hFirst
  simp only [List.cons.injEq] at hKind
  exact hKind.2.2.1.symm

/- The exit code is told. -/
theorem exited_of_told
    {code code' : Int}
    (hSame :
      (Report.exited code).told siglist head =
        (Report.exited code').told siglist head) :
    code % 256 = code' % 256 := by
  have hList := congrArg String.toList hSame
  rw [Report.toList_told_exited, Report.toList_told_exited]
    at hList
  have hRest :=
    List.append_cancel_left (List.append_cancel_left hList)
  exact (numeral_append_inj (c := '\n') (by decide) hRest).1

/- So is the signal, and whether there is a core. -/
theorem killed_of_told
    {sig sig' : Signal}
    {core core' : Bool}
    (hSame :
      (Report.killed sig core).told siglist head =
        (Report.killed sig' core').told siglist head) :
    sig = sig' ∧ core = core' := by
  have hList := congrArg String.toList hSame
  rw [Report.toList_told_killed, Report.toList_told_killed]
    at hList
  have hRest :=
    List.append_cancel_left (List.append_cancel_left hList)
  rcases numeral_append_inj (a := sig.number)
    (b := sig'.number) (c := ' ') (by decide) hRest with
    ⟨hNumber, hAfter⟩
  have hSig := signal_of_number hNumber
  rw [hSig] at hAfter
  have hEnd := List.append_cancel_left hAfter
  rw [List.cons.injEq] at hEnd
  exact ⟨hSig, core_of_told hEnd.2⟩

/- So is the signal of a stop. -/
theorem stopped_of_told
    {sig sig' : Signal}
    (hSame :
      (Report.stopped sig).told siglist head =
        (Report.stopped sig').told siglist head) :
    sig = sig' := by
  have hList := congrArg String.toList hSame
  rw [Report.toList_told_stopped, Report.toList_told_stopped]
    at hList
  have hRest :=
    List.append_cancel_left (List.append_cancel_left hList)
  have hNumber :=
    (numeral_append_inj (a := sig.number) (b := sig'.number)
      (c := ' ') (by decide) hRest).1
  exact signal_of_number hNumber

/- The kind is told first, and then what belongs to it. -/
theorem status_of_told
    {r r' : Report}
    (hSame :
      r.told siglist head = r'.told siglist head) :
    r.status = r'.status := by
  have hKind := kind_of_told hSame
  cases r with
  | exited code =>
      cases r' with
      | exited code' =>
          rw [Report.status_exited_eq,
            Report.status_exited_eq, exited_of_told hSame]
      | killed sig core => simp [Report.kind] at hKind
      | stopped sig => simp [Report.kind] at hKind
  | killed sig core =>
      cases r' with
      | exited code => simp [Report.kind] at hKind
      | killed sig' core' =>
          rcases killed_of_told hSame with ⟨rfl, rfl⟩
          rfl
      | stopped sig => simp [Report.kind] at hKind
  | stopped sig =>
      cases r' with
      | exited code => simp [Report.kind] at hKind
      | killed sig' core => simp [Report.kind] at hKind
      | stopped sig' => rw [stopped_of_told hSame]

/-
  Every status that is reported is put in words, and two of
  them in the same words only if they are the same.
-/
theorem wait_status_told
    (siglist : Nat → Option String)
    (name : Option String)
    (r r' : Report) :
    (fshowWaitStatus siglist name r.status).isSome = true ∧
      (fshowWaitStatus siglist name r.status =
          fshowWaitStatus siglist name r'.status ↔
        r.status = r'.status) := by
  refine ⟨?_, ?_, ?_⟩
  · rw [fshowWaitStatus_report, Option.isSome_some]
  · intro hSame
    rw [fshowWaitStatus_report, fshowWaitStatus_report,
      Option.some.injEq] at hSame
    exact status_of_told hSame
  · intro hStatus
    rw [hStatus]

end Errmark
