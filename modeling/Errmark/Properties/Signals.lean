import Errmark.Tracee.Stops

/-
  The signals that reach the traced program.

  A program that stops because a signal is about to be
  delivered receives the signal only if it is passed along
  when the program is resumed. The loop resumes all stops
  with the same request, which passes none.

  Key definitions include:
    * `StopKind.injected`

  Key theorems include:
    * `resumes_of_run`
    * `signals_delivered_iff`
-/

------------------------------------------------------------
-- Resuming The Program
------------------------------------------------------------

namespace Errmark

open Foundation

variable {arch : Arch}

/-
  The `data` of the request that delivers the pending signal
  of a stop, or no signal where none is pending.
-/
def StopKind.injected
    (arch : Arch)
    (kind : StopKind) : arch.Word :=
  match kind.pending with
  | none => 0
  | some sig => BitVec.ofNat _ sig.number

/- A signal number is not lost in a register. -/
theorem injected_eq_zero_iff (kind : StopKind) :
    kind.injected arch = 0 ↔ kind.pending = none := by
  unfold StopKind.injected
  cases hPending : kind.pending with
  | none => simp
  | some sig =>
      have hWord :
          (BitVec.ofNat (8 * arch.wordBytes)
            sig.number).toNat = sig.number := by
        have hLt : 64 < 2 ^ (8 * arch.wordBytes) := by
          cases arch <;> decide
        rw [BitVec.toNat_ofNat]
        exact Nat.mod_eq_of_lt (lt_of_le_of_lt sig.le hLt)
      have hPos := sig.pos
      simp only [reduceCtorEq, iff_false]
      intro hZero
      rw [hZero] at hWord
      have hNil : (0 : arch.Word).toNat = 0 := by simp
      omega

/- Each turn of a run resumes the program without a signal. -/
theorem resumes_of_run
    {s s' : State arch}
    {turns : List (Turn arch)}
    (hRun : run iteration s turns = .next s') :
    resumesOf s'.requests =
      resumesOf s.requests ++
        List.replicate turns.length 0 := by
  induction turns generalizing s with
  | nil =>
      cases hRun
      simp
  | cons t turns ih =>
      rw [run_cons, Outcome.andThen_eq_next_iff] at hRun
      rcases hRun with ⟨mid, hFirst, hRest⟩
      rw [ih hRest, (steps_of_iteration hFirst).resumes,
        List.append_assoc]
      rfl

/-
  The signals passed along are those that were pending
  exactly when none was ever pending.
-/
theorem signals_delivered_iff
    (setup : Setup arch)
    (stops : List (Stop arch))
    (s : State arch)
    (hRun :
      setup.errmark (stops.map Stop.turn) = .next s) :
    resumesOf s.requests =
        stops.map (fun stop => stop.kind.injected arch) ↔
      ∀ stop ∈ stops, ¬ stop.IsSignal := by
  rw [Setup.errmark_eq, Outcome.onLeave_eq_next_iff,
    Outcome.onLeave_eq_next_iff] at hRun
  have hResumes := resumes_of_run hRun
  have hStart : resumesOf setup.begin.requests = [] := by
    unfold Setup.begin startTracing
    rfl
  rw [hResumes, hStart, List.nil_append, List.length_map,
    eq_comm, List.eq_replicate_iff, List.length_map]
  simp only [true_and, List.mem_map, forall_exists_index,
    and_imp, forall_apply_eq_imp_iff₂, Stop.IsSignal,
    not_not]
  exact
    forall₂_congr fun stop _ =>
      injected_eq_zero_iff stop.kind

/- `SIGCHLD` never reaches the program. -/
theorem sample_signal_dropped :
    ∃ s,
      (sampleSetup false).errmark
          (sampleSignalStops.map Stop.turn) = .next s ∧
        resumesOf s.requests ≠
          sampleSignalStops.map fun stop =>
            stop.kind.injected .x86_64 := by
  refine
    ⟨_, Outcome.eq_next_of_goesOn (by decide +kernel), ?_⟩
  decide +kernel

/- A run without signals, in which there are none to pass. -/
theorem sample_no_signal_delivered :
    resumesOf
        ((sampleSetup false).errmark
          ((sampleStops 1 1).map
            Stop.turn)).final.requests =
      (sampleStops 1 1).map fun stop =>
        stop.kind.injected .x86_64 :=
  (signals_delivered_iff (sampleSetup false)
    (sampleStops 1 1) _
    (Outcome.eq_next_of_goesOn (by decide +kernel))).mpr
    (by decide +kernel)

end Errmark
