import Errmark.Program.Emission
import Errmark.Tracee.Tracking

/-
  What a program sees of one of its intercepted writes.

  A visit is one watched write of a run without signals: its
  entry and its exit, with the states errmark goes through.
  The register file the program is resumed with after the
  exit is the one of the exit stop, with the result replaced
  by the length it asked for.

  Key definitions include:
    * `Visit`
    * `Visit.result`
    * `Visit.bytesRead`

  Key theorems include:
    * `Visit.childRegs_atExit`
    * `Visit.childRegs_after`
    * `registers_restored_iff`
    * `result_truthful_iff`
-/

------------------------------------------------------------
-- One Intercepted Write
------------------------------------------------------------

namespace Errmark

open Foundation

variable {arch : Arch}
variable {setup : Setup arch}

/- A watched write in a run of system calls. -/
structure Visit (setup : Setup arch) where
  before : List (Stop arch)
  entry : Stop arch
  exit : Stop arch
  admitted :
    Admitted .starting (before ++ [entry, exit])
  callsOnly : ∀ stop ∈ before, ¬ stop.IsSignal
  enters : entry.EntersWrite
  atEntry : State arch
  atExit : State arch
  after : State arch
  run_before :
    run iteration setup.begin (before.map Stop.turn) =
      .next atEntry
  step_entry : iteration atEntry entry.turn = .next atExit
  step_exit : iteration atExit exit.turn = .next after

namespace Visit

variable (visit : Visit setup)

/- The write the program asks for. -/
def write : Write arch :=
  visit.entry.regs.write

/- What the kernel makes of the nullified write. -/
def kernelResult : arch.Word :=
  visit.exit.regs arch.regRetn

/- What the program finds in the return register. -/
def result : arch.Word :=
  visit.after.childRegs arch.regRetn

/- The bytes handed to stdout at the entry of the write. -/
def emitted : List OutByte :=
  visit.atExit.stdoutBytes.drop
    visit.atEntry.stdoutBytes.length

/- How many of them were read from the program. -/
def bytesRead : Nat :=
  (visit.emitted.filter OutByte.isRead).length

/- The entry of a visit is no signal. -/
theorem entry_not_signal : visit.entry.IsQuiet := by
  intro hSignal
  simp [Stop.IsSignal, StopKind.pending, visit.enters.1]
    at hSignal

/- The program may stop there. -/
theorem allows_entry :
    (Phase.starting.afterAll visit.before).Allows
      visit.entry :=
  (admitted_append_iff.mp visit.admitted).2.1

/- errmark has followed it so far. -/
theorem tracks_entry :
    Tracks visit.atEntry
      (Phase.starting.afterAll visit.before) := by
  apply tracks_of_run (tracks_begin setup)
    (admitted_append_iff.mp visit.admitted).1 _
    visit.run_before
  intro stop hMem hSignal
  exact absurd hSignal (visit.callsOnly stop hMem)

/- Nullification is not switched off. -/
theorem nullify_atEntry :
    visit.atEntry.cmd.nullify = true :=
  (sameOptions_of_run visit.run_before).nullify

/- Nor is it at the exit. -/
theorem nullify_atExit :
    visit.atExit.cmd.nullify = true := by
  rw [(steps_of_iteration
    visit.step_entry).sameOptions.nullify]
  exact visit.nullify_atEntry

/- Between its two stops the program is inside the write. -/
theorem tracks_exit :
    Tracks visit.atExit (.inside visit.entry.regs) := by
  have hTracks :=
    visit.tracks_entry.step visit.allows_entry
      visit.entry_not_signal visit.step_entry
  have hPhase :
      (Phase.starting.afterAll visit.before).after
          visit.entry =
        .inside visit.entry.regs := by
    simp [Phase.after, visit.enters.1]
  rw [hPhase] at hTracks
  exact hTracks

/- The program may stop at the exit of the write. -/
theorem allows_exit :
    (Phase.inside visit.entry.regs).Allows visit.exit := by
  have hAllows :=
    (admitted_append_iff.mp visit.admitted).2.2.1
  have hPhase :
      (Phase.starting.afterAll visit.before).after
          visit.entry =
        .inside visit.entry.regs := by
    simp [Phase.after, visit.enters.1]
  rw [hPhase] at hAllows
  exact hAllows

/- The only stop that may follow the entry is the exit. -/
theorem exit_kind : visit.exit.kind = .exit :=
  visit.allows_exit.kind_of_inside

/- This is no signal, either. -/
theorem exit_not_signal : visit.exit.IsQuiet := by
  intro hSignal
  simp [Stop.IsSignal, StopKind.pending, visit.exit_kind]
    at hSignal

/- The kernel is handed the write with a length of 0. -/
theorem childRegs_atExit :
    visit.atExit.childRegs =
      visit.entry.regs.set arch.regArg3 0 := by
  rcases visit.allows_entry.of_entry visit.enters.1 with
    ⟨last, hOutside⟩
  rw [visit.tracks_entry.childRegs visit.allows_entry
    visit.entry_not_signal visit.nullify_atEntry
    visit.step_entry]
  simp [hOutside, Phase.resumedRegs, visit.enters,
    visit.enters.1]

/- The program is handed the length it asked for. -/
theorem childRegs_after :
    visit.after.childRegs =
      visit.exit.regs.set arch.regRetn visit.write.len := by
  have hWatched :
      visit.entry.regs.ShowsWrite ∧
        visit.entry.regs.write.Watched :=
    visit.enters.2
  rw [visit.tracks_exit.childRegs visit.allows_exit
    visit.exit_not_signal visit.nullify_atExit
    visit.step_exit]
  simp [Phase.resumedRegs, visit.exit_kind, hWatched,
    write]

/- The result is the length the program asked for. -/
theorem result_eq : visit.result = visit.write.len := by
  rw [result, childRegs_after, Regs.set_same]

/- What errmark emits for the write. -/
theorem emitted_eq :
    visit.emitted =
      visit.write.emitted visit.atEntry.cmd.copyFh
        visit.entry.turn := by
  have hBytes :=
    visit.tracks_entry.stdoutBytes visit.allows_entry
      visit.entry_not_signal visit.step_entry
  rw [emitted, hBytes, List.drop_left, Stop.ownBytes,
    if_pos visit.enters]
  rfl

/- What was read for the write was emitted. -/
theorem bytesRead_eq :
    visit.bytesRead =
      (visit.write.reading
        visit.entry.memory).bytes.length := by
  have hGoesOn :=
    (visit.tracks_entry.goes_on_iff visit.allows_entry
      visit.entry_not_signal).mp ⟨_, visit.step_entry⟩
  have hRoom :
      visit.write.IsCopied visit.atEntry.cmd.copyFh →
        visit.entry.turn.malloc.isSome :=
    hGoesOn.2 visit.enters
  rw [bytesRead, emitted_eq,
    visit.write.read_of_emitted hRoom,
    Write.length_streamed]
  rfl

end Visit

/- The first write of a program, from a buffer it cannot read. -/
def sampleEntry : Stop .x86_64 :=
  sampleWrite .entry 1 5 (-38) (some Errno.EIO)

/- The exit of the sample write. -/
def sampleExit : Stop .x86_64 :=
  sampleWrite .exit 1 0 0 (some Errno.EIO)

/- errmark at its entry. -/
def sampleAtEntry : State .x86_64 :=
  (run iteration (sampleSetup false).begin
    ([sampleExec].map Stop.turn)).final

/- errmark at its exit. -/
def sampleAtExit : State .x86_64 :=
  (iteration sampleAtEntry sampleEntry.turn).final

/- A write of which no byte can be read. -/
def sampleVisit : Visit (sampleSetup false) where
  before := [sampleExec]
  entry := sampleEntry
  exit := sampleExit
  admitted := by decide +kernel
  callsOnly := by decide +kernel
  enters := by decide +kernel
  atEntry := sampleAtEntry
  atExit := sampleAtExit
  after := (iteration sampleAtExit sampleExit.turn).final
  run_before :=
    Outcome.eq_next_of_goesOn (by decide +kernel)
  step_entry :=
    Outcome.eq_next_of_goesOn (by decide +kernel)
  step_exit :=
    Outcome.eq_next_of_goesOn (by decide +kernel)

end Errmark

------------------------------------------------------------
-- Registers
------------------------------------------------------------

namespace Errmark

variable {arch : Arch}

/-
  After a write the program finds its registers as it left
  them exactly when it asked to write nothing: the length
  that was set to 0 for the kernel stays 0.
-/
theorem registers_restored_iff
    (setup : Setup arch)
    (visit : Visit setup)
    (hKernel :
      ∀ reg, reg ∉ arch.clobbered →
        visit.exit.regs reg =
          visit.atExit.childRegs reg) :
    (∀ reg, reg ∉ arch.clobbered →
        visit.after.childRegs reg =
          visit.entry.regs reg) ↔
      visit.write.len = 0 := by
  have hKept :
      ∀ reg, reg ∉ arch.clobbered →
        visit.after.childRegs reg =
          visit.entry.regs.set arch.regArg3 0 reg := by
    intro reg hReg
    have hRetn : reg ≠ arch.regRetn := by
      intro hEq
      rw [hEq] at hReg
      exact hReg arch.regRetn_mem_clobbered
    rw [visit.childRegs_after, Regs.set_of_ne _ _ hRetn,
      hKernel reg hReg, visit.childRegs_atExit]
  have hLen : visit.write.len =
      visit.entry.regs arch.regArg3 := rfl
  constructor
  · intro hAll
    have hArg := arch.regArg3_not_mem_clobbered
    rw [hLen, ← hAll arch.regArg3 hArg,
      hKept arch.regArg3 hArg, Regs.set_same]
  · intro hZero reg hReg
    rw [hKept reg hReg]
    have hSame :=
      visit.entry.regs.set_eq_self arch.regArg3
    rw [← hLen, hZero] at hSame
    rw [hSame]

/- The sample kernel changes the return register only. -/
theorem sample_kernel_preserves :
    ∀ reg, reg ∉ Arch.x86_64.clobbered →
      sampleVisit.exit.regs reg =
        sampleVisit.atExit.childRegs reg := by
  intro reg hReg
  rw [sampleVisit.childRegs_atExit]
  exact Regs.ofCall_nullified 1 1 4096 5 (-38) 0 hReg

/- The program asked for 5 bytes and finds 0 in `rdx`. -/
theorem sample_registers_not_restored :
    ¬ ∀ reg, reg ∉ Arch.x86_64.clobbered →
      sampleVisit.after.childRegs reg =
        sampleVisit.entry.regs reg := by
  intro hAll
  have hArg :=
    hAll Arch.x86_64.regArg3
      Arch.x86_64.regArg3_not_mem_clobbered
  revert hArg
  decide +kernel

/- The sample write is not an empty one. -/
theorem sample_registers_restored_iff :
    (∀ reg, reg ∉ Arch.x86_64.clobbered →
        sampleVisit.after.childRegs reg =
          sampleVisit.entry.regs reg) ↔
      sampleVisit.write.len = 0 :=
  registers_restored_iff (sampleSetup false) sampleVisit
    sample_kernel_preserves

end Errmark

------------------------------------------------------------
-- Results
------------------------------------------------------------

namespace Errmark

open Foundation

variable {arch : Arch}

/- A system call returns a negated error number. -/
def IsError (result : arch.Word) : Prop :=
  -4095 ≤ result.toInt ∧ result.toInt ≤ -1

instance (result : arch.Word) :
    Decidable (IsError result) := by
  unfold IsError
  infer_instance

/- A positive length is only honoured by a full reading. -/
theorem len_le_bytesRead_iff
    {setup : Setup arch}
    (visit : Visit setup) :
    visit.write.len.toInt ≤ visit.bytesRead ↔
      visit.write.len.toInt ≤ 0 ∨
        visit.write.Readable visit.entry.memory := by
  have hLe :=
    visit.write.length_reading_le visit.entry.memory
  rw [visit.bytesRead_eq]
  by_cases hSmall : visit.write.len.toInt ≤ 0
  · simp only [hSmall, true_or, iff_true]
    omega
  · have hNat : visit.write.len.toInt =
        visit.write.len.toNat := by
      rw [BitVec.toInt_eq_toNat_cond] at hSmall ⊢
      split at hSmall
      · next hHalf => rw [if_pos hHalf]
      · omega
    have hNonzero : visit.write.len ≠ 0 := by
      intro hZero
      rw [hZero] at hSmall
      simp at hSmall
    have hIff :=
      visit.write.length_reading_eq_iff visit.entry.memory
    simp only [Write.IsWhole, hNonzero, false_or] at hIff
    simp only [hSmall, false_or]
    rw [hNat, ← hIff]
    omega

/-
  The result the program sees is true exactly when its
  buffer could be read as far as it claims, and an error of
  the kernel was by chance the same word as the length.
-/
theorem result_truthful_iff
    (setup : Setup arch)
    (visit : Visit setup) :
    (visit.result.toInt ≤ visit.bytesRead ∧
        (IsError visit.kernelResult →
          visit.result = visit.kernelResult)) ↔
      ((visit.write.len.toInt ≤ 0 ∨
          visit.write.Readable visit.entry.memory) ∧
        (IsError visit.kernelResult →
          visit.write.len = visit.kernelResult)) := by
  rw [visit.result_eq, len_le_bytesRead_iff]

/- Nothing could be read, and 5 bytes are claimed. -/
theorem sample_result_not_truthful :
    ¬ (sampleVisit.result.toInt ≤ sampleVisit.bytesRead ∧
      (IsError sampleVisit.kernelResult →
        sampleVisit.result =
          sampleVisit.kernelResult)) := by
  rintro ⟨hClaim, _⟩
  revert hClaim
  decide +kernel

/- The entry and the exit of the same write, but readable. -/
def sampleReadEntry : Stop .x86_64 :=
  sampleWrite .entry 1 5 (-38) none

/- The exit of a write that can be read. -/
def sampleReadExit : Stop .x86_64 :=
  sampleWrite .exit 1 0 0 none

/- The state in which the program makes the nullified write. -/
def sampleAtReadExit : State .x86_64 :=
  (iteration sampleAtEntry sampleReadEntry.turn).final

/- The same write, from a buffer that can be read. -/
def sampleReadVisit : Visit (sampleSetup false) where
  before := [sampleExec]
  entry := sampleReadEntry
  exit := sampleReadExit
  admitted := by decide +kernel
  callsOnly := by decide +kernel
  enters := by decide +kernel
  atEntry := sampleAtEntry
  atExit := sampleAtReadExit
  after :=
    (iteration sampleAtReadExit sampleReadExit.turn).final
  run_before :=
    Outcome.eq_next_of_goesOn (by decide +kernel)
  step_entry :=
    Outcome.eq_next_of_goesOn (by decide +kernel)
  step_exit :=
    Outcome.eq_next_of_goesOn (by decide +kernel)

/- The 5 bytes that are claimed were read. -/
theorem sample_result_truthful :
    sampleReadVisit.result.toInt ≤
        sampleReadVisit.bytesRead ∧
      (IsError sampleReadVisit.kernelResult →
        sampleReadVisit.result =
          sampleReadVisit.kernelResult) :=
  (result_truthful_iff (sampleSetup false)
    sampleReadVisit).mpr (by decide +kernel)

end Errmark
