import Mathlib.Data.Nat.Basic

/-
  Status words of `wait(2)` and the macros of <sys/wait.h>.

  `Report` is what the kernel has to tell about a child;
  `Report.status` is the word it stores for it. The macros
  read such a word as the source does.

  Key definitions include:
    * `Signal`
    * `Report`
    * `Report.status`
    * `wIfStopped`
    * `wStopSig`
    * `exitCode`

  Key theorems include:
    * `Report.wStopSig_stopped`
    * `Report.status_killed`
    * `Report.status_exited_eq_zero_iff`
    * `Report.exitCode_status_exited`
    * `Report.exitCode_status_stopped`
-/

------------------------------------------------------------
-- Signals And Reports
------------------------------------------------------------

namespace Errmark

/- A C `int`. -/
abbrev CInt : Type := BitVec 32

/- A signal number of Linux. -/
structure Signal where
  number : Nat
  pos : 0 < number
  le : number ≤ 64
  deriving DecidableEq, Repr

namespace Signal

/- SIGTRAP, by which a traced process stops. -/
def trap : Signal := ⟨5, by decide, by decide⟩

/- SIGCHLD, by which a process hears of its children. -/
def chld : Signal := ⟨17, by decide, by decide⟩

/- The two signals whose stops `ptrace_cmd` goes on from. -/
def Expected (sig : Signal) : Prop :=
  sig = trap ∨ sig = chld

instance (sig : Signal) : Decidable sig.Expected := by
  unfold Expected
  infer_instance

end Signal

/- What `wait` can report about the child. -/
inductive Report where
  | exited (code : Int)
  | killed (sig : Signal) (core : Bool)
  | stopped (sig : Signal)
  deriving DecidableEq, Repr

namespace Report

/-
  The status word: `exit` keeps the low eight bits of its
  argument, a core dump sets the bit above the signal, and
  a stop marks its low byte with 0x7f.
-/
def status : Report → CInt
| .exited code =>
    (BitVec.ofInt 32 code &&& 0xff) <<< 8
| .killed sig core =>
    BitVec.ofNat 32 sig.number |||
      if core then 0x80 else 0
| .stopped sig =>
    (BitVec.ofNat 32 sig.number <<< 8) ||| 0x7f

end Report

/- `WIFSTOPPED` -/
def wIfStopped (status : CInt) : Bool :=
  status &&& 0xff = 0x7f

/- `WSTOPSIG` -/
def wStopSig (status : CInt) : Nat :=
  ((status &&& 0xff00).sshiftRight 8).toNat

/-
  The exit code of a process that calls
  `exit(status >> 8)`.
-/
def exitCode (status : CInt) : Nat :=
  (status.sshiftRight 8 &&& 0xff).toNat

end Errmark

------------------------------------------------------------
-- Reading Status Words
------------------------------------------------------------

namespace Errmark

namespace Signal

/- A property of all signals is checked number by number. -/
theorem forall_of_fin
    {P : Nat → Prop}
    (hAll : ∀ n : Fin 65, 0 < n.val → P n)
    (sig : Signal) :
    P sig.number := by
  have hLt : sig.number < 65 := Nat.lt_succ_of_le sig.le
  exact hAll ⟨sig.number, hLt⟩ sig.pos

end Signal

namespace Report

/- `WIFSTOPPED` knows a stop. -/
@[simp] theorem wIfStopped_stopped (sig : Signal) :
    wIfStopped (Report.stopped sig).status = true :=
  Signal.forall_of_fin
    (P := fun n =>
      wIfStopped ((BitVec.ofNat 32 n <<< 8) ||| 0x7f) =
        true)
    (by decide) sig

/- `WSTOPSIG` knows its signal. -/
@[simp] theorem wStopSig_stopped (sig : Signal) :
    wStopSig (Report.stopped sig).status = sig.number :=
  Signal.forall_of_fin
    (P := fun n =>
      wStopSig ((BitVec.ofNat 32 n <<< 8) ||| 0x7f) = n)
    (by decide) sig

/- `main` reports a stop signal as if it were an exit code. -/
theorem exitCode_status_stopped (sig : Signal) :
    exitCode (Report.stopped sig).status = sig.number :=
  Signal.forall_of_fin
    (P := fun n =>
      exitCode ((BitVec.ofNat 32 n <<< 8) ||| 0x7f) = n)
    (by decide) sig

/-
  What the macros and the shift in `main` make of a killed
  child: the word is not zero and not a stop, and its upper
  bytes hold nothing.
-/
theorem status_killed
    (sig : Signal)
    (core : Bool) :
    (Report.killed sig core).status ≠ 0 ∧
      wIfStopped (Report.killed sig core).status = false ∧
      exitCode (Report.killed sig core).status = 0 := by
  cases core
  · exact
      Signal.forall_of_fin
        (P := fun n =>
          BitVec.ofNat 32 n ||| 0 ≠ 0 ∧
            wIfStopped (BitVec.ofNat 32 n ||| 0) = false ∧
            exitCode (BitVec.ofNat 32 n ||| 0) = 0)
        (by decide) sig
  · exact
      Signal.forall_of_fin
        (P := fun n =>
          BitVec.ofNat 32 n ||| 0x80 ≠ 0 ∧
            wIfStopped (BitVec.ofNat 32 n ||| 0x80) =
              false ∧
            exitCode (BitVec.ofNat 32 n ||| 0x80) = 0)
        (by decide) sig

/- The low byte of an `int`, as a number. -/
theorem toNat_and_byte (x : CInt) :
    (x &&& 0xff).toNat = x.toNat % 256 := by
  rw [BitVec.toNat_and]
  exact Nat.and_two_pow_sub_one_eq_mod x.toNat 8

/- An exit code is in the second byte of a status. -/
theorem toNat_status_exited (code : Int) :
    (Report.exited code).status.toNat =
      (code % 256).toNat * 256 := by
  have hByte :
      (BitVec.ofInt 32 code).toNat % 256 =
        (code % 256).toNat := by
    rw [BitVec.toNat_ofInt]
    omega
  have hLt : (code % 256).toNat < 256 := by omega
  rw [status, BitVec.toNat_shiftLeft, toNat_and_byte,
    hByte, Nat.shiftLeft_eq]
  omega

/- An exit is not taken for a stop. -/
@[simp] theorem wIfStopped_exited (code : Int) :
    wIfStopped (Report.exited code).status = false := by
  have hByte :
      ((Report.exited code).status &&& 0xff).toNat = 0 := by
    rw [toNat_and_byte, toNat_status_exited]
    omega
  have hNe : (Report.exited code).status &&& 0xff ≠ 0x7f := by
    intro hEq
    rw [hEq] at hByte
    simp at hByte
  simpa [wIfStopped] using hNe

/- A clean exit leaves the word that `wait` starts from. -/
theorem status_exited_eq_zero_iff (code : Int) :
    (Report.exited code).status = 0 ↔ code % 256 = 0 := by
  rw [← BitVec.toNat_inj, toNat_status_exited]
  simp
  omega

/- The shift in `main` recovers what the child passed. -/
theorem exitCode_status_exited (code : Int) :
    (exitCode (Report.exited code).status : Int) =
      code % 256 := by
  have hNat := toNat_status_exited code
  have hLt : (code % 256).toNat < 256 := by omega
  have hMsb : (Report.exited code).status.msb = false := by
    rw [BitVec.msb_eq_false_iff_two_mul_lt, hNat]
    omega
  rw [exitCode, toNat_and_byte,
    BitVec.sshiftRight_eq_of_msb_false hMsb,
    BitVec.toNat_ushiftRight, hNat, Nat.shiftRight_eq_div_pow]
  omega

end Report

/- No word is stored when there is no child to wait for. -/
@[simp] theorem wIfStopped_zero :
    wIfStopped 0 = false := by
  decide

end Errmark
