import Errmark.Program.Emission
import Errmark.Tracee.Stops

/-
  What a program computes with, and how much two programs
  have in common.

  An image is a register file and a memory. Between two
  calls a program relies on no register that a call may
  change; in a call it passes the arguments that the call
  has. errmark changes one argument of a write, and the
  result, and only those: after it, images are similar but
  need not agree.

  Key definitions include:
    * `Arch.scratch`
    * `Image.Similar`
    * `Image.Agrees`
    * `Image.SameCall`
    * `Image.nullified`

  Key theorems include:
    * `Image.SameCall.entersWrite_iff`
    * `Image.SameCall.writes_eq`
    * `Image.Taken.similar`
-/

------------------------------------------------------------
-- Images
------------------------------------------------------------

namespace Errmark

/-
  The registers a traced program cannot rely on after a
  write that errmark has nullified: those a kernel changes,
  other than the result, and the third argument.
-/
def Arch.scratch (arch : Arch) : List arch.Reg :=
  arch.regArg3 ::
    arch.clobbered.filter fun reg => reg ≠ arch.regRetn

/-
  The scratch registers are the third argument, and those
  that a call clobbers without returning in them.
-/
theorem Arch.notMem_scratch_iff
    {arch : Arch}
    {reg : arch.Reg} :
    reg ∉ arch.scratch ↔
      reg ≠ arch.regArg3 ∧
        (reg ∈ arch.clobbered → reg = arch.regRetn) := by
  simp [scratch, imp_iff_not_or]

/- The number of a call and its descriptor and buffer stay. -/
theorem Arch.regSyscall_notMem_scratch (arch : Arch) :
    arch.regSyscall ∉ arch.scratch := by
  cases arch <;> decide

/- The first two arguments are not scratch registers. -/
theorem Arch.regArg1_notMem_scratch (arch : Arch) :
    arch.regArg1 ∉ arch.scratch := by
  cases arch <;> decide

theorem Arch.regArg2_notMem_scratch (arch : Arch) :
    arch.regArg2 ∉ arch.scratch := by
  cases arch <;> decide

/- What a program computes with. -/
structure Image (arch : Arch) where
  regs : Regs arch
  memory : Memory arch

/- `MAX_RW_COUNT`: what a kernel writes at once. -/
def maxRwCount : Nat := 0x7ffff000

namespace Image

variable {arch : Arch}

/- The stop of a program with an image. -/
def stop
    (kind : StopKind)
    (block : Nat → UInt8)
    (img : Image arch) : Stop arch where
  kind := kind
  regs := img.regs
  memory := img.memory
  malloc := some block

/- The call a program enters is a write to fd 1 or 2. -/
def EntersWrite (img : Image arch) : Prop :=
  img.regs.ShowsWrite ∧ img.regs.write.Watched

instance (img : Image arch) :
    Decidable img.EntersWrite := by
  unfold EntersWrite
  infer_instance

/- A stop at an entry shows the call that is entered. -/
theorem entry_entersWrite_iff
    (e : Image arch)
    (block : Nat → UInt8) :
    (e.stop .entry block).EntersWrite ↔ e.EntersWrite := by
  simp [Stop.EntersWrite, Image.EntersWrite, Image.stop]

/- The descriptor of that write, and its bytes. -/
def writes
    (img : Image arch) : List (Int × List UInt8) :=
  if img.EntersWrite then
    [(img.regs.write.fd,
      img.memory.region img.regs.write.addr
        img.regs.write.len.toNat)]
  else
    []

/- A write that errmark and a kernel take as a whole. -/
structure Whole (img : Image arch) : Prop where
  kept : ¬ IsIgnored img.regs.write.addr img.regs.write.len
  readable : img.regs.write.IsWhole img.memory
  short : img.regs.write.len.toNat ≤ maxRwCount

/- A write has been taken as a whole. -/
structure Taken (e img : Image arch) : Prop where
  memory : img.memory = e.memory
  result : img.regs arch.regRetn = e.regs arch.regArg3
  kept :
    ∀ reg, reg ∉ arch.clobbered →
      img.regs reg = e.regs reg

/- Images that differ in scratch registers only. -/
structure Similar (img img' : Image arch) : Prop where
  memory : img'.memory = img.memory
  regs :
    ∀ reg, reg ∉ arch.scratch → img'.regs reg = img.regs reg

/- The third argument, too, is the same. -/
structure Agrees (img img' : Image arch) : Prop extends
    img.Similar img' where
  third : img'.regs arch.regArg3 = img.regs arch.regArg3

/-
  Two programs enter the same call: the third argument, too,
  is the same if the call has one.
-/
structure SameCall
    (takesThird : arch.Word → Bool)
    (img img' : Image arch) : Prop extends
    img.Similar img' where
  third :
    takesThird (img.regs arch.regSyscall) = true →
      img'.regs arch.regArg3 = img.regs arch.regArg3

/- An image agrees with itself. -/
theorem Agrees.refl (img : Image arch) :
    img.Agrees img where
  memory := rfl
  regs := fun _ _ => rfl
  third := rfl

/- Images that agree enter the same call. -/
theorem Agrees.sameCall
    {img img' : Image arch}
    (hAgrees : img.Agrees img')
    (takesThird : arch.Word → Bool) :
    img.SameCall takesThird img' where
  toSimilar := hAgrees.toSimilar
  third := fun _ => hAgrees.third

end Image

end Errmark

------------------------------------------------------------
-- The Same Call
------------------------------------------------------------

namespace Errmark

variable {arch : Arch}

namespace Image

variable {takesThird : arch.Word → Bool}
variable {e e' : Image arch}

/- The same call has the same number. -/
theorem SameCall.number
    (hCall : e.SameCall takesThird e') :
    e'.regs arch.regSyscall = e.regs arch.regSyscall :=
  hCall.regs _ arch.regSyscall_notMem_scratch

/- So it is a write in both images, or in neither. -/
theorem SameCall.showsWrite_iff
    (hCall : e.SameCall takesThird e') :
    e'.regs.ShowsWrite ↔ e.regs.ShowsWrite := by
  rw [Regs.ShowsWrite, Regs.ShowsWrite, hCall.number]

/- A write has three arguments. -/
theorem SameCall.len_eq
    (hThird : takesThird arch.sysWrite = true)
    (hCall : e.SameCall takesThird e')
    (hShows : e.regs.ShowsWrite) :
    e'.regs arch.regArg3 = e.regs arch.regArg3 := by
  apply hCall.third
  rw [show e.regs arch.regSyscall = arch.sysWrite from
    hShows]
  exact hThird

/- It is then the same write. -/
theorem SameCall.write_eq
    (hThird : takesThird arch.sysWrite = true)
    (hCall : e.SameCall takesThird e')
    (hShows : e.regs.ShowsWrite) :
    e'.regs.write = e.regs.write := by
  unfold Regs.write
  rw [hCall.regs _ arch.regArg1_notMem_scratch,
    hCall.regs _ arch.regArg2_notMem_scratch,
    hCall.len_eq hThird hShows]

/- Either both writes go to fd 1 or 2, or none does. -/
theorem SameCall.entersWrite_iff
    (hThird : takesThird arch.sysWrite = true)
    (hCall : e.SameCall takesThird e') :
    e'.EntersWrite ↔ e.EntersWrite := by
  unfold EntersWrite
  rw [hCall.showsWrite_iff]
  apply and_congr_right
  intro hShows
  rw [hCall.write_eq hThird hShows]

/-
  If errmark and a kernel take one as a whole, they take
  the other likewise.
-/
theorem SameCall.whole
    (hThird : takesThird arch.sysWrite = true)
    (hCall : e.SameCall takesThird e')
    (hShows : e.regs.ShowsWrite)
    (hWhole : e.Whole) :
    e'.Whole := by
  have hWrite := hCall.write_eq hThird hShows
  constructor
  · rw [hWrite]
    exact hWhole.kept
  · rw [hWrite, hCall.memory]
    exact hWhole.readable
  · rw [hWrite]
    exact hWhole.short

/- The same bytes are written. -/
theorem SameCall.writes_eq
    (hThird : takesThird arch.sysWrite = true)
    (hCall : e.SameCall takesThird e') :
    e'.writes = e.writes := by
  unfold writes
  by_cases hEnters : e.EntersWrite
  · rw [if_pos hEnters,
      if_pos ((hCall.entersWrite_iff hThird).mpr hEnters),
      hCall.write_eq hThird hEnters.1, hCall.memory]
  · rw [if_neg hEnters,
      if_neg (mt (hCall.entersWrite_iff hThird).mp hEnters)]

end Image

end Errmark

------------------------------------------------------------
-- The Nullified Write
------------------------------------------------------------

namespace Errmark

variable {arch : Arch}

namespace Image

/- What errmark makes of the entry of a write. -/
def nullified (e : Image arch) : Image arch where
  regs := e.regs.set arch.regArg3 0
  memory := e.memory

variable {e : Image arch}

/- Nullification sets the third argument only. -/
theorem nullified_regs
    {reg : arch.Reg}
    (hReg : reg ≠ arch.regArg3) :
    e.nullified.regs reg = e.regs reg :=
  Regs.set_of_ne _ _ hReg

/- The number of the call stays. -/
theorem nullified_number :
    e.nullified.regs arch.regSyscall =
      e.regs arch.regSyscall :=
  nullified_regs
    (Arch.notMem_scratch_iff.mp
      arch.regSyscall_notMem_scratch).1

/- The write is the same, but for its length. -/
theorem nullified_write :
    e.nullified.regs.write =
      { e.regs.write with len := 0 } := by
  have hFd :
      e.nullified.regs arch.regArg1 =
        e.regs arch.regArg1 :=
    nullified_regs
      (Arch.notMem_scratch_iff.mp
        arch.regArg1_notMem_scratch).1
  have hAddr :
      e.nullified.regs arch.regArg2 =
        e.regs arch.regArg2 :=
    nullified_regs
      (Arch.notMem_scratch_iff.mp
        arch.regArg2_notMem_scratch).1
  have hLen : e.nullified.regs arch.regArg3 = 0 :=
    Regs.set_same _ _ _
  unfold Regs.write
  rw [hFd, hAddr, hLen]

/- A nullified write still goes to fd 1 or 2. -/
theorem nullified_entersWrite
    (hEnters : e.EntersWrite) :
    e.nullified.EntersWrite := by
  constructor
  · rw [Regs.ShowsWrite, nullified_number]
    exact hEnters.1
  · rw [nullified_write]
    exact hEnters.2

/- A write of no bytes is taken as a whole, too. -/
theorem nullified_whole
    (hWhole : e.Whole) :
    e.nullified.Whole := by
  constructor
  · rw [nullified_write]
    rintro (hNull | hMax)
    · exact hWhole.kept (Or.inl hNull)
    · have hSome : (0 : arch.Word) ≠ sizeMax arch := by
        cases arch <;> decide
      exact hSome hMax
  · rw [nullified_write]
    exact Or.inl rfl
  · rw [nullified_write]
    simp

/- errmark's result is what the write alone returns. -/
theorem Taken.similar
    {takesThird : arch.Word → Bool}
    {e' img img' : Image arch}
    (hThird : takesThird arch.sysWrite = true)
    (hCall : e.SameCall takesThird e')
    (hShows : e.regs.ShowsWrite)
    (hTaken : e.Taken img)
    (hNullified : e'.nullified.Taken img') :
    img.Similar
      ⟨img'.regs.set arch.regRetn e'.regs.write.len,
        img'.memory⟩ where
  memory := by
    rw [hTaken.memory, ← hCall.memory]
    exact hNullified.memory
  regs := by
    intro reg hReg
    rcases Arch.notMem_scratch_iff.mp hReg with
      ⟨hArg, hKept⟩
    dsimp only
    by_cases hResult : reg = arch.regRetn
    · rw [hResult, Regs.set_same, hTaken.result]
      exact hCall.len_eq hThird hShows
    · have hSafe : reg ∉ arch.clobbered :=
        fun hMem => hResult (hKept hMem)
      rw [Regs.set_of_ne _ _ hResult,
        hNullified.kept reg hSafe, hTaken.kept reg hSafe,
        nullified_regs hArg]
      exact hCall.regs reg hReg

end Image

end Errmark
