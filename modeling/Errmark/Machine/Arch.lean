import Mathlib.Algebra.Ring.Nat
import Mathlib.Logic.Function.Basic

/-
  The two architectures errmark is compiled for, and their
  register files.

  `run-program.c` names five registers through macros that
  depend on the architecture. `Arch.regSyscall`, `regArg1`,
  `regArg2`, `regArg3` and `regRetn` are those macros; the
  registers themselves are the members of
  `struct user_regs_struct`.

  Key definitions include:
    * `Arch`
    * `Arch.Word`
    * `Arch.Reg`
    * `Regs`
    * `Regs.set`
    * `Arch.clobbered`
-/

------------------------------------------------------------
-- Architectures
------------------------------------------------------------

namespace Errmark

/- `__i386__` and `__x86_64__` -/
inductive Arch where
  | i386
  | x86_64
  deriving DecidableEq, Repr

namespace Arch

/- `sizeof (long)`, which is also `sizeof (size_t)`. -/
def wordBytes : Arch → Nat
| .i386 => 4
| .x86_64 => 8

/- An address, a `size_t` or a register. -/
abbrev Word (arch : Arch) : Type :=
  BitVec (8 * arch.wordBytes)

/- A word has at least one byte. -/
theorem wordBytes_pos (arch : Arch) :
    0 < arch.wordBytes := by
  cases arch <;> decide

end Arch

end Errmark

------------------------------------------------------------
-- Registers
------------------------------------------------------------

namespace Errmark

/- `struct user_regs_struct` of i386. -/
inductive Reg32 where
  | ebx | ecx | edx | esi | edi | ebp | eax
  | xds | xes | xfs | xgs | orig_eax | eip | xcs
  | eflags | esp | xss
  deriving DecidableEq, Repr

/- `struct user_regs_struct` of x86_64. -/
inductive Reg64 where
  | r15 | r14 | r13 | r12 | rbp | rbx | r11 | r10
  | r9 | r8 | rax | rcx | rdx | rsi | rdi | orig_rax
  | rip | cs | eflags | rsp | ss | fs_base | gs_base
  | ds | es | fs | gs
  deriving DecidableEq, Repr

namespace Arch

/- The members of `struct user_regs_struct`. -/
def Reg : Arch → Type
| .i386 => Reg32
| .x86_64 => Reg64

instance (arch : Arch) : DecidableEq arch.Reg :=
  match arch with
  | .i386 => inferInstanceAs (DecidableEq Reg32)
  | .x86_64 => inferInstanceAs (DecidableEq Reg64)

/- `reg_syscall`: the number of the call. -/
def regSyscall : (arch : Arch) → arch.Reg
| .i386 => Reg32.orig_eax
| .x86_64 => Reg64.orig_rax

/- `reg_arg1`: the descriptor of a write. -/
def regArg1 : (arch : Arch) → arch.Reg
| .i386 => Reg32.ebx
| .x86_64 => Reg64.rdi

/- `reg_arg2`: the address of its buffer. -/
def regArg2 : (arch : Arch) → arch.Reg
| .i386 => Reg32.ecx
| .x86_64 => Reg64.rsi

/- `reg_arg3`: its length. -/
def regArg3 : (arch : Arch) → arch.Reg
| .i386 => Reg32.edx
| .x86_64 => Reg64.rdx

/- `reg_retn`: what a call returns. -/
def regRetn : (arch : Arch) → arch.Reg
| .i386 => Reg32.eax
| .x86_64 => Reg64.rax

/- `SYS_write` -/
def sysWrite (arch : Arch) : arch.Word :=
  match arch with
  | .i386 => 4
  | .x86_64 => 1

/- `SYS_execve`, the call that ends in the exec stop. -/
def sysExecve (arch : Arch) : arch.Word :=
  match arch with
  | .i386 => 11
  | .x86_64 => 59

/- The registers the kernel may change in a system call. -/
def clobbered (arch : Arch) : List arch.Reg :=
  match arch with
  | .i386 => [Reg32.eax]
  | .x86_64 => [Reg64.rax, Reg64.rcx, Reg64.r11]

/- The exec stop is not taken for a write. -/
theorem sysExecve_ne_sysWrite (arch : Arch) :
    arch.sysExecve ≠ arch.sysWrite := by
  cases arch <;> decide

/- The result of a call is one of the registers it changes. -/
theorem regRetn_mem_clobbered (arch : Arch) :
    arch.regRetn ∈ arch.clobbered := by
  cases arch <;> decide

/- The kernel leaves the arguments of a call alone. -/
theorem regArg3_not_mem_clobbered (arch : Arch) :
    arch.regArg3 ∉ arch.clobbered := by
  cases arch <;> decide

end Arch

end Errmark

------------------------------------------------------------
-- Register Files
------------------------------------------------------------

namespace Errmark

variable {arch : Arch}

/- One value of `struct user_regs_struct`. -/
abbrev Regs (arch : Arch) : Type :=
  arch.Reg → arch.Word

namespace Regs

/- Assign to one member of the structure. -/
def set
    (regs : Regs arch)
    (reg : arch.Reg)
    (value : arch.Word) : Regs arch :=
  fun r => if r = reg then value else regs r

/- The register that was set has its new value. -/
@[simp] theorem set_same
    (regs : Regs arch)
    (reg : arch.Reg)
    (value : arch.Word) :
    regs.set reg value reg = value := by
  simp [set]

/- The other registers keep theirs. -/
theorem set_of_ne
    (regs : Regs arch)
    {reg r : arch.Reg}
    (value : arch.Word)
    (hNe : r ≠ reg) :
    regs.set reg value r = regs r := by
  simp [set, hNe]

/- Writing back the value already there changes nothing. -/
theorem set_eq_self
    (regs : Regs arch)
    (reg : arch.Reg) :
    regs.set reg (regs reg) = regs := by
  funext r
  by_cases hReg : r = reg
  · subst hReg
    simp [set]
  · simp [set, hReg]

end Regs

end Errmark
