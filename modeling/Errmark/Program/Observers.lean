import Errmark.Program.RunProgram

/-
  What can be read off the calls and requests of errmark.

  Each observer maps one call to a list, so that the
  observation of a state is a `flatMap` over its calls and
  the calls of one iteration only add to it.

  Key definitions include:
    * `Call.marks`
    * `Call.toStdout`
    * `Call.toCopy`
    * `Call.textTo`
    * `setRegsOf`
    * `resumesOf`
    * `guardRepliesOf`
    * `State.marksWritten`
    * `State.stdoutBytes`
    * `State.copyBytes`
    * `State.textTo`
-/

------------------------------------------------------------
-- Calls
------------------------------------------------------------

namespace Errmark

variable {arch : Arch}

namespace Call

/- The mark string a call writes. -/
@[simp] def marks : Call → List Mark
| .fprintf _ _ => []
| .fwrite _ _ => []
| .fflush _ => []
| .write mark => [mark]
| .diagnose _ _ => []
| .sleep _ => []

/- The bytes of the program's writes handed to stdout. -/
@[simp] def toStdout : Call → List OutByte
| .fprintf _ _ => []
| .fwrite .stdout bytes => bytes
| .fwrite .stderr _ => []
| .fwrite .copyFh _ => []
| .fwrite .traceFbt _ => []
| .fflush _ => []
| .write _ => []
| .diagnose _ _ => []
| .sleep _ => []

/- The bytes of the program's writes put in the copy. -/
@[simp] def toCopy : Call → List OutByte
| .fprintf _ _ => []
| .fwrite .stdout _ => []
| .fwrite .stderr _ => []
| .fwrite .copyFh bytes => bytes
| .fwrite .traceFbt _ => []
| .fflush _ => []
| .write _ => []
| .diagnose _ _ => []
| .sleep _ => []

/- Text of errmark itself, handed to a stream. -/
@[simp] def textTo (file : File) : Call → List Call
| .fprintf other text =>
    if other = file then [.fprintf other text] else []
| .fwrite _ _ => []
| .fflush _ => []
| .write _ => []
| .diagnose other what =>
    if other = file then [.diagnose other what] else []
| .sleep _ => []

end Call

namespace State

/- The mark strings written so far, in order. -/
def marksWritten (s : State arch) : List Mark :=
  s.calls.flatMap Call.marks

/- The program's bytes handed to stdout so far. -/
def stdoutBytes (s : State arch) : List OutByte :=
  s.calls.flatMap Call.toStdout

/- The program's bytes written to `copy_fh` so far. -/
def copyBytes (s : State arch) : List OutByte :=
  s.calls.flatMap Call.toCopy

/- What errmark itself had to say on a stream so far. -/
def textTo (s : State arch) (file : File) : List Call :=
  s.calls.flatMap (Call.textTo file)

end State

/- Optional output is observed where it is made. -/
@[simp] theorem flatMap_ite
    {α β : Type}
    (p : Prop)
    [Decidable p]
    (xs ys : List α)
    (f : α → List β) :
    (if p then xs else ys).flatMap f =
      if p then xs.flatMap f else ys.flatMap f := by
  split <;> rfl

end Errmark

------------------------------------------------------------
-- Requests
------------------------------------------------------------

namespace Errmark

variable {arch : Arch}

/- The register files written back to the child. -/
def setRegsOf
    (requests : List (Request arch × Reply)) :
    List (Regs arch) :=
  requests.filterMap fun
    | (.setRegs regs, _) => some regs
    | _ => none

/- The signals passed along when the child is resumed. -/
def resumesOf
    (requests : List (Request arch × Reply)) :
    List arch.Word :=
  requests.filterMap fun
    | (.syscall data, _) => some data
    | _ => none

/- The answers that went through `guard_ptrace`. -/
def guardRepliesOf
    (requests : List (Request arch × Reply)) :
    List Reply :=
  requests.filterMap fun
    | (.peekData _, _) => none
    | (_, reply) => some reply

/- The observers of requests, constructor by constructor. -/
@[simp] theorem guardRepliesOf_append
    (xs ys : List (Request arch × Reply)) :
    guardRepliesOf (xs ++ ys) =
      guardRepliesOf xs ++ guardRepliesOf ys :=
  List.filterMap_append

@[simp] theorem guardRepliesOf_nil :
    guardRepliesOf ([] : List (Request arch × Reply)) =
      [] := rfl

@[simp] theorem guardRepliesOf_getRegs
    (reply : Reply)
    (rest : List (Request arch × Reply)) :
    guardRepliesOf ((.getRegs, reply) :: rest) =
      reply :: guardRepliesOf rest := rfl

@[simp] theorem guardRepliesOf_setRegs
    (regs : Regs arch)
    (reply : Reply)
    (rest : List (Request arch × Reply)) :
    guardRepliesOf ((.setRegs regs, reply) :: rest) =
      reply :: guardRepliesOf rest := rfl

@[simp] theorem guardRepliesOf_syscall
    (data : arch.Word)
    (reply : Reply)
    (rest : List (Request arch × Reply)) :
    guardRepliesOf ((.syscall data, reply) :: rest) =
      reply :: guardRepliesOf rest := rfl

@[simp] theorem guardRepliesOf_peekRequests
    (memory : Memory arch)
    (addrs : List arch.Word) :
    guardRepliesOf (peekRequests memory addrs) = [] := by
  simp [guardRepliesOf, peekRequests]

@[simp] theorem setRegsOf_append
    (xs ys : List (Request arch × Reply)) :
    setRegsOf (xs ++ ys) = setRegsOf xs ++ setRegsOf ys :=
  List.filterMap_append

@[simp] theorem resumesOf_append
    (xs ys : List (Request arch × Reply)) :
    resumesOf (xs ++ ys) = resumesOf xs ++ resumesOf ys :=
  List.filterMap_append

@[simp] theorem setRegsOf_nil :
    setRegsOf ([] : List (Request arch × Reply)) = [] := rfl

@[simp] theorem resumesOf_nil :
    resumesOf ([] : List (Request arch × Reply)) = [] := rfl

@[simp] theorem setRegsOf_getRegs
    (reply : Reply)
    (rest : List (Request arch × Reply)) :
    setRegsOf ((.getRegs, reply) :: rest) =
      setRegsOf rest := rfl

@[simp] theorem setRegsOf_setRegs
    (regs : Regs arch)
    (reply : Reply)
    (rest : List (Request arch × Reply)) :
    setRegsOf ((.setRegs regs, reply) :: rest) =
      regs :: setRegsOf rest := rfl

@[simp] theorem setRegsOf_syscall
    (data : arch.Word)
    (reply : Reply)
    (rest : List (Request arch × Reply)) :
    setRegsOf ((.syscall data, reply) :: rest) =
      setRegsOf rest := rfl

@[simp] theorem resumesOf_getRegs
    (reply : Reply)
    (rest : List (Request arch × Reply)) :
    resumesOf ((.getRegs, reply) :: rest) =
      resumesOf rest := rfl

@[simp] theorem resumesOf_setRegs
    (regs : Regs arch)
    (reply : Reply)
    (rest : List (Request arch × Reply)) :
    resumesOf ((.setRegs regs, reply) :: rest) =
      resumesOf rest := rfl

@[simp] theorem resumesOf_syscall
    (data : arch.Word)
    (reply : Reply)
    (rest : List (Request arch × Reply)) :
    resumesOf ((.syscall data, reply) :: rest) =
      data :: resumesOf rest := rfl

@[simp] theorem setRegsOf_peekRequests
    (memory : Memory arch)
    (addrs : List arch.Word) :
    setRegsOf (peekRequests memory addrs) = [] := by
  simp [setRegsOf, peekRequests]

@[simp] theorem resumesOf_peekRequests
    (memory : Memory arch)
    (addrs : List arch.Word) :
    resumesOf (peekRequests memory addrs) = [] := by
  simp [resumesOf, peekRequests]

end Errmark
