import Errmark.Tracee.Images

/-
  A program that runs alone, and the same program while
  errmark traces it.

  A machine is a program with the kernel that serves it, both
  functions of an image. What the kernel has for a call
  depends on how many there were before, so a program may
  read input. What is promised about programs and kernels
  are the laws of a machine. Traced, the program goes on
  with the registers that errmark left it, and the kernel
  serves the call that errmark made of its call.

  Key definitions include:
    * `Machine`
    * `Machine.alone`
    * `Machine.thirdKept`
    * `Machine.ForgetsThird`
    * `Machine.traced`

  Key theorems include:
    * `Machine.makes_of_mem_calls`
-/

------------------------------------------------------------
-- Machines
------------------------------------------------------------

namespace Errmark

/-
  A program and the kernel that serves it.

  `enter` runs the program to its next call, and `serve k` is
  what the kernel makes of call `k`: the image it returns
  with or, if it does not, the exit code. The program relies
  on no register that a call may change, and the kernel on
  none but the arguments of a call. A call that returns
  still shows its number, and treats the third argument's
  register the same. Descriptors 1 and 2 are open, and what
  is written to them is taken as a whole.
-/
structure Machine (arch : Arch) where
  enter : Image arch → Image arch
  serve : Nat → Image arch → Except Int (Image arch)
  takesThird : arch.Word → Bool
  write_takesThird : takesThird arch.sysWrite = true
  enter_agrees :
    ∀ {img img' : Image arch}, img.Agrees img' →
      (enter img).Agrees (enter img')
  serve_error :
    ∀ {k : Nat} {e e' : Image arch} {code : Int},
      e.SameCall takesThird e' → serve k e = .error code →
        serve k e' = .error code
  serve_ok :
    ∀ {k : Nat} {e e' img : Image arch},
      e.SameCall takesThird e' → serve k e = .ok img →
        ∃ img', serve k e' = .ok img' ∧ img.Similar img' ∧
          (e.Agrees e' → img.Agrees img')
  serve_number :
    ∀ {k : Nat} {e img : Image arch}, serve k e = .ok img →
      img.regs arch.regSyscall = e.regs arch.regSyscall
  serve_write :
    ∀ {k : Nat} {e : Image arch}, e.EntersWrite → e.Whole →
      ∃ img, serve k e = .ok img ∧ e.Taken img

end Errmark

------------------------------------------------------------
-- A Program Alone
------------------------------------------------------------

namespace Errmark

open Foundation

variable {arch : Arch}

/- A program that runs alone, and the calls it entered. -/
structure Alone (arch : Arch) where
  image : Image arch
  calls : List (Image arch)

/- The bytes it has written, each with its descriptor. -/
def Alone.writes (r : Alone arch) : List (Int × List UInt8) :=
  r.calls.flatMap Image.writes

namespace Machine

variable (machine : Machine arch)

/- The program enters a call, and the kernel serves it. -/
def call
    (r : Alone arch)
    (k : Nat) : Outcome (Alone arch) Int :=
  let e := machine.enter r.image
  let calls := r.calls ++ [e]
  match machine.serve k e with
  | .ok img => .next ⟨img, calls⟩
  | .error code => .halt code ⟨e, calls⟩

/-
  Since the last call that has a third argument, if any, the
  program has not written to fd 1 or 2. Otherwise errmark has
  left that argument nullified.
-/
def thirdKept (calls : List (Image arch)) : Bool :=
  calls.foldl
    (fun kept e =>
      if e.EntersWrite then
        false
      else
        kept || machine.takesThird (e.regs arch.regSyscall))
    true

/-
  If the third argument may be nullified, the program goes
  on to its next call without relying on it.
-/
def ForgetsThirdIn (r : Alone arch) : Prop :=
  machine.thirdKept r.calls = false →
    ∀ img', r.image.Similar img' →
      (machine.enter r.image).SameCall
        machine.takesThird (machine.enter img')

variable {machine}

/- What the last call does to the third argument. -/
theorem thirdKept_snoc
    (calls : List (Image arch))
    (e : Image arch) :
    machine.thirdKept (calls ++ [e]) =
      if e.EntersWrite then
        false
      else
        machine.thirdKept calls ||
          machine.takesThird (e.regs arch.regSyscall) := by
  rw [thirdKept, List.foldl_append]
  rfl

/- A call that returns is added to the calls made. -/
theorem call_of_ok
    {r : Alone arch}
    {k : Nat}
    {img : Image arch}
    (hServe :
      machine.serve k (machine.enter r.image) = .ok img) :
    machine.call r k =
      .next ⟨img, r.calls ++ [machine.enter r.image]⟩ := by
  simp only [call, hServe]

/- So is the call by which the program ends. -/
theorem call_of_error
    {r : Alone arch}
    {k : Nat}
    {code : Int}
    (hServe :
      machine.serve k (machine.enter r.image) =
        .error code) :
    machine.call r k =
      .halt code
        ⟨machine.enter r.image,
          r.calls ++ [machine.enter r.image]⟩ := by
  simp only [call, hServe]

end Machine

end Errmark

------------------------------------------------------------
-- A Traced Program
------------------------------------------------------------

namespace Errmark

open Foundation

variable {arch : Arch}

/- errmark and its program, between two stops of it. -/
structure Session (arch : Arch) where
  errmark : State arch
  memory : Memory arch
  stops : List (Stop arch)

namespace Session

/- The image that errmark resumed the program with. -/
def image (x : Session arch) : Image arch where
  regs := x.errmark.childRegs
  memory := x.memory

/- One stop; without errmark the session is over. -/
def meets
    (x : Session arch)
    (stop : Stop arch) : Outcome (Session arch) Int :=
  match iteration x.errmark stop.turn with
  | .next s => .next ⟨s, stop.memory, x.stops ++ [stop]⟩
  | .leave s => .leave ⟨s, stop.memory, x.stops ++ [stop]⟩
  | .halt _ s => .leave ⟨s, stop.memory, x.stops ++ [stop]⟩

end Session

namespace Machine

variable (machine : Machine arch)

/- The two stops of a call, unless it does not return. -/
def tracedCall
    (block : Nat → UInt8)
    (x : Session arch)
    (k : Nat) : Outcome (Session arch) Int :=
  (x.meets ((machine.enter x.image).stop .entry block)).andThen
    fun x =>
      match machine.serve k x.image with
      | .ok img => x.meets (img.stop .exit block)
      | .error code => .halt code x

/- The first calls after the stop of the executed program. -/
def traced
    (setup : Setup arch)
    (block : Nat → UInt8)
    (start : Image arch)
    (n : Nat) : Outcome (Session arch) Int :=
  (Session.meets ⟨setup.begin, start.memory, []⟩
    (start.stop .exec block)).andThen fun x =>
      run (machine.tracedCall block) x (List.range n)

end Machine

end Errmark
