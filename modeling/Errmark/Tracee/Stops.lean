import Errmark.Program.Leaving

/-
  The traced program as the loop meets it: its stops, and
  the order in which the kernel lets them come.

  A program stops after it was executed, at the entry and at
  the exit of each of its system calls, and between two
  calls when a signal is about to be delivered. While it is
  stopped every request on it succeeds.

  Key definitions include:
    * `Stop`
    * `Stop.turn`
    * `Turn.Answers`
    * `Phase`
    * `Admitted`
    * `Setup.Reaches`

  Key theorems include:
    * `admitted_append_iff`
    * `Phase.Allows.kind_of_inside`
    * `iteration_stop_iff`
    * `seen_of_next`
-/

------------------------------------------------------------
-- Stops
------------------------------------------------------------

namespace Errmark

variable {arch : Arch}

/- Why the traced program stopped. -/
inductive StopKind where
  | exec
  | entry
  | exit
  | signal (sig : Signal)
  deriving DecidableEq, Repr

namespace StopKind

/- The signal that `wait` reports for a stop. -/
def reported : StopKind → Signal
| .exec => .trap
| .entry => .trap
| .exit => .trap
| .signal sig => sig

/- The signal the program was about to receive. -/
def pending : StopKind → Option Signal
| .exec => none
| .entry => none
| .exit => none
| .signal sig => some sig

end StopKind

namespace Turn

/- The child was there for every request of the turn. -/
def Answers (t : Turn arch) : Prop :=
  t.getRegs = .ok ∧ t.setRegs = .ok ∧ t.resume = .ok

/- Each request succeeded, or found no child. -/
def Benign (t : Turn arch) : Prop :=
  t.getRegs.Benign ∧ t.setRegs.Benign ∧ t.resume.Benign

end Turn

/-
  A stop of the live program, with what errmark can find out
  about it, and the block `malloc` would return during it.
-/
structure Stop (arch : Arch) where
  kind : StopKind
  regs : Regs arch
  memory : Memory arch
  malloc : Option (Nat → UInt8)

namespace Stop

/- The turn of the loop that a stop leads to. -/
def turn (stop : Stop arch) : Turn arch where
  status := (Report.stopped stop.kind.reported).status
  regs := stop.regs
  memory := stop.memory
  malloc := stop.malloc
  getRegs := .ok
  setRegs := .ok
  resume := .ok

/- What `wait` stores for a stop. -/
theorem turn_status (stop : Stop arch) :
    stop.turn.status =
      (Report.stopped stop.kind.reported).status := rfl

/- The program enters a write to a descriptor of interest. -/
def EntersWrite (stop : Stop arch) : Prop :=
  stop.kind = .entry ∧ stop.regs.ShowsWrite ∧
    stop.regs.write.Watched

instance (stop : Stop arch) :
    Decidable stop.EntersWrite := by
  unfold EntersWrite
  infer_instance

/- The stop is one at which a signal is to be delivered. -/
def IsSignal (stop : Stop arch) : Prop :=
  stop.kind.pending ≠ none

instance (stop : Stop arch) : Decidable stop.IsSignal := by
  unfold IsSignal
  infer_instance

/- There is a block for the copy of a write to fd 2. -/
def FindsRoom
    (copyFh : Bool)
    (stop : Stop arch) : Prop :=
  stop.EntersWrite → stop.regs.write.IsCopied copyFh →
    stop.malloc.isSome

instance (copyFh : Bool) (stop : Stop arch) :
    Decidable (stop.FindsRoom copyFh) := by
  unfold FindsRoom
  infer_instance

end Stop

end Errmark

------------------------------------------------------------
-- Phases
------------------------------------------------------------

namespace Errmark

variable {arch : Arch}

/-
  Where the program is between two stops: before it was
  executed, outside any call with the number of the last
  one, or inside a call that it entered with some registers.
-/
inductive Phase (arch : Arch) where
  | starting
  | outside (last : arch.Word)
  | inside (regs : Regs arch)

namespace Phase

/- Where the program is after a stop. -/
def after
    (phase : Phase arch)
    (stop : Stop arch) : Phase arch :=
  match stop.kind with
  | .exec => .outside (stop.regs arch.regSyscall)
  | .entry => .inside stop.regs
  | .exit => .outside (stop.regs arch.regSyscall)
  | .signal _ => phase

/-
  The stops that may come next. The exit of a call shows the
  number of the call; a signal stop shows the number of the
  last call, or -1.
-/
def Allows
    (phase : Phase arch)
    (stop : Stop arch) : Prop :=
  match phase, stop.kind with
  | .starting, .exec =>
      stop.regs arch.regSyscall = arch.sysExecve
  | .outside _, .entry => True
  | .outside last, .signal _ =>
      stop.regs arch.regSyscall = last ∨
        stop.regs arch.regSyscall = -1
  | .inside regs, .exit =>
      stop.regs arch.regSyscall = regs arch.regSyscall
  | _, _ => False

instance (phase : Phase arch) (stop : Stop arch) :
    Decidable (phase.Allows stop) := by
  unfold Allows
  split <;> infer_instance

/- The program is inside a write call. -/
def InsideWrite : Phase arch → Prop
| .starting => False
| .outside _ => False
| .inside regs => regs.ShowsWrite

instance (phase : Phase arch) :
    Decidable phase.InsideWrite := by
  unfold InsideWrite
  split <;> infer_instance

/- Where the program is after some stops. -/
def afterAll
    (phase : Phase arch)
    (stops : List (Stop arch)) : Phase arch :=
  stops.foldl Phase.after phase

/- No stops, no change. -/
@[simp] theorem afterAll_nil (phase : Phase arch) :
    phase.afterAll [] = phase := rfl

@[simp] theorem afterAll_cons
    (phase : Phase arch)
    (stop : Stop arch)
    (stops : List (Stop arch)) :
    phase.afterAll (stop :: stops) =
      (phase.after stop).afterAll stops := rfl

/- The phase after more stops is found from there. -/
theorem afterAll_append
    (phase : Phase arch)
    (xs ys : List (Stop arch)) :
    phase.afterAll (xs ++ ys) =
      (phase.afterAll xs).afterAll ys :=
  List.foldl_append

end Phase

/- The stops come in an order the kernel allows. -/
def Admitted : Phase arch → List (Stop arch) → Prop
| _, [] => True
| phase, stop :: stops =>
    phase.Allows stop ∧ Admitted (phase.after stop) stops

instance decidableAdmitted :
    (phase : Phase arch) →
      (stops : List (Stop arch)) →
        Decidable (Admitted phase stops)
| _, [] => inferInstanceAs (Decidable True)
| phase, stop :: stops =>
    have := decidableAdmitted (phase.after stop) stops
    inferInstanceAs
      (Decidable (phase.Allows stop ∧
        Admitted (phase.after stop) stops))

/- What is admitted later depends on the phase by then. -/
theorem admitted_append_iff
    {phase : Phase arch}
    {xs ys : List (Stop arch)} :
    Admitted phase (xs ++ ys) ↔
      Admitted phase xs ∧
        Admitted (phase.afterAll xs) ys := by
  induction xs generalizing phase with
  | nil => simp [Admitted]
  | cons stop xs ih =>
      rw [List.cons_append, Admitted, Admitted, ih,
        Phase.afterAll_cons, and_assoc]

/- A call is entered only when the program is outside one. -/
theorem Phase.Allows.of_entry
    {phase : Phase arch}
    {stop : Stop arch}
    (hAllows : phase.Allows stop)
    (hKind : stop.kind = .entry) :
    ∃ last, phase = .outside last := by
  cases phase with
  | starting => simp [Phase.Allows, hKind] at hAllows
  | outside last => exact ⟨last, rfl⟩
  | inside regs => simp [Phase.Allows, hKind] at hAllows

/- The exit of a call shows the number of its entry. -/
theorem Phase.Allows.of_exit
    {phase : Phase arch}
    {stop : Stop arch}
    (hAllows : phase.Allows stop)
    (hKind : stop.kind = .exit) :
    ∃ regs, phase = .inside regs ∧
      (stop.regs.ShowsWrite ↔ regs.ShowsWrite) := by
  cases phase with
  | starting => simp [Phase.Allows, hKind] at hAllows
  | outside last => simp [Phase.Allows, hKind] at hAllows
  | inside regs =>
      simp only [Phase.Allows, hKind] at hAllows
      refine ⟨regs, rfl, ?_⟩
      rw [Regs.ShowsWrite, Regs.ShowsWrite, hAllows]

/- The only stop that may follow an entry is an exit. -/
theorem Phase.Allows.kind_of_inside
    {regs : Regs arch}
    {stop : Stop arch}
    (hAllows : (Phase.inside regs).Allows stop) :
    stop.kind = .exit := by
  unfold Phase.Allows at hAllows
  cases hKind : stop.kind with
  | exit => rfl
  | exec => simp [hKind] at hAllows
  | entry => simp [hKind] at hAllows
  | signal sig => simp [hKind] at hAllows

/- The exec stop is the first one, and no write. -/
theorem Phase.Allows.of_exec
    {phase : Phase arch}
    {stop : Stop arch}
    (hAllows : phase.Allows stop)
    (hKind : stop.kind = .exec) :
    phase = .starting ∧ ¬ stop.regs.ShowsWrite := by
  cases phase with
  | starting =>
      simp only [Phase.Allows, hKind] at hAllows
      refine ⟨rfl, ?_⟩
      rw [Regs.ShowsWrite, hAllows]
      exact arch.sysExecve_ne_sysWrite
  | outside last => simp [Phase.Allows, hKind] at hAllows
  | inside regs => simp [Phase.Allows, hKind] at hAllows

/- A signal stops the program outside of calls. -/
theorem Phase.Allows.of_signal
    {phase : Phase arch}
    {stop : Stop arch}
    {sig : Signal}
    (hAllows : phase.Allows stop)
    (hKind : stop.kind = .signal sig) :
    ∃ last, phase = .outside last := by
  cases phase with
  | starting => simp [Phase.Allows, hKind] at hAllows
  | outside last => exact ⟨last, rfl⟩
  | inside regs => simp [Phase.Allows, hKind] at hAllows

end Errmark

------------------------------------------------------------
-- Iterations On Stops
------------------------------------------------------------

namespace Errmark

open Foundation

variable {arch : Arch}

/- Which stops the test after `wait` lets pass. -/
theorem endsTracing_stopped (sig : Signal) :
    endsTracing (Report.stopped sig).status = false ↔
      sig.Expected := by
  have hZero : ¬ (Report.stopped sig).status = 0#32 := by
    intro hEq
    have hStop := Report.wIfStopped_stopped sig
    rw [hEq] at hStop
    exact Bool.false_ne_true (wIfStopped_zero.symm.trans hStop)
  have hNumber :
      ∀ other : Signal,
        sig.number = other.number ↔ sig = other := by
    intro other
    cases sig
    cases other
    simp
  simp only [endsTracing, Report.wIfStopped_stopped,
    Report.wStopSig_stopped, hNumber, Signal.Expected]
  simp [hZero]
  exact or_iff_not_imp_left.symm

/- The registers are seen at all but unexpected stops. -/
theorem seen_stop
    (s : State arch)
    (stop : Stop arch) :
    s.seen stop.turn =
      if stop.kind.reported.Expected then some stop.regs
      else none := by
  have hIff := endsTracing_stopped stop.kind.reported
  by_cases hSig : stop.kind.reported.Expected
  · simp [State.seen, Stop.turn, hIff.mpr hSig, hSig]
  · have hEnds :
        endsTracing
          (Report.stopped stop.kind.reported).status =
            true := by
      simpa [hSig] using hIff
    simp [State.seen, Stop.turn, hEnds, hSig]

/- What a stop shows depends on the toggle alone. -/
theorem intercepted_stop_congr
    {s s' : State arch}
    (hToggle : s'.toggle = s.toggle)
    (stop : Stop arch) :
    s'.intercepted stop.turn = s.intercepted stop.turn := by
  unfold State.intercepted
  rw [seen_stop, seen_stop, hToggle]

/- On a live program the loop ends in two ways only. -/
theorem iteration_stop_iff
    {s : State arch}
    {stop : Stop arch} :
    (∃ s', iteration s stop.turn = .next s') ↔
      stop.kind.reported.Expected ∧
        ∀ w, s.intercepted stop.turn = some w →
          w.IsCopied s.cmd.copyFh →
            stop.malloc.isSome := by
  have hSeen := seen_stop s stop
  constructor
  · rintro ⟨s', hNext⟩
    have hStep := steps_of_iteration hNext
    by_cases hSig : stop.kind.reported.Expected
    · refine ⟨hSig, ?_⟩
      intro w hWrite hCopy
      cases hBlock : stop.malloc with
      | some block => rfl
      | none =>
          have hHalt :=
            iteration_out_of_memory hWrite hCopy
              Reply.benign_ok hBlock
          rw [hHalt] at hNext
          cases hNext
    · rw [if_neg hSig] at hSeen
      rcases iteration_of_not_seen hSeen with
        ⟨_, hLeave⟩ | ⟨_, _, _, hLeave⟩ | ⟨_, _, hHalt⟩
      · rw [hLeave] at hNext
        cases hNext
      · rw [hLeave] at hNext
        cases hNext
      · rw [hHalt] at hNext
        cases hNext
  · rintro ⟨hSig, hRoom⟩
    rw [if_pos hSig] at hSeen
    exact
      iteration_goes_on hSeen Reply.benign_ok
        Reply.benign_ok hRoom

/- An iteration that goes on from a stop saw its registers. -/
theorem seen_of_next
    {s s' : State arch}
    {stop : Stop arch}
    (hNext : iteration s stop.turn = .next s') :
    s.seen stop.turn = some stop.regs := by
  have hSig := (iteration_stop_iff.mp ⟨s', hNext⟩).1
  rw [seen_stop, if_pos hSig]

end Errmark

------------------------------------------------------------
-- States Of errmark After Some Stops
------------------------------------------------------------

namespace Errmark

open Foundation

variable {arch : Arch}

namespace Setup

/-
  After the stops errmark is in this state, or it returns in
  it after one more turn.
-/
def Reaches
    (setup : Setup arch)
    (stops : List (Stop arch))
    (s' : State arch) : Prop :=
  ∃ s,
    run iteration setup.begin (stops.map Stop.turn) =
        .next s ∧
      (s' = s ∨
        ∃ t last, iteration s t = .leave last ∧
          s' = afterTracing (afterLoop last))

/- Returning leaves the bytes of the program as they are. -/
theorem Reaches.bytes
    {setup : Setup arch}
    {stops : List (Stop arch)}
    {s' : State arch}
    (hReaches : setup.Reaches stops s') :
    ∃ s,
      run iteration setup.begin (stops.map Stop.turn) =
          .next s ∧
        s'.stdoutBytes = s.stdoutBytes ∧
        s'.copyBytes = s.copyBytes := by
  rcases hReaches with
    ⟨s, hRun, hSame | ⟨t, last, hLeave, hAfter⟩⟩
  · rw [hSame]
    exact ⟨s, hRun, rfl, rfl⟩
  · refine ⟨s, hRun, ?_, ?_⟩
    · rw [hAfter]
      exact stdoutBytes_leave hLeave
    · rw [hAfter]
      exact copyBytes_leave hLeave

/- The diagnostics of errmark are not for the copy. -/
theorem errprintFh_ne_copyFh (setup : Setup arch) :
    setEprintFh setup.stdoutId setup.stderrId ≠
      .copyFh := by
  unfold setEprintFh
  split <;> decide

/- All that goes to the copy are bytes of the program. -/
theorem Reaches.copyText
    {setup : Setup arch}
    {stops : List (Stop arch)}
    {s' : State arch}
    (hReaches : setup.Reaches stops s') :
    s'.textTo .copyFh = [] := by
  rcases hReaches with ⟨s, hRun, hAfter⟩
  have hBegin : setup.begin.textTo .copyFh = [] := by
    have hFile := setup.errprintFh_ne_copyFh
    unfold begin startTracing State.textTo
    dsimp only
    split
    · simp [state, hFile]
    · rfl
  have hText : s.textTo .copyFh = [] := by
    rw [textTo_of_run rfl (by decide) hRun, hBegin]
  rcases hAfter with hSame | ⟨t, last, hLeave, hLast⟩
  · rw [hSame]
    exact hText
  · have hFile : s.errprintFh ≠ .copyFh := by
      rw [(sameOptions_of_run hRun).errprintFh]
      exact setup.errprintFh_ne_copyFh
    rw [hLast, textTo_copyFh_leave hLeave hFile]
    exact hText

end Setup

end Errmark

------------------------------------------------------------
-- Sample Stops
------------------------------------------------------------

namespace Errmark

variable {arch : Arch}

/- A register file in which only a call and its arguments stand out. -/
def Regs.ofCall
    (number fd addr len retn : arch.Word) : Regs arch :=
  fun reg =>
    if reg = arch.regSyscall then number
    else if reg = arch.regArg1 then fd
    else if reg = arch.regArg2 then addr
    else if reg = arch.regArg3 then len
    else if reg = arch.regRetn then retn
    else 0

/- A kernel that answers a nullified call with some result. -/
theorem Regs.ofCall_nullified
    (number fd addr len retn result : arch.Word)
    {reg : arch.Reg}
    (hReg : reg ∉ arch.clobbered) :
    (Regs.ofCall number fd addr 0 result : Regs arch) reg =
      (Regs.ofCall number fd addr len retn : Regs arch).set
        arch.regArg3 0 reg := by
  have hRetn : reg ≠ arch.regRetn := by
    intro hEq
    rw [hEq] at hReg
    exact hReg arch.regRetn_mem_clobbered
  by_cases hArg : reg = arch.regArg3
  · rw [hArg, Regs.set_same]
    cases arch <;> rfl
  · rw [Regs.set_of_ne _ _ hArg]
    simp [Regs.ofCall, hArg, hRetn]

/- A memory of one byte, readable everywhere or nowhere. -/
def Memory.uniform
    (byte : UInt8)
    (fault : Option Errno) : Memory arch where
  byteAt := fun _ => byte
  fault := fun _ => fault

/- Four marks that can be told apart. -/
def sampleMarks : Marks where
  start1 := some [0x3c]
  end1 := some [0x3e]
  start2 := some [0x5b]
  end2 := some [0x5d]

/- A command with its marks, as it runs on x86_64. -/
def sampleSetup (copyFh : Bool) : Setup .x86_64 where
  options :=
    { verbose := false
      debug := false
      copyFh := copyFh
      cmdPath := some "/bin/true"
      cmdName := some "true"
      argv := ["true"] }
  stdoutId := some ⟨0, 0⟩
  stderrId := some ⟨0, 1⟩
  marks := sampleMarks
  pid := 1
  pid_ne_zero := by decide
  regs := fun _ => 0
  wfd := 0
  waddr := 0
  wlen := 0

/- The stop after the program was executed. -/
def sampleExec : Stop .x86_64 where
  kind := .exec
  regs := .ofCall Arch.x86_64.sysExecve 0 0 0 0
  memory := .uniform 0 none
  malloc := none

/- A write of a program whose memory is full of `x`. -/
def sampleWrite
    (kind : StopKind)
    (fd len retn : Arch.Word .x86_64)
    (fault : Option Errno) : Stop .x86_64 where
  kind := kind
  regs := .ofCall Arch.x86_64.sysWrite fd 4096 len retn
  memory := .uniform 0x78 fault
  malloc := some fun _ => 0

/- A program that makes one write. -/
def sampleStops
    (fd len : Arch.Word .x86_64) : List (Stop .x86_64) :=
  [sampleExec, sampleWrite .entry fd len (-38) none,
    sampleWrite .exit fd 0 0 none]

/- A child of the program ends right after its write. -/
def sampleSignalStops : List (Stop .x86_64) :=
  sampleStops 1 1 ++
    [sampleWrite (.signal .chld) 1 0 1 none]

/- The program is no longer there. -/
def goneTurn (status : CInt) : Turn .x86_64 where
  status := status
  regs := fun _ => 0
  memory := .uniform 0 (some Errno.ESRCH)
  malloc := none
  getRegs := .failed Errno.ESRCH
  setRegs := .failed Errno.ESRCH
  resume := .failed Errno.ESRCH

end Errmark
