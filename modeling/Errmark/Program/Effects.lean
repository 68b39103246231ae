import Errmark.Program.Iteration
import Errmark.Program.PmemReading

/-
  What an iteration that goes on changes.

  An iteration is summed up by what it sees: the write it
  intercepts, if any, decides the marks and the bytes it
  emits, and the registers it sees decide the registers it
  writes back. Each field of the next state is an equation
  of its own; the case analysis over `Steps` is done here
  and not again.

  Key definitions include:
    * `State.output`
    * `State.emission`
    * `State.debugText`
    * `State.writtenBack`

  Key theorems include:
    * `Steps.output`
    * `Steps.calls`
    * `Steps.curFd`
    * `Steps.toggle`
    * `Steps.setRegs`
    * `Steps.resumes`
-/

------------------------------------------------------------
-- Calls That Are Output
------------------------------------------------------------

namespace Errmark

variable {arch : Arch}

namespace Call

/- Debug text and pauses, made around the real output. -/
def isNoise : Call → Bool
| .fprintf _ _ => true
| .fwrite _ _ => false
| .fflush _ => false
| .write _ => false
| .diagnose _ _ => false
| .sleep _ => true

end Call

/- The calls that are not noise. -/
def outputOf (calls : List Call) : List Call :=
  calls.filter fun call => !call.isNoise

/- Without calls there is no output. -/
@[simp] theorem outputOf_nil : outputOf [] = [] := rfl

/- Output follows output. -/
@[simp] theorem outputOf_append
    (xs ys : List Call) :
    outputOf (xs ++ ys) = outputOf xs ++ outputOf ys :=
  List.filter_append xs ys

/- Debug text is dropped. -/
@[simp] theorem outputOf_fprintf
    (file : File)
    (text : String)
    (calls : List Call) :
    outputOf (.fprintf file text :: calls) =
      outputOf calls := rfl

/- Data is kept. -/
@[simp] theorem outputOf_fwrite
    (file : File)
    (bytes : List OutByte)
    (calls : List Call) :
    outputOf (.fwrite file bytes :: calls) =
      .fwrite file bytes :: outputOf calls := rfl

@[simp] theorem outputOf_fflush
    (file : File)
    (calls : List Call) :
    outputOf (.fflush file :: calls) =
      .fflush file :: outputOf calls := rfl

@[simp] theorem outputOf_write
    (mark : Mark)
    (calls : List Call) :
    outputOf (.write mark :: calls) =
      .write mark :: outputOf calls := rfl

@[simp] theorem outputOf_sleep
    (seconds : Nat)
    (calls : List Call) :
    outputOf (.sleep seconds :: calls) =
      outputOf calls := rfl

/- Optional calls are optional output. -/
@[simp] theorem outputOf_ite
    (p : Prop)
    [Decidable p]
    (xs ys : List Call) :
    outputOf (if p then xs else ys) =
      if p then outputOf xs else outputOf ys := by
  split <;> rfl

/- A trace is noise. -/
@[simp] theorem outputOf_traceText
    (cmd : Cmd)
    (text : String) :
    outputOf (traceText cmd text) = [] := by
  simp [traceText]

/- So it is in `guard_ptrace`. -/
@[simp] theorem outputOf_guardCalls
    (cmd : Cmd)
    (request : Request arch) :
    outputOf (guardCalls cmd request) = [] := by
  simp [guardCalls]

/- All that is done for a mark is output. -/
@[simp] theorem outputOf_marks_calls
    (marks : Marks)
    (fd : Int)
    (edge : Edge) :
    outputOf (marks.calls fd edge) =
      marks.calls fd edge := by
  unfold Marks.calls
  cases marks.text fd edge <;> simp [markCalls]

/- So is all that `pmem_fwrite` does. -/
@[simp] theorem outputOf_lift
    (file : File)
    (fd : Int)
    (calls : List (PmemCall arch)) :
    outputOf (calls.flatMap (PmemCall.lift file fd)) =
      calls.flatMap (PmemCall.lift file fd) := by
  induction calls with
  | nil => rfl
  | cons call calls ih =>
      rw [List.flatMap_cons, outputOf_append, ih]
      cases call <;> rfl

namespace State

/- The calls of errmark so far, without the noise. -/
def output (s : State arch) : List Call :=
  outputOf s.calls

/- The descriptor of the open group, none at the first write. -/
def openedFd (s : State arch) : Int :=
  if s.cmd.markState = 0 then -1 else s.curFd

end State

/- What no noise shows is seen in the output alone. -/
theorem State.flatMap_output
    {β : Type}
    (s : State arch)
    {f : Call → List β}
    (hNoise : ∀ call, call.isNoise = true → f call = []) :
    s.output.flatMap f = s.calls.flatMap f := by
  unfold State.output outputOf
  induction s.calls with
  | nil => rfl
  | cons call calls ih =>
      cases hCall : call.isNoise with
      | true => simp [hCall, hNoise call hCall, ih]
      | false => simp [hCall, ih]

end Errmark

------------------------------------------------------------
-- What An Iteration Emits
------------------------------------------------------------

namespace Errmark

variable {arch : Arch}

namespace Write

/- The reading of the buffer of a write. -/
def reading
    (w : Write arch)
    (memory : Memory arch) : Foundation.Reading UInt8 Errno :=
  memory.reading w.addr w.len.toNat

/- The whole buffer of a write can be read. -/
def Readable
    (w : Write arch)
    (memory : Memory arch) : Prop :=
  memory.Readable w.addr w.len.toNat

instance (w : Write arch) (memory : Memory arch) :
    Decidable (w.Readable memory) := by
  unfold Readable
  infer_instance

/- The bytes of a write that `pmem_fwrite` emits. -/
def streamed
    (w : Write arch)
    (memory : Memory arch) : List OutByte :=
  (w.reading memory).bytes.map fun b => ⟨w.fd, .stored b⟩

/- The buffer of a write that `pmem_copy` filled. -/
def copied
    (w : Write arch)
    (memory : Memory arch)
    (block : Nat → UInt8) : List OutByte :=
  (memcpy (freshBuffer block w.len.toNat) 0
    (w.reading memory).bytes).map fun cell => ⟨w.fd, cell⟩

/- The calls that emit the bytes of a write. -/
def emission
    (w : Write arch)
    (copyFh : Bool)
    (t : Turn arch) : List Call :=
  if w.IsCopied copyFh then
    match t.malloc with
    | none => []
    | some block =>
        [.fwrite .stdout (w.copied t.memory block),
          .fwrite .copyFh (w.copied t.memory block)]
  else
    (pmemFwrite t.memory w.addr w.len.toNat).calls.flatMap
      (PmemCall.lift .stdout w.fd)

/- The arguments of a write, as `--debug` prints them. -/
def argumentText (w : Write arch) : List Call :=
  [.fprintf .stderr ("wfd  =" ++ toString w.fd ++ "\n"),
    .fprintf .stderr
      ("waddr=" ++ pointerText w.addr.toNat ++ "\n"),
    .fprintf .stderr
      ("wlen =" ++ toString w.len.toNat ++ "\n")]

end Write

namespace State

/- The calls by which a write switches groups. -/
def switching
    (s : State arch)
    (w : Write arch) : List Call :=
  if ¬ IsIgnored w.addr w.len ∧ w.fd ≠ s.openedFd then
    s.marks.calls s.openedFd .finish ++
      s.marks.calls w.fd .start
  else
    []

/- The output of an iteration. -/
def emission
    (s : State arch)
    (t : Turn arch) : List Call :=
  match s.intercepted t with
  | none => []
  | some w => s.switching w ++ w.emission s.cmd.copyFh t

/- What `--debug` prints about the write a stop shows. -/
def debugText
    (s : State arch)
    (t : Turn arch) : List Call :=
  match s.seen t with
  | none => []
  | some regs =>
      if ¬ (s.debug = true ∧ regs.ShowsWrite) then
        []
      else
        .fprintf .stderr
            ("SYS_write; toggle=" ++ toString s.toggle ++
              "\n") ::
          if s.toggle = 0 then regs.write.argumentText
          else []

/- And what it prints when the write was dealt with. -/
def doneText
    (s : State arch)
    (t : Turn arch) : List Call :=
  match s.seen t with
  | none => []
  | some regs =>
      if ¬ (s.cmd.debug = true ∧ regs.ShowsWrite) then
        []
      else
        .fprintf .stderr ".\n" ::
          if s.cmd.slow then [.sleep 1] else []

/- The registers an iteration writes back to the child. -/
def writtenBack
    (s : State arch)
    (t : Turn arch) : List (Regs arch) :=
  match s.seen t with
  | none => []
  | some regs =>
      if ¬ regs.ShowsWrite then
        []
      else if s.toggle = 0 then
        if regs.write.Watched then
          [if s.cmd.nullify then
            regs.set arch.regArg3 0
          else
            regs]
        else
          []
      else
        [if (s.wfd = 1 ∨ s.wfd = 2) ∧ s.cmd.nullify then
          regs.set arch.regRetn s.wlen
        else
          regs]

/- The entry of a watched write is intercepted. -/
theorem intercepted_eq_some
    {s : State arch}
    {t : Turn arch}
    {regs : Regs arch}
    (hSeen : s.seen t = some regs)
    (hCall : regs.ShowsWrite)
    (hToggle : s.toggle = 0)
    (hFd : regs.write.Watched) :
    s.intercepted t = some regs.write := by
  simp [intercepted, hSeen, hCall, hToggle, hFd]

/- Nothing else is. -/
theorem intercepted_eq_none
    {s : State arch}
    {t : Turn arch}
    {regs : Regs arch}
    (hSeen : s.seen t = some regs)
    (hNot :
      ¬ (regs.ShowsWrite ∧ s.toggle = 0 ∧
        regs.write.Watched)) :
    s.intercepted t = none := by
  simp [intercepted, hSeen, hNot]

/- What an intercepted write says about the iteration. -/
theorem intercepted_eq_some_iff
    {s : State arch}
    {t : Turn arch}
    {w : Write arch} :
    s.intercepted t = some w ↔
      ∃ regs, s.seen t = some regs ∧ regs.ShowsWrite ∧
        s.toggle = 0 ∧ regs.write.Watched ∧
        regs.write = w := by
  unfold intercepted
  cases s.seen t with
  | none => simp
  | some regs =>
      by_cases hAll : regs.ShowsWrite ∧ s.toggle = 0 ∧
          regs.write.Watched
      · simp [hAll]
      · simp only [hAll, if_false]
        constructor
        · intro hFalse
          cases hFalse
        · rintro ⟨_, hSame, hCall, hToggle, hFd, _⟩
          cases hSame
          exact absurd ⟨hCall, hToggle, hFd⟩ hAll

/- Only writes to fd 1 and 2 are intercepted. -/
theorem intercepted_watched
    {s : State arch}
    {t : Turn arch}
    {w : Write arch}
    (hWrite : s.intercepted t = some w) :
    w.Watched := by
  rcases intercepted_eq_some_iff.mp hWrite with
    ⟨regs, _, _, _, hFd, hEq⟩
  exact hEq ▸ hFd

end State

end Errmark

------------------------------------------------------------
-- The Next State, Field By Field
------------------------------------------------------------

namespace Errmark

open Foundation

variable {arch : Arch}

/- `before_write` in terms of the group that is open. -/
theorem switchedFd_entered
    {s : State arch}
    {t : Turn arch}
    {regs : Regs arch}
    (hSeen : s.seen t = some regs)
    (hFd : regs.write.Watched) :
    switchedFd (openMarks (entered s t)) (entered s t).wfd
        (entered s t).waddr (entered s t).wlen =
      if IsIgnored regs.write.addr regs.write.len then
        s.openedFd
      else
        regs.write.fd := by
  have hWrite := entered_write hSeen
  rw [hWrite.1, hWrite.2.1, hWrite.2.2]
  have hFd' : regs.write.fd = 1 ∨ regs.write.fd = 2 := hFd
  by_cases hIgnored :
      IsIgnored regs.write.addr regs.write.len
  · simp [switchedFd, hIgnored, openMarks_eq,
      State.openedFd]
    rfl
  · simp [switchedFd, hIgnored, hFd']

/- What is noted about a write is noise. -/
@[simp] theorem outputOf_noteSysWrite (s : State arch) :
    outputOf (noteSysWrite s).calls =
      outputOf s.calls := by
  simp [noteSysWrite]

@[simp] theorem outputOf_noteDone (s : State arch) :
    outputOf (noteDone s).calls = outputOf s.calls := by
  simp [noteDone]

@[simp] theorem outputOf_entered
    (s : State arch)
    (t : Turn arch) :
    outputOf (entered s t).calls = outputOf s.calls := by
  simp [entered, takeArguments]

/- The entry of a watched write emits its switch. -/
theorem output_armed
    {s : State arch}
    {t : Turn arch}
    {regs : Regs arch}
    (hSeen : s.seen t = some regs)
    (hFd : regs.write.Watched) :
    outputOf (armed (entered s t) t).calls =
      outputOf s.calls ++ s.switching regs.write := by
  have hWrite := entered_write hSeen
  have hFd' : regs.write.fd = 1 ∨ regs.write.fd = 2 := hFd
  simp [armed, marked, nullifyWrite_eq, beforeWrite_eq,
    openMarks_eq, hWrite, switchCalls, State.switching,
    State.openedFd, hFd']
  rfl

/- Neither debug output nor a trace is asked for. -/
structure State.Silent (s : State arch) : Prop where
  debug : s.debug = false
  cmdDebug : s.cmd.debug = false
  verbose : s.cmd.verbose = false
  traceFbt : s.cmd.traceFbt = false

namespace State.Silent

variable {s : State arch}

/- Nothing is said about a write then. -/
theorem debugText
    (hSilent : s.Silent)
    (t : Turn arch) :
    s.debugText t = [] := by
  unfold State.debugText
  cases s.seen t <;> simp [hSilent.debug]

/- Nor is it said when it is done. -/
theorem doneText
    (hSilent : s.Silent)
    (t : Turn arch) :
    s.doneText t = [] := by
  unfold State.doneText
  cases s.seen t <;> simp [hSilent.cmdDebug]

end State.Silent

/- The entry of a write is noted before anything else. -/
theorem calls_entered
    {s : State arch}
    {t : Turn arch}
    {regs : Regs arch}
    (hSeen : s.seen t = some regs)
    (hCall : regs.ShowsWrite)
    (hToggle : s.toggle = 0)
    (hTrace : s.cmd.traceFbt = false) :
    (entered s t).calls = s.calls ++ s.debugText t := by
  cases hDebug : s.debug with
  | false =>
      simp [entered, takeArguments, noteSysWrite, guardCalls,
        traceText, hDebug, hTrace, State.debugText, hSeen]
  | true =>
      simp [entered, takeArguments, noteSysWrite, guardCalls,
        traceText, hDebug, hTrace, State.debugText, hSeen,
        hCall, hToggle, fetched_regs hSeen, Regs.write,
        Write.argumentText]

/- Only the switch makes calls between that and the write. -/
theorem calls_armed
    {s : State arch}
    {t : Turn arch}
    {regs : Regs arch}
    (hSeen : s.seen t = some regs)
    (hFd : regs.write.Watched)
    (hTrace : s.cmd.traceFbt = false) :
    (armed (entered s t) t).calls =
      (entered s t).calls ++ s.switching regs.write := by
  have hWrite := entered_write hSeen
  have hFd' : regs.write.fd = 1 ∨ regs.write.fd = 2 := hFd
  simp [armed, marked, nullifyWrite_eq, beforeWrite_eq,
    openMarks_eq, hWrite, switchCalls, State.switching,
    State.openedFd, hFd', guardCalls, traceText, hTrace]
  rfl

/- `pmem_copy` fills a fresh buffer with what it reads. -/
theorem pmemCopy_buf
    (block : Nat → UInt8)
    (memory : Memory arch)
    (raddr : arch.Word)
    (len : Nat) :
    (pmemCopy (freshBuffer block len) memory raddr len).buf =
      memcpy (freshBuffer block len) 0
        (memory.reading raddr len).bytes := by
  have hFits : len ≤ (freshBuffer block len).length := by
    simp [freshBuffer]
  exact
    (pmemCopy_follows (freshBuffer block len) memory raddr
      len hFits).buf

/- The options and the marks are never assigned to. -/
structure State.SameOptions (s s' : State arch) : Prop where
  debug : s'.debug = s.debug
  errprintFh : s'.errprintFh = s.errprintFh
  marks : s'.marks = s.marks
  cmdPath : s'.cmd.cmdPath = s.cmd.cmdPath
  cmdName : s'.cmd.cmdName = s.cmd.cmdName
  argv : s'.cmd.argv = s.cmd.argv
  verbose : s'.cmd.verbose = s.cmd.verbose
  cmdDebug : s'.cmd.debug = s.cmd.debug
  slow : s'.cmd.slow = s.cmd.slow
  traceFbt : s'.cmd.traceFbt = s.cmd.traceFbt
  nullify : s'.cmd.nullify = s.cmd.nullify
  copyFh : s'.cmd.copyFh = s.cmd.copyFh
  child : s'.cmd.child = s.cmd.child
  exitStatus : s'.exitStatus = s.exitStatus

/- The child gets the registers of the SETREGS. -/
@[simp] theorem armed_childRegs
    (s : State arch)
    {t : Turn arch}
    (hSetRegs : t.setRegs = .ok) :
    (armed s t).childRegs =
      if s.cmd.nullify then s.regs.set arch.regArg3 0
      else s.regs := by
  simp [armed, marked, nullifyWrite_eq, beforeWrite_eq,
    openMarks_eq, hSetRegs]

namespace State.SameOptions

/- The options are those there are. -/
theorem refl (s : State arch) : s.SameOptions s := by
  constructor <;> rfl

/- Options are passed on from state to state. -/
theorem trans
    {a b c : State arch}
    (hFirst : a.SameOptions b)
    (hSecond : b.SameOptions c) :
    a.SameOptions c := by
  rcases hFirst with ⟨h1, h2, h3, h4, h5, h6, h7, h8, h9,
    h10, h11, h12, h13, h14⟩
  rcases hSecond with ⟨k1, k2, k3, k4, k5, k6, k7, k8, k9,
    k10, k11, k12, k13, k14⟩
  exact ⟨k1.trans h1, k2.trans h2, k3.trans h3,
    k4.trans h4, k5.trans h5, k6.trans h6, k7.trans h7,
    k8.trans h8, k9.trans h9, k10.trans h10, k11.trans h11,
    k12.trans h12, k13.trans h13, k14.trans h14⟩

/- They can be traced back as well. -/
theorem symm
    {a b : State arch}
    (hSame : a.SameOptions b) :
    b.SameOptions a := by
  rcases hSame with ⟨h1, h2, h3, h4, h5, h6, h7, h8, h9,
    h10, h11, h12, h13, h14⟩
  exact ⟨h1.symm, h2.symm, h3.symm, h4.symm, h5.symm,
    h6.symm, h7.symm, h8.symm, h9.symm, h10.symm, h11.symm,
    h12.symm, h13.symm, h14.symm⟩

/- What holds of two states holds of what they become. -/
theorem transfer
    {a b a' b' : State arch}
    (hSame : a.SameOptions b)
    (hFirst : a.SameOptions a')
    (hSecond : b.SameOptions b') :
    a'.SameOptions b' :=
  (hFirst.symm.trans hSame).trans hSecond

/- Making calls changes no option. -/
theorem record
    (s : State arch)
    (calls : List Call) :
    s.SameOptions (s.record calls) := by
  constructor <;> rfl

/- Asking for registers changes none. -/
theorem fetched
    (s : State arch)
    (t : Turn arch) :
    s.SameOptions (Errmark.fetched s t) := by
  constructor <;> rfl

end State.SameOptions

namespace Steps

variable {s s' : State arch}
variable {t : Turn arch}

/- No iteration changes an option. -/
theorem sameOptions (hStep : Steps s t s') :
    s.SameOptions s' := by
  cases hStep with
  | idle regs hSeen hCall =>
      constructor <;> simp [resumed]
  | skipped regs hSeen hCall hToggle hFd =>
      constructor <;>
        simp [resumed, noteDone, entered, takeArguments,
          noteSysWrite]
  | streamed regs hSeen hCall hToggle hFd hCopy =>
      constructor <;>
        simp [resumed, noteDone, entered, takeArguments,
          noteSysWrite, armed, marked, nullifyWrite_eq,
          beforeWrite_eq, openMarks_eq, streamWrite]
  | copied regs hSeen hCall hToggle hFd hCopy block hBlock =>
      constructor <;>
        simp [resumed, noteDone, entered, takeArguments,
          noteSysWrite, armed, marked, nullifyWrite_eq,
          beforeWrite_eq, openMarks_eq, copyWrite]
  | left regs hSeen hCall hToggle =>
      constructor <;>
        simp [resumed, noteDone, exited, noteSysWrite,
          fakeReturn_eq]

/- A stop that shows `SYS_write` flips the toggle. -/
theorem toggle (hStep : Steps s t s') :
    s'.toggle =
      match s.seen t with
      | none => s.toggle
      | some regs =>
          if ¬ regs.ShowsWrite then s.toggle
          else if s.toggle = 0 then 1
          else 0 := by
  cases hStep with
  | idle regs hSeen hCall =>
      simp [hSeen, hCall, resumed]
  | skipped regs hSeen hCall hToggle hFd =>
      simp [hSeen, hCall, hToggle, resumed, noteDone]
  | streamed regs hSeen hCall hToggle hFd hCopy =>
      simp [hSeen, hCall, hToggle, resumed, noteDone,
        streamWrite]
  | copied regs hSeen hCall hToggle hFd hCopy block hBlock =>
      simp [hSeen, hCall, hToggle, resumed, noteDone,
        copyWrite]
  | left regs hSeen hCall hToggle =>
      simp [hSeen, hCall, hToggle, resumed, noteDone,
        exited]

/- The mark state is set by the first intercepted write. -/
theorem markState (hStep : Steps s t s') :
    s'.cmd.markState =
      match s.intercepted t with
      | none => s.cmd.markState
      | some _ =>
          if s.cmd.markState = 0 then 1
          else s.cmd.markState := by
  cases hStep with
  | idle regs hSeen hCall =>
      rw [State.intercepted_eq_none hSeen (by simp [hCall])]
      simp [resumed]
  | skipped regs hSeen hCall hToggle hFd =>
      rw [State.intercepted_eq_none hSeen (by simp [hFd])]
      simp [resumed, noteDone]
  | streamed regs hSeen hCall hToggle hFd hCopy =>
      rw [State.intercepted_eq_some hSeen hCall hToggle hFd]
      simp [resumed, noteDone, streamWrite]
      rfl
  | copied regs hSeen hCall hToggle hFd hCopy block hBlock =>
      rw [State.intercepted_eq_some hSeen hCall hToggle hFd]
      simp [resumed, noteDone, copyWrite]
      rfl
  | left regs hSeen hCall hToggle =>
      rw [State.intercepted_eq_none hSeen
        (by simp [hToggle])]
      simp [resumed, noteDone, exited, noteSysWrite,
        fakeReturn_eq]

/- `cur_fd` follows the writes that are not ignored. -/
theorem curFd (hStep : Steps s t s') :
    s'.curFd =
      match s.intercepted t with
      | none => s.curFd
      | some w =>
          if IsIgnored w.addr w.len then s.openedFd
          else w.fd := by
  cases hStep with
  | idle regs hSeen hCall =>
      rw [State.intercepted_eq_none hSeen (by simp [hCall])]
      simp [resumed]
  | skipped regs hSeen hCall hToggle hFd =>
      rw [State.intercepted_eq_none hSeen (by simp [hFd])]
      simp [resumed, noteDone]
  | streamed regs hSeen hCall hToggle hFd hCopy =>
      rw [State.intercepted_eq_some hSeen hCall hToggle hFd]
      have hSwitched := switchedFd_entered hSeen hFd
      simp [resumed, noteDone, streamWrite, hSwitched]
  | copied regs hSeen hCall hToggle hFd hCopy block hBlock =>
      rw [State.intercepted_eq_some hSeen hCall hToggle hFd]
      have hSwitched := switchedFd_entered hSeen hFd
      simp [resumed, noteDone, copyWrite, hSwitched]
  | left regs hSeen hCall hToggle =>
      rw [State.intercepted_eq_none hSeen
        (by simp [hToggle])]
      simp [resumed, noteDone, exited, noteSysWrite,
        fakeReturn_eq]

/- The arguments of a write are kept until the next one. -/
theorem arguments (hStep : Steps s t s') :
    (⟨s'.wfd, s'.waddr, s'.wlen⟩ : Write arch) =
      match s.seen t with
      | none => ⟨s.wfd, s.waddr, s.wlen⟩
      | some regs =>
          if regs.ShowsWrite ∧ s.toggle = 0 then
            regs.write
          else
            ⟨s.wfd, s.waddr, s.wlen⟩ := by
  cases hStep with
  | idle regs hSeen hCall =>
      simp [hSeen, hCall, resumed]
  | skipped regs hSeen hCall hToggle hFd =>
      have hWrite := entered_write hSeen
      simp [hSeen, hCall, hToggle, resumed, noteDone,
        hWrite]
  | streamed regs hSeen hCall hToggle hFd hCopy =>
      have hWrite := entered_write hSeen
      simp [hSeen, hCall, hToggle, resumed, noteDone,
        streamWrite, hWrite]
  | copied regs hSeen hCall hToggle hFd hCopy block hBlock =>
      have hWrite := entered_write hSeen
      simp [hSeen, hCall, hToggle, resumed, noteDone,
        copyWrite, hWrite]
  | left regs hSeen hCall hToggle =>
      simp [hSeen, hCall, hToggle, resumed, noteDone,
        exited, noteSysWrite, fakeReturn_eq]

/- The registers written back, at most once an iteration. -/
theorem setRegs (hStep : Steps s t s') :
    setRegsOf s'.requests =
      setRegsOf s.requests ++ s.writtenBack t := by
  cases hStep with
  | idle regs hSeen hCall =>
      simp [State.writtenBack, hSeen, hCall, resumed,
        setRegsOf]
  | skipped regs hSeen hCall hToggle hFd =>
      simp [State.writtenBack, hSeen, hCall, hToggle, hFd,
        resumed, noteDone, setRegsOf]
  | streamed regs hSeen hCall hToggle hFd hCopy =>
      simp [State.writtenBack, hSeen, hCall, hToggle, hFd,
        resumed, noteDone, streamWrite,
        entered_regs hSeen]
  | copied regs hSeen hCall hToggle hFd hCopy block hBlock =>
      simp [State.writtenBack, hSeen, hCall, hToggle, hFd,
        resumed, noteDone, copyWrite,
        entered_regs hSeen]
  | left regs hSeen hCall hToggle =>
      simp [State.writtenBack, hSeen, hCall, hToggle,
        resumed, noteDone, noteSysWrite,
        fetched_regs hSeen]

/- The child is resumed once, and never with a signal. -/
theorem resumes (hStep : Steps s t s') :
    resumesOf s'.requests = resumesOf s.requests ++ [0] := by
  cases hStep with
  | idle regs hSeen hCall =>
      simp [resumed]
  | skipped regs hSeen hCall hToggle hFd =>
      simp [resumed, noteDone]
  | streamed regs hSeen hCall hToggle hFd hCopy =>
      simp [resumed, noteDone, streamWrite]
  | copied regs hSeen hCall hToggle hFd hCopy block hBlock =>
      simp [resumed, noteDone, copyWrite]
  | left regs hSeen hCall hToggle =>
      simp [resumed, noteDone, noteSysWrite]

/- `child_exited` is set by each request that did not miss. -/
theorem childExited_eq (hStep : Steps s t s') :
    s'.cmd.childExited =
      (s.cmd.childExited || !t.getRegs.isGone ||
        (!(s.writtenBack t).isEmpty && !t.setRegs.isGone) ||
        !t.resume.isGone) := by
  cases hStep with
  | idle regs hSeen hCall =>
      simp [State.writtenBack, hSeen, hCall, resumed]
  | skipped regs hSeen hCall hToggle hFd =>
      simp [State.writtenBack, hSeen, hCall, hToggle, hFd,
        resumed, noteDone]
  | streamed regs hSeen hCall hToggle hFd hCopy =>
      simp [State.writtenBack, hSeen, hCall, hToggle, hFd,
        resumed, noteDone, streamWrite]
  | copied regs hSeen hCall hToggle hFd hCopy block hBlock =>
      simp [State.writtenBack, hSeen, hCall, hToggle, hFd,
        resumed, noteDone, copyWrite]
  | left regs hSeen hCall hToggle =>
      simp [State.writtenBack, hSeen, hCall, hToggle,
        resumed, noteDone, exited, noteSysWrite,
        fakeReturn_eq]

/- A request that found the child sets the flag. -/
theorem childExited
    (hStep : Steps s t s')
    (hGetRegs : t.getRegs = .ok) :
    s'.cmd.childExited = true := by
  simp [hStep.childExited_eq, hGetRegs, Reply.isGone]

/- The flag is never taken back. -/
theorem childExited_mono
    (hStep : Steps s t s')
    (hExited : s.cmd.childExited = true) :
    s'.cmd.childExited = true := by
  simp [hStep.childExited_eq, hExited]

/- The output grows by what the iteration emits. -/
theorem output (hStep : Steps s t s') :
    s'.output = s.output ++ s.emission t := by
  cases hStep with
  | idle regs hSeen hCall =>
      rw [State.emission,
        State.intercepted_eq_none hSeen (by simp [hCall])]
      simp [State.output, resumed]
  | skipped regs hSeen hCall hToggle hFd =>
      rw [State.emission,
        State.intercepted_eq_none hSeen (by simp [hFd])]
      simp [State.output, resumed]
  | streamed regs hSeen hCall hToggle hFd hCopy =>
      rw [State.emission,
        State.intercepted_eq_some hSeen hCall hToggle hFd]
      have hWrite := entered_write hSeen
      simp [State.output, resumed, streamWrite,
        output_armed hSeen hFd, Write.emission, hCopy,
        hWrite]
  | copied regs hSeen hCall hToggle hFd hCopy block hBlock =>
      rw [State.emission,
        State.intercepted_eq_some hSeen hCall hToggle hFd]
      have hWrite := entered_write hSeen
      simp [State.output, resumed, copyWrite,
        output_armed hSeen hFd, Write.emission, hCopy,
        hBlock, hWrite, pmemCopy_buf, Write.copied,
        Write.reading]
  | left regs hSeen hCall hToggle =>
      rw [State.emission,
        State.intercepted_eq_none hSeen
          (by simp [hToggle])]
      simp [State.output, resumed, exited,
        fakeReturn_eq]

/- The calls of an iteration, unless requests are traced. -/
theorem calls
    (hStep : Steps s t s')
    (hTrace : s.cmd.traceFbt = false) :
    s'.calls =
      s.calls ++
        (s.debugText t ++ s.emission t ++ s.doneText t) := by
  cases hStep with
  | idle regs hSeen hCall =>
      rw [State.emission,
        State.intercepted_eq_none hSeen (by simp [hCall])]
      simp [resumed, guardCalls, traceText, hTrace,
        State.debugText, State.doneText, hSeen, hCall]
  | skipped regs hSeen hCall hToggle hFd =>
      rw [State.emission,
        State.intercepted_eq_none hSeen (by simp [hFd])]
      have hEntered :=
        calls_entered hSeen hCall hToggle hTrace
      cases hDebug : s.cmd.debug <;>
        simp [resumed, noteDone, hEntered, guardCalls,
          traceText, hTrace, State.doneText, hSeen, hCall,
          hDebug]
  | streamed regs hSeen hCall hToggle hFd hCopy =>
      rw [State.emission,
        State.intercepted_eq_some hSeen hCall hToggle hFd]
      have hWrite := entered_write hSeen
      have hEntered :=
        calls_entered hSeen hCall hToggle hTrace
      have hArmed := calls_armed hSeen hFd hTrace
      cases hDebug : s.cmd.debug <;>
        simp [resumed, noteDone, streamWrite, hArmed,
          hEntered, Write.emission, hCopy, hWrite,
          guardCalls, traceText, hTrace, State.doneText,
          hSeen, hCall, hDebug]
  | copied regs hSeen hCall hToggle hFd hCopy block hBlock =>
      rw [State.emission,
        State.intercepted_eq_some hSeen hCall hToggle hFd]
      have hWrite := entered_write hSeen
      have hEntered :=
        calls_entered hSeen hCall hToggle hTrace
      have hArmed := calls_armed hSeen hFd hTrace
      cases hDebug : s.cmd.debug <;>
        simp [resumed, noteDone, copyWrite, hArmed,
          hEntered, Write.emission, hCopy, hBlock, hWrite,
          pmemCopy_buf, Write.copied, Write.reading,
          guardCalls, traceText, hTrace, State.doneText,
          hSeen, hCall, hDebug]
  | left regs hSeen hCall hToggle =>
      rw [State.emission,
        State.intercepted_eq_none hSeen
          (by simp [hToggle])]
      cases hDebug : s.cmd.debug <;>
        cases hText : s.debug <;>
          simp [resumed, noteDone, exited, noteSysWrite,
            fakeReturn_eq, guardCalls, traceText, hTrace,
            State.debugText, State.doneText, hSeen, hCall,
            hToggle, hDebug, hText]

/- A silent errmark makes the calls of its output only. -/
theorem calls_of_silent
    (hStep : Steps s t s')
    (hSilent : s.Silent) :
    s'.calls = s.calls ++ s.emission t := by
  have hCalls := hStep.calls hSilent.traceFbt
  rw [hSilent.debugText, hSilent.doneText,
    List.nil_append, List.append_nil] at hCalls
  exact hCalls

/- The registers the child is resumed with. -/
theorem childRegs
    (hStep : Steps s t s')
    (hSetRegs : t.setRegs = .ok) :
    s'.childRegs =
      match s.writtenBack t with
      | [] => t.regs
      | regs :: _ => regs := by
  cases hStep with
  | idle regs hSeen hCall =>
      simp [State.writtenBack, hSeen, hCall, resumed]
  | skipped regs hSeen hCall hToggle hFd =>
      simp [State.writtenBack, hSeen, hCall, hToggle, hFd,
        resumed, noteDone]
  | streamed regs hSeen hCall hToggle hFd hCopy =>
      simp [State.writtenBack, hSeen, hCall, hToggle, hFd,
        resumed, noteDone, streamWrite, armed_childRegs,
        hSetRegs, entered_regs hSeen]
  | copied regs hSeen hCall hToggle hFd hCopy block hBlock =>
      simp [State.writtenBack, hSeen, hCall, hToggle, hFd,
        resumed, noteDone, copyWrite, armed_childRegs,
        hSetRegs, entered_regs hSeen]
  | left regs hSeen hCall hToggle =>
      simp [State.writtenBack, hSeen, hCall, hToggle,
        resumed, noteDone, exited, hSetRegs, noteSysWrite,
        fakeReturn_eq, fetched_regs hSeen]

end Steps

end Errmark

------------------------------------------------------------
-- Options Along A Run
------------------------------------------------------------

namespace Errmark

open Foundation

variable {arch : Arch}

/- No run changes an option. -/
theorem sameOptions_of_run
    {s s' : State arch}
    {turns : List (Turn arch)}
    (hRun : run iteration s turns = .next s') :
    s.SameOptions s' := by
  apply invariant_of_run
    (fun mid : State arch => s.SameOptions mid)
    _ (State.SameOptions.refl s) hRun
  intro mid t mid' hInv hStep
  exact hInv.trans (steps_of_iteration hStep).sameOptions

end Errmark

------------------------------------------------------------
-- Marks And Bytes
------------------------------------------------------------

namespace Errmark

variable {arch : Arch}

namespace Marks

/- The marks a descriptor has at an edge, as a list. -/
def edgeMarks
    (marks : Marks)
    (fd : Int)
    (edge : Edge) : List Mark :=
  match marks.text fd edge with
  | none => []
  | some text => [⟨fd, edge, text⟩]

/- The calls for a mark write it, and no data or text. -/
@[simp] theorem calls_marks
    (marks : Marks)
    (fd : Int)
    (edge : Edge) :
    (marks.calls fd edge).flatMap Call.marks =
      marks.edgeMarks fd edge := by
  unfold calls Marks.edgeMarks
  cases marks.text fd edge <;> simp [markCalls]

@[simp] theorem calls_toStdout
    (marks : Marks)
    (fd : Int)
    (edge : Edge) :
    (marks.calls fd edge).flatMap Call.toStdout = [] := by
  unfold calls
  cases marks.text fd edge <;> simp [markCalls]

@[simp] theorem calls_toCopy
    (marks : Marks)
    (fd : Int)
    (edge : Edge) :
    (marks.calls fd edge).flatMap Call.toCopy = [] := by
  unfold calls
  cases marks.text fd edge <;> simp [markCalls]

@[simp] theorem calls_textTo
    (marks : Marks)
    (fd : Int)
    (edge : Edge)
    (file : File) :
    (marks.calls fd edge).flatMap (Call.textTo file) =
      [] := by
  unfold calls
  cases marks.text fd edge <;> simp [markCalls]

end Marks

namespace Write

/- The bytes of a write that go to stdout. -/
def emitted
    (w : Write arch)
    (copyFh : Bool)
    (t : Turn arch) : List OutByte :=
  if w.IsCopied copyFh then
    match t.malloc with
    | none => []
    | some block => w.copied t.memory block
  else
    w.streamed t.memory

/- The bytes of a write that go to the copy. -/
def copyEmitted
    (w : Write arch)
    (copyFh : Bool)
    (t : Turn arch) : List OutByte :=
  if w.IsCopied copyFh then
    w.emitted copyFh t
  else
    []

/- The data of a write holds no mark. -/
theorem emission_marks
    (w : Write arch)
    (copyFh : Bool)
    (t : Turn arch) :
    (w.emission copyFh t).flatMap Call.marks = [] := by
  unfold emission
  split
  · cases t.malloc <;> simp
  · rw [List.flatMap_eq_nil_iff]
    intro call hMem
    rcases List.mem_flatMap.mp hMem with
      ⟨pmemCall, _, hLift⟩
    cases pmemCall <;> simp_all [PmemCall.lift]

/- What `pmem_fwrite` writes goes to stdout. -/
theorem lift_toStdout
    (fd : Int)
    (calls : List (PmemCall arch)) :
    (calls.flatMap (PmemCall.lift .stdout fd)).flatMap
        Call.toStdout =
      (PmemFwrite.written ⟨0, calls⟩).map fun b =>
        ⟨fd, .stored b⟩ := by
  induction calls with
  | nil => rfl
  | cons call calls ih =>
      rw [List.flatMap_cons, List.flatMap_append, ih]
      cases call <;>
        simp [PmemCall.lift, PmemFwrite.written]

/- None of it goes to the copy. -/
theorem lift_toCopy
    (fd : Int)
    (calls : List (PmemCall arch)) :
    (calls.flatMap (PmemCall.lift .stdout fd)).flatMap
      Call.toCopy = [] := by
  induction calls with
  | nil => rfl
  | cons call calls ih =>
      rw [List.flatMap_cons, List.flatMap_append, ih]
      cases call <;> simp [PmemCall.lift]

/- The calls for a write put its bytes on stdout. -/
theorem emission_toStdout
    (w : Write arch)
    (copyFh : Bool)
    (t : Turn arch) :
    (w.emission copyFh t).flatMap Call.toStdout =
      w.emitted copyFh t := by
  unfold emission emitted
  split
  · cases t.malloc <;> simp
  · have hWritten :=
      (pmemFwrite_follows t.memory w.addr
        w.len.toNat).written
    rw [lift_toStdout]
    rw [streamed, reading, ← hWritten]
    rfl

/- They put the same bytes in the copy, if there is one. -/
theorem emission_toCopy
    (w : Write arch)
    (copyFh : Bool)
    (t : Turn arch) :
    (w.emission copyFh t).flatMap Call.toCopy =
      w.copyEmitted copyFh t := by
  unfold emission copyEmitted emitted
  split
  · cases t.malloc <;> simp
  · exact lift_toCopy w.fd _

end Write

namespace State

/- The marks by which a write switches groups. -/
def switchMarks
    (s : State arch)
    (w : Write arch) : List Mark :=
  if ¬ IsIgnored w.addr w.len ∧ w.fd ≠ s.openedFd then
    s.marks.edgeMarks s.openedFd .finish ++
      s.marks.edgeMarks w.fd .start
  else
    []

/- Switching groups writes marks only. -/
theorem switching_marks
    (s : State arch)
    (w : Write arch) :
    (s.switching w).flatMap Call.marks =
      s.switchMarks w := by
  simp [switching, switchMarks]

theorem switching_toStdout
    (s : State arch)
    (w : Write arch) :
    (s.switching w).flatMap Call.toStdout = [] := by
  simp [switching]

theorem switching_toCopy
    (s : State arch)
    (w : Write arch) :
    (s.switching w).flatMap Call.toCopy = [] := by
  simp [switching]

/- Noise holds no marks and no data. -/
theorem output_marks (s : State arch) :
    s.output.flatMap Call.marks = s.marksWritten := by
  apply s.flatMap_output
  intro call hNoise
  cases call <;> simp_all [Call.isNoise]

theorem output_toStdout (s : State arch) :
    s.output.flatMap Call.toStdout = s.stdoutBytes := by
  apply s.flatMap_output
  intro call hNoise
  cases call <;> simp_all [Call.isNoise]

theorem output_toCopy (s : State arch) :
    s.output.flatMap Call.toCopy = s.copyBytes := by
  apply s.flatMap_output
  intro call hNoise
  cases call <;> simp_all [Call.isNoise]

end State

namespace Steps

variable {s s' : State arch}
variable {t : Turn arch}

/- An iteration writes the marks of a switch. -/
theorem marksWritten (hStep : Steps s t s') :
    s'.marksWritten =
      s.marksWritten ++
        match s.intercepted t with
        | none => []
        | some w => s.switchMarks w := by
  rw [← State.output_marks, hStep.output,
    List.flatMap_append, State.output_marks,
    State.emission]
  cases s.intercepted t with
  | none => rfl
  | some w =>
      simp [State.switching_marks, Write.emission_marks]

/- It emits the bytes of the write it intercepts. -/
theorem stdoutBytes (hStep : Steps s t s') :
    s'.stdoutBytes =
      s.stdoutBytes ++
        match s.intercepted t with
        | none => []
        | some w => w.emitted s.cmd.copyFh t := by
  rw [← State.output_toStdout, hStep.output,
    List.flatMap_append, State.output_toStdout,
    State.emission]
  cases s.intercepted t with
  | none => rfl
  | some w =>
      simp [State.switching_toStdout,
        Write.emission_toStdout]

/- It copies those for fd 2. -/
theorem copyBytes (hStep : Steps s t s') :
    s'.copyBytes =
      s.copyBytes ++
        match s.intercepted t with
        | none => []
        | some w => w.copyEmitted s.cmd.copyFh t := by
  rw [← State.output_toCopy, hStep.output,
    List.flatMap_append, State.output_toCopy,
    State.emission]
  cases s.intercepted t with
  | none => rfl
  | some w =>
      simp [State.switching_toCopy, Write.emission_toCopy]

end Steps

end Errmark

------------------------------------------------------------
-- The Text Of errmark
------------------------------------------------------------

namespace Errmark

open Foundation

variable {arch : Arch}
variable {file : File}

/- No text is among the calls that emit a write. -/
theorem Write.emission_textTo
    (w : Write arch)
    (copyFh : Bool)
    (t : Turn arch)
    (file : File) :
    (w.emission copyFh t).flatMap (Call.textTo file) =
      [] := by
  unfold emission
  split
  · cases t.malloc <;> simp
  · rw [List.flatMap_eq_nil_iff]
    intro call hMem
    rcases List.mem_flatMap.mp hMem with
      ⟨pmemCall, _, hLift⟩
    cases pmemCall <;> simp_all [PmemCall.lift]

/- Output is no text of errmark. -/
theorem State.emission_textTo
    (s : State arch)
    (t : Turn arch)
    (file : File) :
    (s.emission t).flatMap (Call.textTo file) = [] := by
  unfold State.emission
  cases s.intercepted t with
  | none => rfl
  | some w =>
      simp [State.switching, Write.emission_textTo]

/- What `--debug` prints is for stderr. -/
theorem State.debugText_textTo
    (s : State arch)
    (t : Turn arch)
    (hFile : file ≠ .stderr) :
    (s.debugText t).flatMap (Call.textTo file) = [] := by
  unfold State.debugText
  cases s.seen t with
  | none => rfl
  | some regs =>
      simp [Write.argumentText, hFile.symm]

/- Nor does it tell another stream that it is done. -/
theorem State.doneText_textTo
    (s : State arch)
    (t : Turn arch)
    (hFile : file ≠ .stderr) :
    (s.doneText t).flatMap (Call.textTo file) = [] := by
  unfold State.doneText
  cases s.seen t with
  | none => rfl
  | some regs => simp [hFile.symm]

/- In its loop errmark itself says things to stderr only. -/
theorem Steps.textTo
    {s s' : State arch}
    {t : Turn arch}
    (hStep : Steps s t s')
    (hTrace : s.cmd.traceFbt = false)
    (hFile : file ≠ .stderr) :
    s'.textTo file = s.textTo file := by
  rw [State.textTo, hStep.calls hTrace]
  simp only [List.flatMap_append, State.emission_textTo,
    s.debugText_textTo t hFile, s.doneText_textTo t hFile,
    List.append_nil]
  rfl

/- A whole run says nothing to another stream. -/
theorem textTo_of_run
    {s s' : State arch}
    {turns : List (Turn arch)}
    (hTrace : s.cmd.traceFbt = false)
    (hFile : file ≠ .stderr)
    (hRun : run iteration s turns = .next s') :
    s'.textTo file = s.textTo file := by
  induction turns generalizing s with
  | nil =>
      cases hRun
      rfl
  | cons t turns ih =>
      rw [run_cons, Outcome.andThen_eq_next_iff] at hRun
      rcases hRun with ⟨mid, hFirst, hRest⟩
      have hStep := steps_of_iteration hFirst
      have hMid : mid.cmd.traceFbt = false :=
        hStep.sameOptions.traceFbt.trans hTrace
      rw [ih hMid hRest, hStep.textTo hTrace hFile]

end Errmark
