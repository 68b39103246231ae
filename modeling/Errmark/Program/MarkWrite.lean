import Errmark.Program.State

/-
  `mark-write.c`: the marks around groups of writes.

  The four mark writers are one function of a descriptor, an
  edge and a mark string: with no string they do nothing,
  otherwise they flush both streams and write the string.

  Key definitions include:
    * `markCalls`
    * `switchFromFd`
    * `switchToFd`
    * `beforeWrite`
    * `afterWrite`
    * `markOpen`
    * `markClose`
-/

------------------------------------------------------------
-- Mark Writers
------------------------------------------------------------

namespace Errmark

variable {arch : Arch}

/- The calls of a mark writer. -/
def markCalls
    (fd : Int)
    (edge : Edge) : Option (List UInt8) → List Call
| none => []
| some text =>
    [.fflush .stdout, .fflush .stderr,
      .write ⟨fd, edge, text⟩]

/- `write_start_stdout` -/
def writeStartStdout (s : State arch) : State arch :=
  s.record (markCalls 1 .start s.marks.start1)

/- `write_end_stdout` -/
def writeEndStdout (s : State arch) : State arch :=
  s.record (markCalls 1 .finish s.marks.end1)

/- `write_start_stderr` -/
def writeStartStderr (s : State arch) : State arch :=
  s.record (markCalls 2 .start s.marks.start2)

/- `write_end_stderr` -/
def writeEndStderr (s : State arch) : State arch :=
  s.record (markCalls 2 .finish s.marks.end2)

end Errmark

------------------------------------------------------------
-- Groups Of Writes
------------------------------------------------------------

namespace Errmark

variable {arch : Arch}

/- `switch_from_fd` -/
def switchFromFd
    (s : State arch)
    (fd : Int) : State arch :=
  let s := if fd = 1 then writeEndStdout s else s
  if fd = 2 then writeEndStderr s else s

/- `switch_to_fd` -/
def switchToFd
    (s : State arch)
    (fd : Int) : State arch :=
  let s := if fd = 1 then writeStartStdout s else s
  if fd = 2 then writeStartStderr s else s

/- `(size_t)(-1)` -/
def sizeMax (arch : Arch) : arch.Word := -1

/- The writes that never switch groups. -/
def IsIgnored (buf len : arch.Word) : Prop :=
  buf = 0 ∨ len = sizeMax arch

instance (buf len : arch.Word) :
    Decidable (IsIgnored buf len) := by
  unfold IsIgnored
  infer_instance

/-
  `before_write`: the group is switched, unless the write
  is ignored.
-/
def beforeWrite
    (s : State arch)
    (fd : Int)
    (buf len : arch.Word) : State arch :=
  if IsIgnored buf len then
    s
  else if (fd = 1 ∨ fd = 2) ∧ fd ≠ s.curFd then
    let s := switchFromFd s s.curFd
    let s := switchToFd s fd
    { s with curFd := fd }
  else
    s

/- Ending marks are only written on a transition. -/
def afterWrite
    (s : State arch)
    (fd : Int)
    (buf len : arch.Word) : State arch :=
  if ¬(fd = 1 ∨ fd = 2) then
    s
  else if IsIgnored buf len then
    s
  else
    s

/- `mark_open` -/
def markOpen (s : State arch) : State arch :=
  { s with curFd := -1 }

/-
  `mark_close`: the open group is closed, and none is
  opened.
-/
def markClose (s : State arch) : State arch :=
  switchFromFd s s.curFd

end Errmark

------------------------------------------------------------
-- Calls Of A Switch
------------------------------------------------------------

namespace Errmark

variable {arch : Arch}

namespace Marks

/- The mark string of a descriptor at an edge. -/
def text
    (marks : Marks)
    (fd : Int)
    (edge : Edge) : Option (List UInt8) :=
  if fd = 1 then
    match edge with
    | .start => marks.start1
    | .finish => marks.end1
  else if fd = 2 then
    match edge with
    | .start => marks.start2
    | .finish => marks.end2
  else
    none

/- The calls that write a descriptor's mark at an edge. -/
def calls
    (marks : Marks)
    (fd : Int)
    (edge : Edge) : List Call :=
  markCalls fd edge (marks.text fd edge)

end Marks

/- Leaving a group writes its ending mark. -/
theorem switchFromFd_eq
    (s : State arch)
    (fd : Int) :
    switchFromFd s fd =
      s.record (s.marks.calls fd .finish) := by
  unfold switchFromFd Marks.calls Marks.text
  by_cases hOut : fd = 1
  · subst hOut
    simp [writeEndStdout]
  · by_cases hErr : fd = 2
    · subst hErr
      simp [writeEndStderr]
    · simp [hOut, hErr, markCalls]

/- Entering a group writes its starting mark. -/
theorem switchToFd_eq
    (s : State arch)
    (fd : Int) :
    switchToFd s fd =
      s.record (s.marks.calls fd .start) := by
  unfold switchToFd Marks.calls Marks.text
  by_cases hOut : fd = 1
  · subst hOut
    simp [writeStartStdout]
  · by_cases hErr : fd = 2
    · subst hErr
      simp [writeStartStderr]
    · simp [hOut, hErr, markCalls]

/- The calls of `before_write`. -/
def switchCalls
    (s : State arch)
    (fd : Int)
    (buf len : arch.Word) : List Call :=
  if ¬ IsIgnored buf len ∧ (fd = 1 ∨ fd = 2) ∧
      fd ≠ s.curFd then
    s.marks.calls s.curFd .finish ++
      s.marks.calls fd .start
  else
    []

/- The current descriptor after `before_write`. -/
def switchedFd
    (s : State arch)
    (fd : Int)
    (buf len : arch.Word) : Int :=
  if ¬ IsIgnored buf len ∧ (fd = 1 ∨ fd = 2) then
    fd
  else
    s.curFd

/- `before_write` makes calls and sets `cur_fd`. -/
theorem beforeWrite_eq
    (s : State arch)
    (fd : Int)
    (buf len : arch.Word) :
    beforeWrite s fd buf len =
      { s.record (switchCalls s fd buf len) with
        curFd := switchedFd s fd buf len } := by
  unfold beforeWrite switchCalls switchedFd
  by_cases hSkip : IsIgnored buf len
  · simp [hSkip]
  · by_cases hFd : fd = 1 ∨ fd = 2
    · by_cases hSame : fd = s.curFd
      · simp [hSkip, hSame]
      · simp [hSkip, hSame, hFd, switchFromFd_eq,
          switchToFd_eq]
    · simp [hSkip, hFd]

/- `after_write` does nothing. -/
@[simp] theorem afterWrite_eq
    (s : State arch)
    (fd : Int)
    (buf len : arch.Word) :
    afterWrite s fd buf len = s := by
  unfold afterWrite
  split
  · rfl
  · split <;> rfl

/- Closing writes the ending mark of the current group. -/
theorem markClose_eq (s : State arch) :
    markClose s =
      s.record (s.marks.calls s.curFd .finish) :=
  switchFromFd_eq s s.curFd

end Errmark
