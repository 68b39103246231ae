import Errmark.Foundation.Marking
import Errmark.Program.Colors
import Errmark.Properties.Terminal

/-
  Telling the two descriptors apart on a shared terminal.

  If the marks of one descriptor are set and those of the
  other are not, the marks delimit the groups of the first
  one. When they begin with a byte that the program does not
  write, the terminal can be read back into the program's
  bytes, each with the descriptor it was written to, in
  whatever state errmark is.

  Key definitions include:
    * `Marks.Isolate`
    * `Stop.taggedBytes`
    * `WritesNo`

  Key theorems include:
    * `terminal_marked`
    * `unmark_terminal`
-/

------------------------------------------------------------
-- Marks Of One Descriptor
------------------------------------------------------------

namespace Errmark

open Foundation

variable {arch : Arch}

/- Only the marks of one descriptor are set. -/
structure Marks.Isolate
    (marks : Marks)
    (d : Int)
    (m : Marker UInt8) : Prop where
  start : marks.text d .start = some m.opening
  finish : marks.text d .finish = some m.closing
  others : ∀ fd edge, fd ≠ d → marks.text fd edge = none

/- A write, with whether it is to the given descriptor. -/
def markedPart
    (d : Int)
    (w : Int × List UInt8) : Bool × List UInt8 :=
  (w.1 = d, w.2)

/- The bytes a stop makes the program write, tagged. -/
def Stop.taggedBytes
    (d : Int)
    (stop : Stop arch) : List (Bool × UInt8) :=
  taggedItems (stop.writes.map (markedPart d))

namespace Marks.Isolate

variable {marks : Marks}
variable {d : Int}
variable {m : Marker UInt8}

/- Only one descriptor is marked at the start of its groups. -/
theorem bytes_start
    (hIsolate : marks.Isolate d m)
    (fd : Int) :
    marks.bytes fd .start =
      if fd = d then m.opening else [] := by
  unfold Marks.bytes
  by_cases hFd : fd = d
  · simp [hFd, hIsolate.start]
  · simp [hFd, hIsolate.others fd .start hFd]

/- It alone is marked at the end. -/
theorem bytes_finish
    (hIsolate : marks.Isolate d m)
    (fd : Int) :
    marks.bytes fd .finish =
      if fd = d then m.closing else [] := by
  unfold Marks.bytes
  by_cases hFd : fd = d
  · simp [hFd, hIsolate.finish]
  · simp [hFd, hIsolate.others fd .finish hFd]

/- A switch of groups is a switch of the marker. -/
theorem switch_eq
    (hIsolate : marks.Isolate d m)
    (r : Reference)
    (fd : Int) :
    r.switch marks fd =
      m.switch (r.current = some d) (fd = d) := by
  unfold Reference.switch Marker.switch
  rw [hIsolate.bytes_start]
  cases hCurrent : r.current with
  | none =>
      by_cases hFd : fd = d
      · simp [hFd]
      · simp [hFd]
  | some last =>
      simp only [Option.some.injEq]
      rw [hIsolate.bytes_finish]
      by_cases hFd : fd = d
      · by_cases hLast : last = d
        · simp [hFd, hLast]
        · simp [hFd, hLast]
      · by_cases hLast : last = d
        · have hSwitch : ¬ d = fd := Ne.symm hFd
          simp [hFd, hLast, hSwitch]
        · simp [hFd, hLast]

/- The stream of some writes is the marked stream. -/
theorem stream_eq
    (hIsolate : marks.Isolate d m)
    (r : Reference)
    (writes : List (Int × List UInt8)) :
    (writes.foldl (Reference.step marks) r).stream =
      r.stream ++
        m.mark (r.current = some d)
          (writes.map (markedPart d)) := by
  induction writes generalizing r with
  | nil => simp [Marker.mark]
  | cons w writes ih =>
      rw [List.foldl_cons, ih, List.map_cons, Marker.mark]
      simp only [Reference.step, hIsolate.switch_eq,
        Option.some.injEq, markedPart, List.append_assoc]

/- What is written on the way out is closing words. -/
theorem closing_eq
    (hIsolate : marks.Isolate d m)
    (r : Reference)
    (n : Nat) :
    ∃ k,
      (List.replicate n (r.closing marks)).flatten =
        (List.replicate k m.closing).flatten := by
  have hNone :
      (List.replicate n ([] : List UInt8)).flatten =
        (List.replicate 0 m.closing).flatten := by
    simp
  unfold Reference.closing
  cases r.current with
  | none => exact ⟨0, hNone⟩
  | some last =>
      dsimp only
      rw [hIsolate.bytes_finish]
      by_cases hLast : last = d
      · rw [if_pos hLast]
        exact ⟨n, rfl⟩
      · rw [if_neg hLast]
        exact ⟨0, hNone⟩

end Marks.Isolate

/- The tagged bytes of some writes, write by write. -/
theorem taggedItems_writes
    (d : Int)
    (stops : List (Stop arch)) :
    taggedItems
        ((stops.flatMap Stop.writes).map (markedPart d)) =
      stops.flatMap (Stop.taggedBytes d) := by
  simp only [taggedItems, List.map_flatMap,
    List.flatMap_assoc]
  rfl

end Errmark

------------------------------------------------------------
-- Reading The Terminal
------------------------------------------------------------

namespace Errmark

open Foundation

variable {arch : Arch}

/- What the terminal has got is the marked stream. -/
theorem terminal_marked
    {setup : Setup arch}
    {stops : List (Stop arch)}
    (render : Diagnostic → List UInt8)
    (early : Nat → List (Int × Nat))
    {d : Int}
    {m : Marker UInt8}
    (hIsolate : setup.marks.Isolate d m)
    (hUndisturbed : setup.Undisturbed stops)
    {s' : State arch}
    (hReaches : setup.Reaches stops s') :
    ∃ k,
      s'.onTerminal render early =
        m.mark false
            ((stops.flatMap Stop.writes).map
              (markedPart d)) ++
          (List.replicate k m.closing).flatten := by
  rcases terminal_reached hUndisturbed render early
      hReaches with ⟨n, hTerminal⟩
  rcases hIsolate.closing_eq (setup.played stops) n with
    ⟨k, hClosing⟩
  have hStream :
      (setup.played stops).stream =
        m.mark false
          ((stops.flatMap Stop.writes).map
            (markedPart d)) := by
    rw [Setup.played, hIsolate.stream_eq]
    rfl
  rw [hTerminal, hStream, hClosing]
  exact ⟨k, rfl⟩

/- No write of the program holds a byte. -/
def WritesNo
    (b : UInt8)
    (stops : List (Stop arch)) : Prop :=
  ∀ stop ∈ stops, ∀ w ∈ stop.writes, b ∉ w.2

/- No part that is written holds the byte. -/
theorem WritesNo.parts
    {b : UInt8}
    {stops : List (Stop arch)}
    (hWrites : WritesNo b stops)
    (d : Int) :
    ∀ part ∈
        (stops.flatMap Stop.writes).map (markedPart d),
      b ∉ part.2 := by
  intro part hPart
  rcases List.mem_map.mp hPart with ⟨w, hMem, rfl⟩
  rcases List.mem_flatMap.mp hMem with ⟨stop, hStop, hIn⟩
  exact hWrites stop hStop w hIn

/-
  Whatever state errmark is in, running or returned, the
  terminal is read back into the bytes of the program, each
  with whether it was written to the marked descriptor. None
  of them is there twice: the writes of the program itself
  are nullified.
-/
theorem unmark_terminal
    (setup : Setup arch)
    (stops : List (Stop arch))
    (render : Diagnostic → List UInt8)
    (early : Nat → List (Int × Nat))
    {d : Int}
    {m : Marker UInt8}
    (hIsolate : setup.marks.Isolate d m)
    (hUndisturbed : setup.Undisturbed stops)
    (hLead : WritesNo m.lead stops)
    {s' : State arch}
    (hReaches : setup.Reaches stops s') :
    m.unmark false 0 (s'.onTerminal render early) =
        stops.flatMap (Stop.taggedBytes d) ∧
      setup.Nullifies stops := by
  constructor
  · rcases terminal_marked render early hIsolate
        hUndisturbed hReaches with ⟨k, hTerminal⟩
    rw [hTerminal,
      m.unmark_mark_closed false (hLead.parts d),
      taggedItems_writes]
  · exact
      nullifies_of_calls hUndisturbed.admitted
        hUndisturbed.calls

/- The marks of `--color red`, as a marker. -/
def redMarker : Marker UInt8 where
  lead := 0x1b
  opening := escSequence "[0;31m"
  closing := escSequence "[m"
  opening_lead := rfl
  closing_lead := rfl
  opening_not_prefix := by decide +kernel
  closing_not_prefix := by decide +kernel

/- fd 2 is written in red. -/
def sampleRed : Setup .x86_64 :=
  { sampleSetup true with
    marks :=
      ⟨none, none, some redMarker.opening,
        some redMarker.closing⟩ }

/- A write to fd 1, then one to fd 2. -/
def sampleMixed : List (Stop .x86_64) :=
  sampleStops 1 1 ++ (sampleStops 2 3).tail

/- Its marks are those of fd 2 alone. -/
theorem sampleRed_isolate :
    sampleRed.marks.Isolate 2 redMarker where
  start := rfl
  finish := rfl
  others := by
    intro fd edge hFd
    unfold Marks.text
    rw [if_neg hFd]
    cases edge <;> exact ite_self none

/- Nothing disturbs errmark. -/
theorem sampleMixed_undisturbed :
    sampleRed.Undisturbed sampleMixed where
  silent := ⟨rfl, rfl⟩
  admitted := by decide +kernel
  calls := by decide +kernel
  kept := by decide +kernel
  whole := by decide +kernel
  room := by decide +kernel

/- No write holds ESC. -/
theorem sampleMixed_plain : WritesNo 0x1b sampleMixed := by
  unfold WritesNo
  decide +kernel

/- errmark has returned, and the last group is closed twice. -/
theorem sampleMixed_reaches :
    ∃ s', sampleRed.Reaches sampleMixed s' := by
  rcases sampleMixed_undisturbed.follows fun _ => [] with
    ⟨s, hRun, _⟩
  rcases leave_of_gone (t := goneTurn 0) rfl
      (childExited_of_run (by simp [sampleMixed, sampleStops])
        hRun) with ⟨last, hLeave⟩
  exact
    ⟨afterTracing (afterLoop last), s, hRun,
      Or.inr ⟨goneTurn 0, last, hLeave, rfl⟩⟩

/- The bytes, and whether they went to fd 2. -/
theorem sampleMixed_tagged :
    sampleMixed.flatMap (Stop.taggedBytes 2) =
      [(false, 0x78), (true, 0x78), (true, 0x78),
        (true, 0x78)] := by
  decide +kernel

/- They are found again on the terminal. -/
theorem sample_unmark_terminal :
    ∃ s',
      sampleRed.Reaches sampleMixed s' ∧
        redMarker.unmark false 0
            (s'.onTerminal (fun _ => [])
              fun k => [(1, k)]) =
          [(false, 0x78), (true, 0x78), (true, 0x78),
            (true, 0x78)] ∧
        sampleRed.Nullifies sampleMixed := by
  rcases sampleMixed_reaches with ⟨s', hReaches⟩
  refine ⟨s', hReaches, ?_⟩
  rw [← sampleMixed_tagged]
  exact
    unmark_terminal sampleRed sampleMixed (fun _ => [])
      (fun k => [(1, k)]) sampleRed_isolate
      sampleMixed_undisturbed sampleMixed_plain hReaches

end Errmark
