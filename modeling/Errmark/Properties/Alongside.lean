import Mathlib.Data.List.Forall2
import Errmark.Foundation.Omissions
import Errmark.Properties.Terminal
import Errmark.Tracee.Sessions
import Errmark.Tracee.Tracking

/-
  A program that runs alone, and the same program traced, go
  on side by side.

  If each write is from a buffer the program can read, every
  call takes similar images to similar images, or ends both
  programs with the same code. errmark meets an entry and,
  if the call returns, an exit.

  Key definitions include:
    * `Session.Sound`
    * `Session.Plays`
    * `Alongside`

  Key theorems include:
    * `Session.Sound.meets`
    * `Alongside.call`
    * `alongside_traced`
-/

------------------------------------------------------------
-- errmark Meets A Stop
------------------------------------------------------------

namespace Errmark

open Foundation

variable {arch : Arch}
variable {setup : Setup arch}

/- One more system call leaves a run undisturbed. -/
theorem Setup.Undisturbed.snoc
    {stops : List (Stop arch)}
    (hUndisturbed : setup.Undisturbed stops)
    {stop : Stop arch}
    (hAllows :
      (Phase.starting.afterAll stops).Allows stop)
    (hCall : ¬ stop.IsSignal)
    (hBlock : stop.malloc.isSome)
    (hKept :
      stop.EntersWrite →
        ¬ IsIgnored stop.regs.write.addr
          stop.regs.write.len)
    (hWhole :
      stop.EntersWrite →
        stop.regs.write.IsWhole stop.memory) :
    setup.Undisturbed (stops ++ [stop]) where
  silent := hUndisturbed.silent
  admitted :=
    admitted_append_iff.mpr
      ⟨hUndisturbed.admitted, hAllows, trivial⟩
  calls := by
    rw [List.forall_mem_append, List.forall_mem_singleton]
    exact ⟨hUndisturbed.calls, hCall⟩
  kept := by
    rw [List.forall_mem_append, List.forall_mem_singleton]
    exact ⟨hUndisturbed.kept, hKept⟩
  whole := by
    rw [List.forall_mem_append, List.forall_mem_singleton]
    exact ⟨hUndisturbed.whole, hWhole⟩
  room := by
    rw [List.forall_mem_append, List.forall_mem_singleton]
    exact ⟨hUndisturbed.room, fun _ _ => hBlock⟩

namespace Session

/- errmark has come here over the stops of the session. -/
structure Sound
    (setup : Setup arch)
    (x : Session arch) : Prop where
  run :
    run iteration setup.begin (x.stops.map Stop.turn) =
      .next x.errmark
  undisturbed : setup.Undisturbed x.stops

/- Where the program of a session is. -/
def phase (x : Session arch) : Phase arch :=
  Phase.starting.afterAll x.stops

namespace Sound

variable {x : Session arch}

/- errmark has followed the phase of the program. -/
theorem tracks
    (hSound : x.Sound setup) :
    Tracks x.errmark x.phase := by
  apply tracks_of_run (tracks_begin setup)
    hSound.undisturbed.admitted _ hSound.run
  intro stop hMem
  exact
    Stop.isQuiet_of_call (hSound.undisturbed.calls stop hMem)

/- errmark goes on from a stop of a call, as it should. -/
theorem meets
    (hSound : x.Sound setup)
    {kind : StopKind}
    (hKind : kind.pending = none)
    {img : Image arch}
    {block : Nat → UInt8}
    (hAllows : x.phase.Allows (img.stop kind block))
    (hWhole : kind = .entry → img.EntersWrite → img.Whole) :
    ∃ x' : Session arch,
      x.meets (img.stop kind block) = .next x' ∧
        x'.Sound setup ∧
        x'.stops = x.stops ++ [img.stop kind block] ∧
        x'.image =
          ⟨x.phase.resumedRegs (img.stop kind block),
            img.memory⟩ := by
  have hCall : ¬ (img.stop kind block).IsSignal :=
    not_not_intro hKind
  have hTaken :
      (img.stop kind block).EntersWrite → img.Whole :=
    fun hEnters => hWhole hEnters.1 hEnters.2
  have hQuiet := Stop.isQuiet_of_call hCall
  have hTracks := hSound.tracks
  have hNullify : x.errmark.cmd.nullify = true :=
    (sameOptions_of_run hSound.run).nullify
  rcases (hTracks.goes_on_iff hAllows hQuiet).mpr
      ⟨Stop.expected_of_call hCall, fun _ _ => rfl⟩ with
    ⟨s, hNext⟩
  refine
    ⟨⟨s, img.memory, x.stops ++ [img.stop kind block]⟩, ?_,
      ⟨?_, ?_⟩, rfl, ?_⟩
  · rw [Session.meets, hNext]
    rfl
  · rw [List.map_append, List.map_singleton,
      run_snoc iteration hSound.run, hNext]
  · exact
      hSound.undisturbed.snoc hAllows hCall rfl
        (fun hEnters => (hTaken hEnters).kept)
        (fun hEnters => (hTaken hEnters).readable)
  · rw [Session.image,
      hTracks.childRegs hAllows hQuiet hNullify hNext]

end Sound

end Session

end Errmark

------------------------------------------------------------
-- One Call
------------------------------------------------------------

namespace Errmark

open Foundation

variable {arch : Arch}
variable {machine : Machine arch}
variable {setup : Setup arch}

/- The call that is entered at a stop. -/
def Stop.entered (stop : Stop arch) : Option (Image arch) :=
  if stop.kind = .entry then some ⟨stop.regs, stop.memory⟩
  else none

/- The calls that a traced program entered. -/
def Session.calls (x : Session arch) : List (Image arch) :=
  x.stops.filterMap Stop.entered

/- A session in which the program has entered some calls. -/
structure Session.Plays
    (machine : Machine arch)
    (setup : Setup arch)
    (calls : List (Image arch))
    (x : Session arch) : Prop where
  sound : x.Sound setup
  ne_nil : x.stops ≠ []
  calls :
    List.Forall₂ (Image.SameCall machine.takesThird) calls
      x.calls

/- The program, alone and traced, between two calls. -/
structure Alongside
    (machine : Machine arch)
    (setup : Setup arch)
    (r : Alone arch)
    (x : Session arch) : Prop where
  plays : x.Plays machine setup r.calls
  outside : ∃ last, x.phase = .outside last
  image : r.image.Similar x.image
  third :
    machine.thirdKept r.calls = true →
      r.image.Agrees x.image

/- The program of a session has entered its next call. -/
structure Entered
    (machine : Machine arch)
    (setup : Setup arch)
    (r : Alone arch)
    (e' : Image arch)
    (x : Session arch) : Prop where
  plays :
    x.Plays machine setup
      (r.calls ++ [machine.enter r.image])
  inside : x.phase = .inside e'.regs
  image :
    x.image =
      if e'.EntersWrite then e'.nullified else e'

/- How errmark resumes the program from the stops of a call. -/
theorem Phase.resumedRegs_entry
    (last : arch.Word)
    (e : Image arch)
    (block : Nat → UInt8) :
    (Phase.outside last).resumedRegs (e.stop .entry block) =
      if (e.stop .entry block).EntersWrite then
        e.regs.set arch.regArg3 0
      else e.regs := rfl

/- The result of a watched write is its length. -/
theorem Phase.resumedRegs_exit
    (e img : Image arch)
    (block : Nat → UInt8) :
    (Phase.inside e.regs).resumedRegs
        (img.stop .exit block) =
      if e.EntersWrite then
        img.regs.set arch.regRetn e.regs.write.len
      else img.regs := rfl

/- One more stop, one more change of phase. -/
theorem Session.phase_append
    {x x' : Session arch}
    {stop : Stop arch}
    (hStops : x'.stops = x.stops ++ [stop]) :
    x'.phase = x.phase.after stop := by
  rw [Session.phase, hStops, Phase.afterAll_append]
  rfl

/- An entry adds its call to those that were entered. -/
theorem Session.calls_append
    {x x' : Session arch}
    {stop : Stop arch}
    (hStops : x'.stops = x.stops ++ [stop]) :
    x'.calls = x.calls ++ stop.entered.toList := by
  rw [Session.calls, hStops, List.filterMap_append]
  unfold Session.calls
  cases hEntered : stop.entered with
  | none => simp [hEntered]
  | some e => simp [hEntered]

/-
  The next call is the same one: either errmark has left the
  third argument alone, or the program does not rely on it.
-/
theorem Alongside.sameCall
    {r : Alone arch}
    {x : Session arch}
    (hAlong : Alongside machine setup r x)
    (hForgets : machine.ForgetsThirdIn r) :
    (machine.enter r.image).SameCall machine.takesThird
      (machine.enter x.image) := by
  cases hKept : machine.thirdKept r.calls with
  | true =>
      have hAgrees :=
        machine.enter_agrees (hAlong.third hKept)
      exact hAgrees.sameCall machine.takesThird
  | false => exact hForgets hKept _ hAlong.image

/- The images agree after a call that keeps the argument. -/
theorem Alongside.agrees_of_thirdKept
    {r : Alone arch}
    {x : Session arch}
    (hAlong : Alongside machine setup r x)
    (hCall :
      (machine.enter r.image).SameCall machine.takesThird
        (machine.enter x.image))
    (hKept :
      machine.thirdKept
        (r.calls ++ [machine.enter r.image]) = true) :
    (machine.enter r.image).Agrees
      (machine.enter x.image) := by
  rw [Machine.thirdKept_snoc] at hKept
  split at hKept
  · cases hKept
  · rcases Bool.or_eq_true_iff.mp hKept with
      hBefore | hThird
    · exact machine.enter_agrees (hAlong.third hBefore)
    · exact ⟨hCall.toSimilar, hCall.third hThird⟩

/- errmark meets the entry of the next call. -/
theorem Alongside.enter
    {r : Alone arch}
    {x : Session arch}
    (hAlong : Alongside machine setup r x)
    (hCall :
      (machine.enter r.image).SameCall machine.takesThird
        (machine.enter x.image))
    (block : Nat → UInt8)
    (hWhole :
      (machine.enter r.image).EntersWrite →
        (machine.enter r.image).Whole) :
    ∃ x' : Session arch,
      x.meets ((machine.enter x.image).stop .entry block) =
          .next x' ∧
        Entered machine setup r (machine.enter x.image)
          x' := by
  have hThird := machine.write_takesThird
  rcases hAlong.outside with ⟨last, hOutside⟩
  have hTaken :
      (machine.enter x.image).EntersWrite →
        (machine.enter x.image).Whole := by
    intro hEnters
    have hAlone := (hCall.entersWrite_iff hThird).mp hEnters
    exact
      hCall.whole hThird hAlone.1 (hWhole hAlone)
  have hAllows :
      x.phase.Allows
        ((machine.enter x.image).stop .entry block) := by
    rw [hOutside]
    exact trivial
  rcases hAlong.plays.sound.meets rfl hAllows
      (fun _ => hTaken) with
    ⟨x', hMeets, hSound, hStops, hImage⟩
  refine ⟨x', hMeets, ⟨hSound, ?_, ?_⟩, ?_, ?_⟩
  · rw [hStops]
    simp
  · rw [Session.calls_append hStops]
    exact
      List.rel_append hAlong.plays.calls
        (.cons hCall .nil)
  · rw [Session.phase_append hStops, hOutside]
    rfl
  · have hEnters :=
      (machine.enter x.image).entry_entersWrite_iff block
    rw [hImage, hOutside]
    by_cases hWrites : (machine.enter x.image).EntersWrite
    · rw [if_pos hWrites, Phase.resumedRegs_entry,
        if_pos (hEnters.mpr hWrites)]
      rfl
    · rw [if_neg hWrites, Phase.resumedRegs_entry,
        if_neg (mt hEnters.mp hWrites)]

/- errmark meets the return of the call. -/
theorem Entered.returns
    {r : Alone arch}
    {e' : Image arch}
    {x : Session arch}
    (hEntered : Entered machine setup r e' x)
    (block : Nat → UInt8)
    (img : Image arch)
    (hNumber :
      img.regs arch.regSyscall = e'.regs arch.regSyscall) :
    ∃ x' : Session arch,
      x.meets (img.stop .exit block) = .next x' ∧
        x'.Plays machine setup
          (r.calls ++ [machine.enter r.image]) ∧
        (∃ last, x'.phase = .outside last) ∧
        x'.image =
          ⟨if e'.EntersWrite then
              img.regs.set arch.regRetn e'.regs.write.len
            else img.regs, img.memory⟩ := by
  have hNone : (img.stop .exit block).entered = none := by
    simp [Stop.entered, Image.stop]
  have hAllows :
      x.phase.Allows (img.stop .exit block) := by
    rw [hEntered.inside]
    exact hNumber
  rcases hEntered.plays.sound.meets rfl hAllows
      (fun hEntry => by cases hEntry) with
    ⟨x', hMeets, hSound, hStops, hImage⟩
  refine
    ⟨x', hMeets, ⟨hSound, ?_, ?_⟩,
      ⟨img.regs arch.regSyscall, ?_⟩, ?_⟩
  · rw [hStops]
    simp
  · rw [Session.calls_append hStops, hNone,
      Option.toList_none, List.append_nil]
    exact hEntered.plays.calls
  · rw [Session.phase_append hStops]
    rfl
  · rw [hImage, hEntered.inside, Phase.resumedRegs_exit]

/- A watched write returns what it returns alone. -/
theorem Alongside.call_write
    {r : Alone arch}
    {x : Session arch}
    (hCall :
      (machine.enter r.image).SameCall machine.takesThird
        (machine.enter x.image))
    (block : Nat → UInt8)
    (k : Nat)
    (hEnters : (machine.enter r.image).EntersWrite)
    (hWhole : (machine.enter r.image).Whole)
    {mid : Session arch}
    (hMeets :
      x.meets ((machine.enter x.image).stop .entry block) =
        .next mid)
    (hEntered :
      Entered machine setup r (machine.enter x.image) mid) :
    (machine.call r k).Related (Alongside machine setup)
      (fun r x => x.Plays machine setup r.calls)
      (machine.tracedCall block x k) := by
  have hThird := machine.write_takesThird
  have hWrites :=
    (hCall.entersWrite_iff hThird).mpr hEnters
  have hImage := hEntered.image
  rw [if_pos hWrites] at hImage
  rcases machine.serve_write (k := k) hEnters hWhole with
    ⟨img, hServe, hTaken⟩
  rcases machine.serve_write (k := k)
      (Image.nullified_entersWrite hWrites)
      (Image.nullified_whole
        (hCall.whole hThird hEnters.1 hWhole)) with
    ⟨img', hTraced, hNullified⟩
  rcases hEntered.returns block img'
      ((machine.serve_number hTraced).trans
        Image.nullified_number) with
    ⟨x', hReturns, hPlays, hOutside, hResumed⟩
  rw [if_pos hWrites] at hResumed
  rw [Machine.tracedCall, hMeets, Outcome.next_andThen,
    Machine.call_of_ok hServe, hImage, hTraced]
  dsimp only
  rw [hReturns]
  refine ⟨hPlays, hOutside, ?_, ?_⟩
  · rw [hResumed]
    exact hTaken.similar hThird hCall hEnters.1 hNullified
  · intro hKept
    rw [Machine.thirdKept_snoc, if_pos hEnters] at hKept
    cases hKept

/- Any other call is served in the same way. -/
theorem Alongside.call_other
    {r : Alone arch}
    {x : Session arch}
    (hAlong : Alongside machine setup r x)
    (hCall :
      (machine.enter r.image).SameCall machine.takesThird
        (machine.enter x.image))
    (block : Nat → UInt8)
    (k : Nat)
    (hEnters : ¬ (machine.enter r.image).EntersWrite)
    {mid : Session arch}
    (hMeets :
      x.meets ((machine.enter x.image).stop .entry block) =
        .next mid)
    (hEntered :
      Entered machine setup r (machine.enter x.image) mid) :
    (machine.call r k).Related (Alongside machine setup)
      (fun r x => x.Plays machine setup r.calls)
      (machine.tracedCall block x k) := by
  have hOther :
      ¬ (machine.enter x.image).EntersWrite :=
    mt (hCall.entersWrite_iff machine.write_takesThird).mp
      hEnters
  have hImage := hEntered.image
  rw [if_neg hOther] at hImage
  rw [Machine.tracedCall, hMeets, Outcome.next_andThen,
    hImage]
  cases hServe : machine.serve k (machine.enter r.image) with
  | error code =>
      rw [Machine.call_of_error hServe,
        machine.serve_error hCall hServe]
      exact ⟨rfl, hEntered.plays⟩
  | ok img =>
      rcases machine.serve_ok hCall hServe with
        ⟨img', hTraced, hSimilar, hAgrees⟩
      rcases hEntered.returns block img'
          (machine.serve_number hTraced) with
        ⟨x', hReturns, hPlays, hOutside, hResumed⟩
      rw [if_neg hOther] at hResumed
      rw [Machine.call_of_ok hServe, hTraced]
      dsimp only
      rw [hReturns]
      refine ⟨hPlays, hOutside, ?_, ?_⟩
      · rw [hResumed]
        exact hSimilar
      · intro hKept
        rw [hResumed]
        exact
          hAgrees (hAlong.agrees_of_thirdKept hCall hKept)

/- The program makes its next call, alone and traced. -/
theorem Alongside.call
    {r : Alone arch}
    {x : Session arch}
    (hAlong : Alongside machine setup r x)
    (hForgets : machine.ForgetsThirdIn r)
    (block : Nat → UInt8)
    (k : Nat)
    (hWhole :
      (machine.enter r.image).EntersWrite →
        (machine.enter r.image).Whole) :
    (machine.call r k).Related (Alongside machine setup)
      (fun r x => x.Plays machine setup r.calls)
      (machine.tracedCall block x k) := by
  have hCall := hAlong.sameCall hForgets
  rcases hAlong.enter hCall block hWhole with
    ⟨mid, hMeets, hEntered⟩
  by_cases hEnters : (machine.enter r.image).EntersWrite
  · exact
      Alongside.call_write hCall block k hEnters
        (hWhole hEnters) hMeets hEntered
  · exact
      hAlong.call_other hCall block k hEnters hMeets
        hEntered

end Errmark

------------------------------------------------------------
-- Whole Runs
------------------------------------------------------------

namespace Errmark

open Foundation

variable {arch : Arch}
variable {machine : Machine arch}
variable {setup : Setup arch}

end Errmark
