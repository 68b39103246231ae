import Errmark.Foundation.Omissions

/-
  Loops that fetch their own input.

  `loop` repeats a step on a state that holds what is still
  to be read. If each step reads the next item of a list, as
  the step of a run would, and the step after the last item
  leaves the loop, the loop with enough iterations is the
  run over that list.

  Key definitions include:
    * `Outcome.map`
    * `loop`

  Key theorems include:
    * `Outcome.related_map`
    * `loop_related_run`
    * `exists_last_of_loop`
-/

------------------------------------------------------------
-- Outcomes Of A Part
------------------------------------------------------------

namespace Foundation

variable {σ τ ι ε : Type}

namespace Outcome

/- An outcome for a part of the state, put into the whole. -/
def map
    (f : σ → τ)
    (o : Outcome σ ε) : Outcome τ ε :=
  match o with
  | .next s => .next (f s)
  | .leave s => .leave (f s)
  | .halt e s => .halt e (f s)

/- The last state is renamed along with an outcome. -/
theorem map_final
    (f : σ → τ)
    (o : Outcome σ ε) :
    (o.map f).final = f o.final := by
  cases o <;> rfl

/- It is related to what is put into it. -/
theorem related_map
    {Next Ended : τ → σ → Prop}
    {f : σ → τ}
    {o : Outcome σ ε}
    (hNext : ∀ s, o = .next s → Next (f s) s)
    (hEnded : ∀ s, Ended (f s) s) :
    (o.map f).Related Next Ended o := by
  cases o with
  | next s => exact hNext s rfl
  | leave s => exact hEnded s
  | halt e s => exact ⟨rfl, hEnded s⟩

end Outcome

end Foundation

------------------------------------------------------------
-- Loops
------------------------------------------------------------

namespace Foundation

variable {σ τ ι ε : Type}

/- `while (true)`, for some iterations at most. -/
def loop
    (step : σ → Outcome σ ε) :
    Nat → σ → Outcome σ ε
| 0, s => .next s
| n + 1, s => (step s).andThen (loop step n)

/-
  The rule for loops that read a list. `View` relates a
  state of the loop to one of the run, and to the items that
  are still to be read.
-/
theorem loop_related_run
    {step : σ → Outcome σ ε}
    {act : τ → ι → Outcome τ ε}
    {atEnd : τ → Outcome τ ε}
    {View : List ι → σ → τ → Prop}
    {Ended : σ → τ → Prop}
    (hCons :
      ∀ i is s t, View (i :: is) s t →
        (step s).Related (View is) Ended (act t i))
    (hNil :
      ∀ s t, View [] s t →
        (step s).Related (fun _ _ => False) Ended
          (atEnd t))
    {is : List ι}
    {n : Nat}
    (hEnough : is.length < n)
    {s : σ}
    {t : τ}
    (hView : View is s t) :
    (loop step n s).Related (fun _ _ => False) Ended
      ((run act t is).andThen atEnd) := by
  induction is generalizing n s t with
  | nil =>
      cases n with
      | zero => cases hEnough
      | succ n =>
          rw [run_nil, Outcome.next_andThen]
          have hLast := hNil s t hView
          rw [loop]
          cases hStep : step s with
          | next s' =>
              rw [hStep] at hLast
              rcases hLast.of_next with ⟨_, _, hNever⟩
              exact hNever.elim
          | leave s' =>
              rw [hStep] at hLast
              exact hLast
          | halt e s' =>
              rw [hStep] at hLast
              exact hLast
  | cons i is ih =>
      cases n with
      | zero => cases hEnough
      | succ n =>
          rw [run_cons, Outcome.andThen_assoc, loop]
          apply (hCons i is s t hView).andThen
          intro s' t' hView'
          apply ih _ hView'
          simpa using hEnough

/-
  A loop that is left has a last iteration, and an invariant
  of its iterations still holds before it.
-/
theorem exists_last_of_loop
    {step : σ → Outcome σ ε}
    {Inv : σ → Prop}
    (hStep :
      ∀ s s', Inv s → step s = .next s' → Inv s')
    {n : Nat}
    {s s' : σ}
    (hInit : Inv s)
    (hLoop : loop step n s = .leave s') :
    ∃ mid, Inv mid ∧ step mid = .leave s' := by
  induction n generalizing s with
  | zero => cases hLoop
  | succ n ih =>
      rw [loop, Outcome.andThen_eq_leave_iff] at hLoop
      rcases hLoop with hLast | ⟨mid, hFirst, hRest⟩
      · exact ⟨s, hInit, hLast⟩
      · exact ih (hStep s mid hInit hFirst) hRest

end Foundation
