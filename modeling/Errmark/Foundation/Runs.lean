import Mathlib.Data.List.Basic

/-
  Runs of a loop that reads one input per iteration.

  An iteration goes on to the next one, leaves the loop, or
  halts the whole process. `run` feeds a list of inputs to
  such an iteration, so a run that is still in the loop when
  the list ends is again a `next`.

  Key definitions include:
    * `Outcome`
    * `Outcome.andThen`
    * `Outcome.onLeave`
    * `run`
    * `Everywhere`

  Key theorems include:
    * `run_append`
    * `run_concat`
    * `run_snoc`
    * `exists_last_of_run`
    * `invariant_of_run`
    * `everywhere_iff`
    * `flag_of_run`
    * `run_next_iff_everywhere`
-/

------------------------------------------------------------
-- Outcomes
------------------------------------------------------------

namespace Foundation

variable {σ τ ι ε : Type}

/- What one iteration does with the loop around it. -/
inductive Outcome (σ ε : Type) where
  | next (state : σ)
  | leave (state : σ)
  | halt (cause : ε) (state : σ)

namespace Outcome

/- Continue only where the loop goes on. -/
def andThen
    (o : Outcome σ ε)
    (f : σ → Outcome σ ε) : Outcome σ ε :=
  match o with
  | .next s => f s
  | .leave s => .leave s
  | .halt e s => .halt e s

/- Apply the code after the loop to a state that left it. -/
def onLeave
    (o : Outcome σ ε)
    (f : σ → σ) : Outcome σ ε :=
  match o with
  | .next s => .next s
  | .leave s => .leave (f s)
  | .halt e s => .halt e s

/- The state an iteration ends in, however it ends. -/
def final : Outcome σ ε → σ
| .next s => s
| .leave s => s
| .halt _ s => s

/- Whether an iteration goes on, leaves or halts. -/
def goesOn : Outcome σ ε → Bool
| .next _ => true
| .leave _ => false
| .halt _ _ => false

/- Whether the loop was left. -/
def leaves : Outcome σ ε → Bool
| .next _ => false
| .leave _ => true
| .halt _ _ => false

/- An outcome that goes on is known from its state. -/
theorem eq_next_of_goesOn
    {o : Outcome σ ε}
    (hGoesOn : o.goesOn = true) :
    o = .next o.final := by
  cases o with
  | next s => rfl
  | leave s => cases hGoesOn
  | halt e s => cases hGoesOn

/- So is one that left. -/
theorem eq_leave_of_leaves
    {o : Outcome σ ε}
    (hLeaves : o.leaves = true) :
    o = .leave o.final := by
  cases o with
  | next s => cases hLeaves
  | leave s => rfl
  | halt e s => cases hLeaves

/- Only what goes on meets the rest of the code. -/
@[simp] theorem next_andThen
    (s : σ)
    (f : σ → Outcome σ ε) :
    (next s).andThen f = f s := rfl

@[simp] theorem leave_andThen
    (s : σ)
    (f : σ → Outcome σ ε) :
    (leave s).andThen f = leave s := rfl

@[simp] theorem halt_andThen
    (e : ε)
    (s : σ)
    (f : σ → Outcome σ ε) :
    (halt e s).andThen f = halt e s := rfl

/- What is done on leaving is done nowhere else. -/
@[simp] theorem onLeave_next
    (s : σ)
    (f : σ → σ) :
    (next s : Outcome σ ε).onLeave f = next s := rfl

@[simp] theorem onLeave_leave
    (s : σ)
    (f : σ → σ) :
    (leave s : Outcome σ ε).onLeave f = leave (f s) := rfl

@[simp] theorem onLeave_halt
    (e : ε)
    (s : σ)
    (f : σ → σ) :
    (halt e s).onLeave f = halt e s := rfl

/- How steps are bracketed does not matter. -/
theorem andThen_assoc
    (o : Outcome σ ε)
    (f g : σ → Outcome σ ε) :
    (o.andThen f).andThen g =
      o.andThen fun s => (f s).andThen g := by
  cases o <;> rfl

/- A composition goes on exactly when both parts do. -/
theorem andThen_eq_next_iff
    {o : Outcome σ ε}
    {f : σ → Outcome σ ε}
    {s' : σ} :
    o.andThen f = next s' ↔
      ∃ s, o = next s ∧ f s = next s' := by
  cases o <;> simp [andThen]

/- A composition leaves in its first or its second part. -/
theorem andThen_eq_leave_iff
    {o : Outcome σ ε}
    {f : σ → Outcome σ ε}
    {s' : σ} :
    o.andThen f = leave s' ↔
      o = leave s' ∨
        ∃ s, o = next s ∧ f s = leave s' := by
  cases o <;> simp [andThen]

/- What goes on is not touched on leaving. -/
theorem onLeave_eq_next_iff
    {o : Outcome σ ε}
    {f : σ → σ}
    {s' : σ} :
    o.onLeave f = next s' ↔ o = next s' := by
  cases o <;> simp [onLeave]

/- What leaves had left before. -/
theorem onLeave_eq_leave_iff
    {o : Outcome σ ε}
    {f : σ → σ}
    {s' : σ} :
    o.onLeave f = leave s' ↔
      ∃ s, o = leave s ∧ f s = s' := by
  cases o <;> simp [onLeave]

end Outcome

end Foundation

------------------------------------------------------------
-- Runs
------------------------------------------------------------

namespace Foundation

variable {σ τ ι ε : Type}

/- Feed a list of inputs to the iterations of a loop. -/
def run
    (step : σ → ι → Outcome σ ε)
    (s : σ) :
    List ι → Outcome σ ε
| [] => .next s
| i :: is => (step s i).andThen fun s' => run step s' is

/- A run on no input stays where it is. -/
@[simp] theorem run_nil
    (step : σ → ι → Outcome σ ε)
    (s : σ) :
    run step s [] = .next s := rfl

/- A run begins with the step on its first input. -/
theorem run_cons
    (step : σ → ι → Outcome σ ε)
    (s : σ)
    (i : ι)
    (is : List ι) :
    run step s (i :: is) =
      (step s i).andThen fun s' => run step s' is := rfl

/- A run over two lists is two runs in a row. -/
theorem run_append
    (step : σ → ι → Outcome σ ε)
    (s : σ)
    (is js : List ι) :
    run step s (is ++ js) =
      (run step s is).andThen fun s' =>
        run step s' js := by
  induction is generalizing s with
  | nil => rfl
  | cons i is ih =>
      simp only [List.cons_append, run_cons,
        Outcome.andThen_assoc, ih]

/- A run ends with the iteration on its last input. -/
theorem run_concat
    (step : σ → ι → Outcome σ ε)
    (s : σ)
    (is : List ι)
    (i : ι) :
    run step s (is ++ [i]) =
      (run step s is).andThen fun s' => step s' i := by
  rw [run_append]
  congr 1
  funext s'
  rw [run_cons]
  cases step s' i <;> rfl

/- From a known state, only the last step is left. -/
theorem run_snoc
    (step : σ → ι → Outcome σ ε)
    {s s' : σ}
    {is : List ι}
    (hRun : run step s is = .next s')
    (i : ι) :
    run step s (is ++ [i]) = step s' i := by
  rw [run_concat, hRun, Outcome.next_andThen]

/- Inputs may be prepared before or during a run. -/
theorem run_map
    {κ : Type}
    (step : σ → ι → Outcome σ ε)
    (f : κ → ι)
    (s : σ)
    (ks : List κ) :
    run step s (ks.map f) =
      run (fun s k => step s (f k)) s ks := by
  induction ks generalizing s with
  | nil => rfl
  | cons k ks ih =>
      simp only [List.map_cons, run_cons, ih]

/-
  A run that does not go on has a last iteration: every
  input before it was consumed by an iteration that went on.
-/
theorem exists_last_of_run
    {step : σ → ι → Outcome σ ε}
    {s : σ}
    {is : List ι}
    (hEnds : ∀ s', run step s is ≠ .next s') :
    ∃ pre i post mid,
      is = pre ++ i :: post ∧
        run step s pre = .next mid ∧
        step mid i = run step s is ∧
        ∀ s', step mid i ≠ .next s' := by
  induction is generalizing s with
  | nil => exact absurd rfl (hEnds s)
  | cons i is ih =>
      rw [run_cons] at hEnds ⊢
      cases hStep : step s i with
      | next mid =>
          simp only [hStep, Outcome.next_andThen]
            at hEnds ⊢
          rcases ih hEnds with
            ⟨pre, j, post, last, hSplit, hPre, hLast⟩
          refine ⟨i :: pre, j, post, last, ?_, ?_, hLast⟩
          · rw [hSplit, List.cons_append]
          · rw [run_cons, hStep, Outcome.next_andThen,
              hPre]
      | leave mid =>
          exact ⟨[], i, is, s, rfl, rfl, hStep,
            by simp [hStep]⟩
      | halt e mid =>
          exact ⟨[], i, is, s, rfl, rfl, hStep,
            by simp [hStep]⟩

end Foundation

------------------------------------------------------------
-- Invariants Of Runs
------------------------------------------------------------

namespace Foundation

variable {σ τ ι ε : Type}

/-
  The invariant rule: what every iteration that goes on
  preserves holds of every state a run goes on from.
-/
theorem invariant_of_run
    {step : σ → ι → Outcome σ ε}
    (Inv : σ → Prop)
    (hStep :
      ∀ s i s', Inv s → step s i = .next s' → Inv s')
    {s s' : σ}
    {is : List ι}
    (hInit : Inv s)
    (hRun : run step s is = .next s') :
    Inv s' := by
  induction is generalizing s with
  | nil =>
      cases hRun
      exact hInit
  | cons i is ih =>
      rw [run_cons, Outcome.andThen_eq_next_iff] at hRun
      rcases hRun with ⟨mid, hFirst, hRest⟩
      exact ih (hStep s i mid hInit hFirst) hRest

/-
  A condition on the state before an iteration and on its
  input holds at every iteration the run gets to.
-/
def Everywhere
    (step : σ → ι → Outcome σ ε)
    (P : σ → ι → Prop)
    (s : σ) :
    List ι → Prop
| [] => True
| i :: is =>
    P s i ∧
      ∀ s', step s i = .next s' →
        Everywhere step P s' is

/-
  What holds everywhere holds here, and from the next state
  on.
-/
theorem everywhere_cons_iff
    {step : σ → ι → Outcome σ ε}
    {P : σ → ι → Prop}
    {s : σ}
    {i : ι}
    {is : List ι} :
    Everywhere step P s (i :: is) ↔
      P s i ∧
        ∀ s', step s i = .next s' →
          Everywhere step P s' is := Iff.rfl

/- `Everywhere` speaks about each iteration of the run. -/
theorem everywhere_iff
    {step : σ → ι → Outcome σ ε}
    {P : σ → ι → Prop}
    {s : σ}
    {is : List ι} :
    Everywhere step P s is ↔
      ∀ pre i post s',
        is = pre ++ i :: post →
          run step s pre = .next s' → P s' i := by
  induction is generalizing s with
  | nil => simp [Everywhere]
  | cons i is ih =>
      constructor
      · rintro ⟨hHead, hTail⟩ pre j post s' hSplit hPre
        cases pre with
        | nil =>
            simp only [List.nil_append,
              List.cons.injEq] at hSplit
            cases hPre
            exact hSplit.1 ▸ hHead
        | cons k pre =>
            simp only [List.cons_append,
              List.cons.injEq] at hSplit
            rw [run_cons,
              Outcome.andThen_eq_next_iff] at hPre
            rcases hPre with ⟨mid, hFirst, hRest⟩
            rw [← hSplit.1] at hFirst
            exact ih.mp (hTail mid hFirst) pre j post s'
              hSplit.2 hRest
      · intro hAll
        refine ⟨hAll [] i is s rfl rfl, ?_⟩
        intro mid hFirst
        apply ih.mpr
        intro pre j post s' hSplit hPre
        apply hAll (i :: pre) j post s'
        · rw [hSplit, List.cons_append]
        · rw [run_cons, hFirst, Outcome.next_andThen, hPre]

/- A condition on a run over two lists, part by part. -/
theorem everywhere_append_iff
    {step : σ → ι → Outcome σ ε}
    {P : σ → ι → Prop}
    {s : σ}
    {is js : List ι} :
    Everywhere step P s (is ++ js) ↔
      Everywhere step P s is ∧
        ∀ s', run step s is = .next s' →
          Everywhere step P s' js := by
  induction is generalizing s with
  | nil => simp [Everywhere]
  | cons i is ih =>
      rw [List.cons_append, everywhere_cons_iff,
        everywhere_cons_iff, and_assoc]
      apply and_congr_right
      intro _
      constructor
      · intro hBoth
        refine ⟨fun mid hFirst => ?_, fun s' hRun => ?_⟩
        · exact (ih.mp (hBoth mid hFirst)).1
        · rw [run_cons, Outcome.andThen_eq_next_iff] at hRun
          rcases hRun with ⟨mid, hFirst, hRest⟩
          exact (ih.mp (hBoth mid hFirst)).2 s' hRest
      · rintro ⟨hHead, hTail⟩ mid hFirst
        apply ih.mpr
        refine ⟨hHead mid hFirst, fun s' hRest => ?_⟩
        apply hTail s'
        rw [run_cons, hFirst, Outcome.next_andThen, hRest]

/-
  A flag of the state that an iteration keeps up exactly
  where a condition holds is still up after a run exactly
  when the condition held everywhere.
-/
theorem flag_of_run
    {step : σ → ι → Outcome σ ε}
    {Flag : σ → Prop}
    {P : σ → ι → Prop}
    (hStep :
      ∀ s i s', step s i = .next s' →
        (Flag s' ↔ Flag s ∧ P s i))
    {s s' : σ}
    {is : List ι}
    (hRun : run step s is = .next s') :
    Flag s' ↔ Flag s ∧ Everywhere step P s is := by
  induction is generalizing s with
  | nil =>
      cases hRun
      simp [Everywhere]
  | cons i is ih =>
      rw [run_cons, Outcome.andThen_eq_next_iff] at hRun
      rcases hRun with ⟨mid, hFirst, hRest⟩
      have hHead := hStep s i mid hFirst
      have hTail := ih hRest
      rw [hTail, hHead, everywhere_cons_iff, and_assoc]
      constructor
      · rintro ⟨hFlag, hP, hAll⟩
        refine ⟨hFlag, hP, ?_⟩
        intro mid' hFirst'
        rw [hFirst] at hFirst'
        cases hFirst'
        exact hAll
      · rintro ⟨hFlag, hP, hAll⟩
        exact ⟨hFlag, hP, hAll mid hFirst⟩

/-
  When an iteration goes on exactly where a condition holds,
  a whole run stays in the loop exactly where the condition
  holds at each of its iterations.
-/
theorem run_next_iff_everywhere
    {step : σ → ι → Outcome σ ε}
    {P : σ → ι → Prop}
    {Q : ι → Prop}
    (hStep :
      ∀ s i, Q i → ((∃ s', step s i = .next s') ↔ P s i))
    {s : σ}
    {is : List ι}
    (hInputs : ∀ i ∈ is, Q i) :
    (∃ s', run step s is = .next s') ↔
      Everywhere step P s is := by
  induction is generalizing s with
  | nil => simp [Everywhere]
  | cons i is ih =>
      have hHead := hStep s i (hInputs i (by simp))
      have hTail : ∀ j ∈ is, Q j :=
        fun j hj => hInputs j (by simp [hj])
      constructor
      · rintro ⟨s', hRun⟩
        rw [run_cons, Outcome.andThen_eq_next_iff] at hRun
        rcases hRun with ⟨mid, hFirst, hRest⟩
        refine ⟨hHead.mp ⟨mid, hFirst⟩, ?_⟩
        intro mid' hFirst'
        rw [hFirst] at hFirst'
        cases hFirst'
        exact (ih hTail).mp ⟨s', hRest⟩
      · rintro ⟨hP, hRest⟩
        rcases hHead.mpr hP with ⟨mid, hFirst⟩
        rcases (ih hTail).mpr (hRest mid hFirst) with
          ⟨s', hRun⟩
        refine ⟨s', ?_⟩
        rw [run_cons, hFirst, Outcome.next_andThen, hRun]

end Foundation
