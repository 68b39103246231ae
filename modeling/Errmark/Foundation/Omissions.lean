import Errmark.Foundation.Runs

/-
  Runs over inputs of which some are left out.

  Two outcomes are related when they are of the same kind
  and their states are related. If each input that is kept
  takes related states to related outcomes, and each block
  of inputs that is left out brings the first run back to a
  related state, the two runs are related as wholes.

  Key definitions include:
    * `Outcome.Related`
    * `Omits`
    * `Without`

  Key theorems include:
    * `Outcome.Related.andThen`
    * `Outcome.Related.onLeave`
    * `Without.append`
    * `related_of_omits`
-/

------------------------------------------------------------
-- Related Outcomes
------------------------------------------------------------

namespace Foundation

variable {σ τ ι ε : Type}

namespace Outcome

/-
  Outcomes of the same kind, with one relation for states
  that go on and one for states that do not.
-/
def Related
    (Next Ended : σ → τ → Prop) :
    Outcome σ ε → Outcome τ ε → Prop
| .next s, .next t => Next s t
| .leave s, .leave t => Ended s t
| .halt e s, .halt f t => e = f ∧ Ended s t
| _, _ => False

namespace Related

variable {Next Next' Ended Ended' : σ → τ → Prop}
variable {o : Outcome σ ε}
variable {p : Outcome τ ε}

/- What a related outcome is, when one of them is known. -/
theorem of_next
    {s : σ}
    (hOutcome :
      (next s : Outcome σ ε).Related Next Ended p) :
    ∃ t, p = .next t ∧ Next s t := by
  cases p with
  | next t => exact ⟨t, rfl, hOutcome⟩
  | leave t => exact hOutcome.elim
  | halt e t => exact hOutcome.elim

/- What is related to an outcome that left has left. -/
theorem of_leave
    {s : σ}
    (hOutcome :
      (leave s : Outcome σ ε).Related Next Ended p) :
    ∃ t, p = .leave t ∧ Ended s t := by
  cases p with
  | next t => exact hOutcome.elim
  | leave t => exact ⟨t, rfl, hOutcome⟩
  | halt e t => exact hOutcome.elim

/- What is related to a halt has halted for its cause. -/
theorem of_halt
    {e : ε}
    {s : σ}
    (hOutcome : (halt e s).Related Next Ended p) :
    ∃ t, p = .halt e t ∧ Ended s t := by
  cases p with
  | next t => exact hOutcome.elim
  | leave t => exact hOutcome.elim
  | halt f t =>
      rcases hOutcome with ⟨rfl, hEnded⟩
      exact ⟨t, rfl, hEnded⟩

/- Related outcomes go on to related outcomes. -/
theorem andThen
    {f : σ → Outcome σ ε}
    {g : τ → Outcome τ ε}
    (hFirst : o.Related Next Ended p)
    (hRest :
      ∀ s t, Next s t →
        (f s).Related Next' Ended (g t)) :
    (o.andThen f).Related Next' Ended (p.andThen g) := by
  cases o with
  | next s =>
      cases p with
      | next t => exact hRest s t hFirst
      | leave t => exact hFirst.elim
      | halt e t => exact hFirst.elim
  | leave s =>
      cases p with
      | next t => exact hFirst.elim
      | leave t => exact hFirst
      | halt e t => exact hFirst
  | halt e s =>
      cases p with
      | next t => exact hFirst.elim
      | leave t => exact hFirst
      | halt f t => exact hFirst

/- The code after the loop has to keep states related. -/
theorem onLeave
    {f : σ → σ}
    {g : τ → τ}
    (hOutcome : o.Related Next Ended p)
    (hAfter : ∀ s t, Ended s t → Ended (f s) (g t)) :
    (o.onLeave f).Related Next Ended (p.onLeave g) := by
  cases o with
  | next s => cases p <;> exact hOutcome
  | leave s =>
      cases p with
      | next t => exact hOutcome
      | leave t => exact hAfter s t hOutcome
      | halt e t => exact hOutcome
  | halt e s => cases p <;> exact hOutcome

/- Weaker relations hold of more outcomes. -/
theorem mono
    (hOutcome : o.Related Next Ended p)
    (hNext : ∀ s t, Next s t → Next' s t)
    (hEnded : ∀ s t, Ended s t → Ended' s t) :
    o.Related Next' Ended' p := by
  cases o with
  | next s =>
      cases p with
      | next t => exact hNext s t hOutcome
      | leave t => exact hOutcome
      | halt e t => exact hOutcome
  | leave s =>
      cases p with
      | next t => exact hOutcome
      | leave t => exact hEnded s t hOutcome
      | halt e t => exact hOutcome
  | halt e s =>
      cases p with
      | next t => exact hOutcome
      | leave t => exact hOutcome
      | halt f t =>
          exact ⟨hOutcome.1, hEnded s t hOutcome.2⟩

end Related

end Outcome

end Foundation

------------------------------------------------------------
-- Inputs Left Out
------------------------------------------------------------

namespace Foundation

variable {σ τ ι ε : Type}

/-
  The second list is the first one without some blocks, each
  of which may be left out before what follows it.
-/
inductive Omits
    (Skip : List ι → List ι → Prop) :
    List (List ι) → List ι → List ι → Prop where
  | nil : Omits Skip [] [] []
  | keep
      (i : ι)
      {blocks : List (List ι)}
      {is js : List ι}
      (hRest : Omits Skip blocks is js) :
      Omits Skip blocks (i :: is) (i :: js)
  | skip
      (block : List ι)
      {blocks : List (List ι)}
      {is js : List ι}
      (hSkip : Skip block is)
      (hRest : Omits Skip blocks is js) :
      Omits Skip (block :: blocks) (block ++ is) js

/- The same for any blocks. -/
def Without
    (blocks : List (List ι))
    (is js : List ι) : Prop :=
  Omits (fun _ _ => True) blocks is js

namespace Without

variable {blocks more : List (List ι)}
variable {is js is' js' : List ι}

/- Nothing is left out of equal lists. -/
theorem refl (is : List ι) : Without [] is is := by
  induction is with
  | nil => exact Omits.nil
  | cons i is ih => exact Omits.keep i ih

/- A block alone is left out of itself. -/
theorem single (block : List ι) :
    Without [block] block [] := by
  have hSkip :
      Without [block] (block ++ []) [] :=
    Omits.skip block trivial Omits.nil
  rw [List.append_nil] at hSkip
  exact hSkip

/- Blocks may be left out of two lists in a row. -/
theorem append
    (hFirst : Without blocks is js)
    (hSecond : Without more is' js') :
    Without (blocks ++ more) (is ++ is') (js ++ js') := by
  induction hFirst with
  | nil => exact hSecond
  | keep i hRest ih => exact Omits.keep i ih
  | skip block hSkip hRest ih =>
      rw [List.append_assoc]
      exact Omits.skip block trivial ih

/- Empty blocks make no difference. -/
theorem eq_of_empty
    (hWithout : Without blocks is js)
    (hEmpty : ∀ block ∈ blocks, block = []) :
    is = js := by
  induction hWithout with
  | nil => rfl
  | keep i hRest ih => rw [ih hEmpty]
  | skip block hSkip hRest ih =>
      rw [List.forall_mem_cons] at hEmpty
      rw [hEmpty.1, List.nil_append, ih hEmpty.2]

end Without

/-
  The rule for runs with omissions. The relation between the
  states may speak about the blocks that were left out and
  the inputs that are still to come in the first run.
-/
theorem related_of_omits
    {step : σ → ι → Outcome σ ε}
    {step' : τ → ι → Outcome τ ε}
    {Skip : List ι → List ι → Prop}
    {Next : List (List ι) → List ι → σ → τ → Prop}
    {Ended : List (List ι) → σ → τ → Prop}
    (hKeep :
      ∀ done i is s t, Next done (i :: is) s t →
        (step s i).Related (Next done is) (Ended done)
          (step' t i))
    (hSkip :
      ∀ done block is s t, Skip block is →
        Next done (block ++ is) s t →
          ∃ mid, run step s block = .next mid ∧
            Next (done ++ [block]) is mid t)
    {blocks : List (List ι)}
    {is js : List ι}
    (hOmits : Omits Skip blocks is js)
    {done : List (List ι)}
    {s : σ}
    {t : τ}
    (hInit : Next done is s t) :
    (run step s is).Related (Next (done ++ blocks) [])
      (fun s t =>
        ∃ more, more <+: blocks ∧
          Ended (done ++ more) s t)
      (run step' t js) := by
  induction hOmits generalizing done s t with
  | nil =>
      rw [List.append_nil]
      exact hInit
  | keep i hRest ih =>
      rw [run_cons, run_cons]
      have hStep := hKeep done i _ s t hInit
      apply (hStep.mono (fun _ _ hNext => hNext) ?_).andThen
      · intro mid mid' hMid
        exact ih hMid
      · intro a b hEnded
        refine ⟨[], List.nil_prefix, ?_⟩
        rw [List.append_nil]
        exact hEnded
  | skip block hBlock hRest ih =>
      rcases hSkip done block _ s t hBlock hInit with
        ⟨mid, hRun, hMid⟩
      rw [run_append, hRun, Outcome.next_andThen]
      have hTail := ih hMid
      rw [List.append_assoc, List.singleton_append] at hTail
      apply hTail.mono (fun _ _ hNext => hNext)
      rintro a b ⟨more, hPrefix, hEnded⟩
      refine
        ⟨block :: more, List.cons_prefix_cons.mpr
          ⟨rfl, hPrefix⟩, ?_⟩
      rw [List.append_assoc, List.singleton_append]
        at hEnded
      exact hEnded

end Foundation
