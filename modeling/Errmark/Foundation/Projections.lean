import Errmark.Foundation.Loops

/-
  Parts of a state that a loop does not look at.

  A projection removes some part of a state. Code ignores
  that part if two states that differ in nothing else are
  taken to states that differ in nothing else. What each
  piece of an iteration ignores, a whole run ignores.

  Key definitions include:
    * `Blind`
    * `Ignores`

  Key theorems include:
    * `blind_of_absorbed`
    * `Ignores.andThen`
    * `Ignores.run`
    * `related_of_forall₂`
-/

------------------------------------------------------------
-- Code That Ignores A Part
------------------------------------------------------------

namespace Foundation

variable {σ ρ ι ε : Type}

/- A change of the state ignores what `f` removes. -/
def Blind
    (f : σ → ρ)
    (h : σ → σ) : Prop :=
  ∀ s s', f s = f s' → f (h s) = f (h s')

/- So does code that may end the loop. -/
def Ignores
    (f : σ → ρ)
    (g : σ → Outcome σ ε) : Prop :=
  ∀ s s', f s = f s' → (g s).map f = (g s').map f

/- Outcomes of the same kind that differ in that part only. -/
theorem Outcome.map_eq_map_iff
    {f : σ → ρ}
    {o p : Outcome σ ε} :
    o.map f = p.map f ↔
      o.Related (fun a b => f a = f b)
        (fun a b => f a = f b) p := by
  cases o <;> cases p <;> simp [map, Related]

/- It is enough that removing the part first is the same. -/
theorem blind_of_absorbed
    {f h : σ → σ}
    (hAbsorbed : ∀ s, f (h s) = f (h (f s))) :
    Blind f h := by
  intro s s' hSame
  rw [hAbsorbed s, hAbsorbed s', hSame]

namespace Blind

variable {f : σ → ρ}
variable {h k : σ → σ}

/- Going on after a blind change shows no more. -/
theorem next
    (hBlind : Blind f h) :
    Ignores f (fun s => (.next (h s) : Outcome σ ε)) := by
  intro s s' hSame
  simp only [Outcome.map, hBlind s s' hSame]

/- So does leaving after it. -/
theorem leave
    (hBlind : Blind f h) :
    Ignores f (fun s => (.leave (h s) : Outcome σ ε)) := by
  intro s s' hSame
  simp only [Outcome.map, hBlind s s' hSame]

/- And so does halting. -/
theorem halt
    (hBlind : Blind f h)
    (cause : ε) :
    Ignores f (fun s => .halt cause (h s)) := by
  intro s s' hSame
  simp only [Outcome.map, hBlind s s' hSame]

/- To change nothing is to be blind. -/
theorem id : Blind f fun s => s :=
  fun _ _ hSame => hSame

end Blind

namespace Ignores

variable {f : σ → ρ}
variable {g h : σ → Outcome σ ε}

/- Blind changes may come before. -/
theorem comp
    {k : σ → σ}
    (hFirst : Blind f k)
    (hRest : Ignores f g) :
    Ignores f (fun s => g (k s)) :=
  fun s s' hSame => hRest _ _ (hFirst s s' hSame)

/- A test on what is not removed has one result. -/
theorem ite
    {P : σ → Prop}
    [DecidablePred P]
    (hTest : ∀ s s', f s = f s' → (P s ↔ P s'))
    (hThen : Ignores f g)
    (hElse : Ignores f h) :
    Ignores f (fun s => if P s then g s else h s) := by
  intro s s' hSame
  have hBoth := hTest s s' hSame
  dsimp only
  by_cases hP : P s
  · rw [if_pos hP, if_pos (hBoth.mp hP)]
    exact hThen s s' hSame
  · rw [if_neg hP, if_neg fun hNot => hP (hBoth.mpr hNot)]
    exact hElse s s' hSame

/- What decides which code it is may not be removed. -/
theorem keyed
    {κ : Type}
    (key : σ → κ)
    (code : κ → σ → Outcome σ ε)
    (hKey : ∀ s s', f s = f s' → key s = key s')
    (hCode : ∀ k, Ignores f (code k)) :
    Ignores f (fun s => code (key s) s) := by
  intro s s' hSame
  dsimp only
  rw [hKey s s' hSame]
  exact hCode _ s s' hSame

/- In terms of outcomes that are related. -/
theorem of_related
    (hRelated :
      ∀ s s', f s = f s' →
        (g s).Related (fun a b => f a = f b)
          (fun a b => f a = f b) (g s')) :
    Ignores f g :=
  fun s s' hSame =>
    Outcome.map_eq_map_iff.mpr (hRelated s s' hSame)

/- States that look the same lead to outcomes that do. -/
theorem related
    (hIgnores : Ignores f g)
    {s s' : σ}
    (hSame : f s = f s') :
    (g s).Related (fun a b => f a = f b)
      (fun a b => f a = f b) (g s') :=
  Outcome.map_eq_map_iff.mp (hIgnores s s' hSame)

/- Two steps that ignore the rest ignore it together. -/
theorem andThen
    (hFirst : Ignores f g)
    (hRest : Ignores f h) :
    Ignores f (fun s => (g s).andThen h) := by
  apply of_related
  intro s s' hSame
  exact
    (hFirst.related hSame).andThen fun _ _ hMid =>
      hRest.related hMid

/- The code after the loop has to ignore it as well. -/
theorem onLeave
    {k : σ → σ}
    (hLoop : Ignores f g)
    (hAfter : Blind f k) :
    Ignores f (fun s => (g s).onLeave k) := by
  apply of_related
  intro s s' hSame
  exact (hLoop.related hSame).onLeave hAfter

/- What every iteration ignores, a run ignores. -/
theorem run
    {step : σ → ι → Outcome σ ε}
    (hStep : ∀ i, Ignores f (fun s => step s i))
    (is : List ι) :
    Ignores f (fun s => Foundation.run step s is) := by
  induction is with
  | nil => exact Blind.id.next
  | cons i is ih => exact (hStep i).andThen ih

end Ignores

end Foundation

------------------------------------------------------------
-- Runs In Step
------------------------------------------------------------

namespace Foundation

variable {σ τ ι κ ε : Type}

/- More may be known of the states that go on. -/
theorem Outcome.Related.with_next
    {Next Next' Ended : σ → τ → Prop}
    {o : Outcome σ ε}
    {p : Outcome τ ε}
    (hOutcome : o.Related Next Ended p)
    (hNext :
      ∀ s t, o = .next s → p = .next t →
        Next s t → Next' s t) :
    o.Related Next' Ended p := by
  cases o with
  | next s =>
      rcases hOutcome.of_next with ⟨t, rfl, hSame⟩
      exact hNext s t rfl rfl hSame
  | leave s =>
      rcases hOutcome.of_leave with ⟨t, rfl, hSame⟩
      exact hSame
  | halt e s =>
      rcases hOutcome.of_halt with ⟨t, rfl, hSame⟩
      exact ⟨rfl, hSame⟩

/- Related outcomes for parts are related for the wholes. -/
theorem Outcome.Related.map
    {υ ω : Type}
    {Next Ended : σ → τ → Prop}
    {Next' Ended' : υ → ω → Prop}
    {f : σ → υ}
    {g : τ → ω}
    {o : Outcome σ ε}
    {p : Outcome τ ε}
    (hOutcome : o.Related Next Ended p)
    (hNext : ∀ s t, Next s t → Next' (f s) (g t))
    (hEnded : ∀ s t, Ended s t → Ended' (f s) (g t)) :
    (o.map f).Related Next' Ended' (p.map g) := by
  cases o with
  | next s =>
      rcases hOutcome.of_next with ⟨t, rfl, hSame⟩
      exact hNext s t hSame
  | leave s =>
      rcases hOutcome.of_leave with ⟨t, rfl, hSame⟩
      exact hEnded s t hSame
  | halt e s =>
      rcases hOutcome.of_halt with ⟨t, rfl, hSame⟩
      exact ⟨rfl, hEnded s t hSame⟩

/-
  The rule for two runs in step: related inputs take related
  states to related outcomes.
-/
theorem related_of_forall₂
    {step : σ → ι → Outcome σ ε}
    {act : τ → κ → Outcome τ ε}
    {Input : ι → κ → Prop}
    {Next Ended : σ → τ → Prop}
    (hStep :
      ∀ i k s t, Input i k → Next s t →
        (step s i).Related Next Ended (act t k))
    {is : List ι}
    {ks : List κ}
    (hInputs : List.Forall₂ Input is ks)
    {s : σ}
    {t : τ}
    (hInit : Next s t) :
    (run step s is).Related Next Ended (run act t ks) := by
  induction hInputs generalizing s t with
  | nil => exact hInit
  | cons hFirst _ ih =>
      rw [run_cons, run_cons]
      exact
        (hStep _ _ s t hFirst hInit).andThen
          fun _ _ hMid => ih hMid

end Foundation
