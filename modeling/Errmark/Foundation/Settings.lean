import Errmark.Foundation.Runs

/-
  Settings that the last input to name one decides.

  Each input may set a value. What a list of inputs sets is
  the value of the last one that sets any. A run keeps such
  a setting if each of its steps lets the input override
  what was set before.

  Key definitions include:
    * `lastSetting`

  Key theorems include:
    * `lastSetting_cons`
    * `lastSetting_eq_some_iff`
    * `setting_of_run`
-/

------------------------------------------------------------
-- Last Settings
------------------------------------------------------------

namespace Foundation

variable {σ ι ε α : Type}

/- The value of the last input that sets one. -/
def lastSetting
    (value : ι → Option α)
    (is : List ι) : Option α :=
  is.reverse.findSome? value

variable {value : ι → Option α}

/- Without inputs nothing is set. -/
@[simp] theorem lastSetting_nil :
    lastSetting value [] = none := rfl

/- A later value overrides the first one. -/
theorem lastSetting_cons
    (i : ι)
    (is : List ι) :
    lastSetting value (i :: is) =
      (lastSetting value is).or (value i) := by
  rw [lastSetting, List.reverse_cons, List.findSome?_append,
    List.findSome?_singleton, lastSetting]

/- It comes from an input, and none after it sets another. -/
theorem lastSetting_eq_some_iff
    {is : List ι}
    {a : α} :
    lastSetting value is = some a ↔
      ∃ before i after,
        is = before ++ i :: after ∧ value i = some a ∧
          ∀ j ∈ after, value j = none := by
  rw [lastSetting, List.findSome?_eq_some_iff]
  constructor
  · rintro ⟨after, i, before, hSplit, hValue, hNone⟩
    refine
      ⟨before.reverse, i, after.reverse, ?_, hValue, ?_⟩
    · rw [← is.reverse_reverse, hSplit]
      simp
    · intro j hMem
      exact hNone j (List.mem_reverse.mp hMem)
  · rintro ⟨before, i, after, rfl, hValue, hNone⟩
    refine
      ⟨after.reverse, i, before.reverse, by simp, hValue, ?_⟩
    intro j hMem
    exact hNone j (List.mem_reverse.mp hMem)

/- Nothing is set if and only if no input sets a value. -/
theorem lastSetting_eq_none_iff
    {is : List ι} :
    lastSetting value is = none ↔
      ∀ i ∈ is, value i = none := by
  simp [lastSetting]

end Foundation

------------------------------------------------------------
-- Settings Along A Run
------------------------------------------------------------

namespace Foundation

variable {σ ι ε α : Type}

/-
  The rule for settings: where each step lets its input
  override the setting, so does the list of all inputs.
-/
theorem setting_of_run
    {step : σ → ι → Outcome σ ε}
    {Inv : σ → Prop}
    {value : ι → Option α}
    {setting : σ → Option α}
    (hStep :
      ∀ s i s', Inv s → step s i = .next s' →
        Inv s' ∧ setting s' = (value i).or (setting s))
    {s s' : σ}
    {is : List ι}
    (hInit : Inv s)
    (hRun : run step s is = .next s') :
    setting s' =
      (lastSetting value is).or (setting s) := by
  induction is generalizing s with
  | nil =>
      cases hRun
      rfl
  | cons i is ih =>
      rw [run_cons, Outcome.andThen_eq_next_iff] at hRun
      rcases hRun with ⟨mid, hFirst, hRest⟩
      rcases hStep s i mid hInit hFirst with ⟨hInv, hSet⟩
      rw [ih hInv hRest, hSet, lastSetting_cons,
        Option.or_assoc]

end Foundation
