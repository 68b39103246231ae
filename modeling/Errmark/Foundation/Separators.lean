import Mathlib.Data.List.Basic
import Mathlib.Tactic.Cases

/-
  Parts of a text, and what tells them apart.

  A part is told from what follows it by a separator that it
  does not hold. So a text of which each line is ended by
  the separator has only one division into lines.

  Key definitions include:
    * `terminated`

  Key theorems include:
    * `append_cons_inj`
    * `terminated_inj`
-/

------------------------------------------------------------
-- Separators
------------------------------------------------------------

namespace Foundation

variable {α : Type*}

/- A part is told from what follows a separator. -/
theorem append_cons_inj
    {c : α}
    {xs ys us vs : List α}
    (hLeft : c ∉ xs)
    (hRight : c ∉ ys)
    (hSame : xs ++ c :: us = ys ++ c :: vs) :
    xs = ys ∧ us = vs := by
  induction xs generalizing ys with
  | nil =>
      cases ys with
      | nil => exact ⟨rfl, List.tail_eq_of_cons_eq hSame⟩
      | cons y ys =>
          have hHead := List.head_eq_of_cons_eq hSame
          simp [hHead] at hRight
  | cons x xs ih =>
      cases ys with
      | nil =>
          have hHead := List.head_eq_of_cons_eq hSame
          simp [hHead] at hLeft
      | cons y ys =>
          rw [List.mem_cons, not_or] at hLeft hRight
          rw [List.cons_append, List.cons_append,
            List.cons.injEq] at hSame
          rcases ih hLeft.2 hRight.2 hSame.2 with
            ⟨hTail, hRest⟩
          rw [hSame.1, hTail]
          exact ⟨rfl, hRest⟩

end Foundation

------------------------------------------------------------
-- Lines
------------------------------------------------------------

namespace Foundation

variable {α : Type*}

/- Each of the lines, and the separator after it. -/
def terminated (c : α) (ls : List (List α)) : List α :=
  ls.flatMap fun l => l ++ [c]

/- The first line, its end, and the other lines. -/
theorem terminated_cons
    (c : α)
    (l : List α)
    (ls : List (List α)) :
    terminated c (l :: ls) = l ++ c :: terminated c ls := by
  simp [terminated]

/- A line leaves a trace, even an empty one. -/
theorem terminated_cons_ne_nil
    (c : α)
    (l : List α)
    (ls : List (List α)) :
    terminated c (l :: ls) ≠ [] := by
  rw [terminated_cons]
  exact List.append_ne_nil_of_right_ne_nil _ (by simp)

/- Lines can be told apart by where they end. -/
theorem terminated_inj
    {c : α}
    {ls ks : List (List α)}
    (hLeft : ∀ l ∈ ls, c ∉ l)
    (hRight : ∀ k ∈ ks, c ∉ k)
    (hSame : terminated c ls = terminated c ks) :
    ls = ks := by
  induction ls generalizing ks with
  | nil =>
      cases ks with
      | nil => rfl
      | cons k ks =>
          exact
            absurd hSame.symm (terminated_cons_ne_nil c k ks)
  | cons l ls ih =>
      cases ks with
      | nil =>
          exact absurd hSame (terminated_cons_ne_nil c l ls)
      | cons k ks =>
          rw [List.forall_mem_cons] at hLeft hRight
          rw [terminated_cons, terminated_cons] at hSame
          rcases
            append_cons_inj hLeft.1 hRight.1 hSame with
            ⟨hLine, hRest⟩
          rw [hLine, ih hLeft.2 hRight.2 hRest]

end Foundation
