import Mathlib.Data.List.DropRight

/-
  Lists that are cut into components by separators.

  The last component is the last run of items that are not
  separators. Any number of separators may follow it, and
  what stands before it, if anything, ends with one.

  Key definitions include:
    * `LastRun`

  Key theorems include:
    * `exists_lastRun`
    * `LastRun.length_after`
    * `LastRun.ends_of_length_after`
    * `last_separator_cases`
-/

------------------------------------------------------------
-- The Last Component
------------------------------------------------------------

namespace Foundation

variable {α : Type}

/- A list split around the last run without separators. -/
structure LastRun
    (sep : α → Bool)
    (items before name after : List α) : Prop where
  split : items = before ++ (name ++ after)
  starts : ∀ hNe : before ≠ [], sep (before.getLast hNe)
  nonempty : name ≠ []
  inside : ∀ x ∈ name, sep x = false
  closes : ∀ x ∈ after, sep x = true

/- There is one unless the list has only separators. -/
theorem exists_lastRun
    {sep : α → Bool}
    {items : List α}
    (hItem : ∃ x ∈ items, sep x = false) :
    ∃ before name after,
      LastRun sep items before name after := by
  let body := items.rdropWhile sep
  have hBody : body ≠ [] := by
    intro hNil
    rcases hItem with ⟨x, hMem, hNot⟩
    have hSep := List.rdropWhile_eq_nil_iff.mp hNil x hMem
    rw [hSep] at hNot
    cases hNot
  refine
    ⟨body.rdropWhile fun x => !sep x,
      body.rtakeWhile fun x => !sep x,
      items.rtakeWhile sep, ?_⟩
  constructor
  case split =>
    rw [← List.append_assoc,
      List.rdropWhile_append_rtakeWhile,
      List.rdropWhile_append_rtakeWhile]
  case starts =>
    intro hNe
    simpa using List.rdropWhile_last_not _ _ hNe
  case nonempty =>
    intro hNil
    have hLast :=
      List.rtakeWhile_eq_nil_iff.mp hNil hBody
    have hNot := List.rdropWhile_last_not sep items hBody
    exact hLast (by simpa using hNot)
  case inside =>
    intro x hMem
    simpa using List.mem_rtakeWhile_imp hMem
  case closes =>
    intro x hMem
    exact List.mem_rtakeWhile_imp hMem

/- Two separators at the end both follow the component. -/
theorem LastRun.length_after
    {sep : α → Bool}
    {items before name after : List α}
    (hRun : LastRun sep items before name after)
    {first second : α}
    (hFirst : sep first = true)
    (hSecond : sep second = true)
    (hEnd : [first, second] <:+ items) :
    2 ≤ after.length := by
  rcases hEnd with ⟨init, hEnd⟩
  rcases List.eq_nil_or_concat name with
    hNil | ⟨start, last, hName⟩
  · exact absurd hNil hRun.nonempty
  · rw [List.concat_eq_append] at hName
    have hLast : sep last = false :=
      hRun.inside last (by simp [hName])
    have hSplit := hEnd.trans hRun.split
    rw [hName] at hSplit
    match after, hSplit with
    | [], hSplit =>
        have hTails :
            (init ++ [first]) ++ [second] =
              (before ++ start) ++ [last] := by
          simpa using hSplit
        have hSame := (List.append_inj' hTails rfl).2
        cases hSame
        rw [hSecond] at hLast
        cases hLast
    | [x], hSplit =>
        have hTails :
            init ++ [first, second] =
              (before ++ start) ++ [last, x] := by
          simpa using hSplit
        have hSame := (List.append_inj' hTails rfl).2
        cases hSame
        rw [hFirst] at hLast
        cases hLast
    | _ :: _ :: _, _ => simp

/- Two separators that follow it are at the end. -/
theorem LastRun.ends_of_length_after
    {sep : α → Bool}
    {items before name after : List α}
    (hRun : LastRun sep items before name after)
    (hLong : 2 ≤ after.length) :
    ∃ first second,
      sep first = true ∧
        sep second = true ∧
        [first, second] <:+ items := by
  have hCloses : ∀ x ∈ after.drop (after.length - 2),
      sep x = true :=
    fun x hMem =>
      hRun.closes x (List.mem_of_mem_drop hMem)
  have hSuffix :
      after.drop (after.length - 2) <:+ items := by
    rw [hRun.split, ← List.append_assoc]
    exact (List.drop_suffix _ _).trans
      (List.suffix_append _ _)
  have hTwo : (after.drop (after.length - 2)).length = 2 := by
    rw [List.length_drop]
    omega
  rcases List.length_eq_two.mp hTwo with
    ⟨first, second, hLast⟩
  rw [hLast] at hCloses hSuffix
  exact ⟨first, second, hCloses first (by simp),
    hCloses second (by simp), hSuffix⟩

/-
  Leaving aside the last item, a list has no separator, or
  there is a last one.
-/
theorem last_separator_cases
    (sep : α → Bool)
    (items : List α) :
    (∀ x ∈ items.dropLast, sep x = false) ∨
      ∃ before x rest,
        items = before ++ x :: rest ∧
          sep x = true ∧
          rest ≠ [] ∧
          ∀ y ∈ rest.dropLast, sep y = false := by
  induction items with
  | nil => exact Or.inl (by simp)
  | cons x items ih =>
      rcases ih with
        hClear | ⟨before, y, rest, hSplit, hSep, hRest⟩
      · by_cases hNil : items = []
        · exact Or.inl (by simp [hNil])
        · cases hHead : sep x with
          | true =>
              exact Or.inr
                ⟨[], x, items, rfl, hHead, hNil, hClear⟩
          | false =>
              left
              rw [List.dropLast_cons_of_ne_nil hNil]
              exact List.forall_mem_cons.mpr
                ⟨hHead, hClear⟩
      · right
        refine ⟨x :: before, y, rest, ?_, hSep, hRest⟩
        rw [hSplit, List.cons_append]

end Foundation
