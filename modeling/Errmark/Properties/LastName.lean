import Errmark.Program.Sname

/-
  Whether `sname` finds the last component of every path.

  The result is always the end of the path, and has itself
  as its result. The loop moves on at each character after a
  slash, so with two slashes at the end the last slash
  becomes the result, whatever name stands before them.

  Key definitions include:
    * `NamesLast`

  Key theorems include:
    * `sname_inside`
    * `sname_again`
    * `sname_of_short_end`
    * `name_lost`
    * `names_last_iff`
-/

------------------------------------------------------------
-- What Should Be Returned
------------------------------------------------------------

namespace Errmark

open Foundation

/-
  The result is a suffix of the path, which `sname` returns
  as it is, and it starts where the last component does.
-/
structure NamesLast (path : CString) : Prop where
  suffix :
    ∃ s,
      sname (some path) = some s ∧
        s ≤ path.length ∧
        (path.stringAt s).bytes <:+ path.bytes
  again :
    ∀ s, sname (some path) = some s →
      sname (some (path.stringAt s)) = some 0
  component :
    (∃ b ∈ path.bytes, isSlash b = false) →
      ∃ before name after,
        LastRun isSlash path.bytes before name after ∧
          sname (some path) = some before.length

end Errmark

------------------------------------------------------------
-- The Result Of Any Path
------------------------------------------------------------

namespace Errmark

/- The pointer returned points into the path. -/
theorem sname_inside (path : CString) :
    ∃ s,
      sname (some path) = some s ∧
        s ≤ path.length ∧
        (path.stringAt s).bytes <:+ path.bytes := by
  rcases sname_cases path with
    ⟨hStart, _⟩ | ⟨before, slash, rest, hSplit, _, _, _, hLast⟩
  · exact ⟨0, hStart, Nat.zero_le _, List.drop_suffix 0 _⟩
  · refine ⟨_, hLast, ?_, List.drop_suffix _ _⟩
    simp [CString.length, hSplit]

/- A result is its own last component. -/
theorem sname_again
    {path : CString}
    {s : Nat}
    (hResult : sname (some path) = some s) :
    sname (some (path.stringAt s)) = some 0 := by
  have hClear :
      ∀ b ∈ (path.stringAt s).bytes.dropLast,
        isSlash b = false := by
    rcases sname_cases path with
      ⟨hStart, hClear⟩ |
        ⟨before, slash, rest, hSplit, _, _, hClear, hLast⟩
    · have hZero : 0 = s := by simpa [hStart] using hResult
      simpa [CString.stringAt, ← hZero] using hClear
    · have hAfter : before.length + 1 = s := by
        simpa [hLast] using hResult
      have hRest : (path.stringAt s).bytes = rest := by
        simp [CString.stringAt, hSplit, ← hAfter]
      simpa only [hRest] using hClear
  rw [sname, snameLoop_of_clear hClear]
  simp

end Errmark

------------------------------------------------------------
-- The Last Component
------------------------------------------------------------

namespace Errmark

open Foundation

variable {path : CString}
variable {before name after : List UInt8}

/- At most one slash at the end is passed over. -/
theorem sname_of_short_end
    (hRun : LastRun isSlash path.bytes before name after)
    (hShort : after.length ≤ 1) :
    sname (some path) = some before.length := by
  have hClear :
      ∀ b ∈ (name ++ after).dropLast, isSlash b = false := by
    intro b hMem
    apply hRun.inside
    match after, hShort with
    | [], _ =>
        exact List.dropLast_subset _ (by simpa using hMem)
    | [_], _ => simpa using hMem
  have hNe : name ++ after ≠ [] := by
    simp [hRun.nonempty]
  rcases List.eq_nil_or_concat before with
    hNil | ⟨init, slash, hBefore⟩
  · have hSplit : path.bytes = name ++ after := by
      simpa [hNil] using hRun.split
    simp [sname, hSplit, snameLoop_of_clear hClear, hNil]
  · rw [List.concat_eq_append] at hBefore
    have hSlash : isSlash slash = true := by
      simpa [hBefore] using
        hRun.starts (by simp [hBefore])
    have hSplit :
        path.bytes = init ++ slash :: (name ++ after) := by
      simpa [hBefore] using hRun.split
    simp [sname, hSplit, hBefore,
      snameLoop_after_slash init hSlash hNe hClear]

/- Two slashes at the end are not: the last one is left. -/
theorem sname_of_two_slashes
    (hEnd : [0x2f, 0x2f] <:+ path.bytes) :
    sname (some path) = some (path.length - 1) := by
  rcases hEnd with ⟨init, hEnd⟩
  rw [sname, ← hEnd,
    snameLoop_after_slash init (by decide) (by simp)
      (by simp)]
  simp [CString.length, ← hEnd]

/- So the name before them is not found. -/
theorem name_lost
    (hEnd : [0x2f, 0x2f] <:+ path.bytes)
    (hRun : LastRun isSlash path.bytes before name after) :
    sname (some path) ≠ some before.length := by
  intro hResult
  have hAfter : 2 ≤ after.length :=
    hRun.length_after (by decide) (by decide) hEnd
  have hName := List.length_pos_of_ne_nil hRun.nonempty
  have hLength := congrArg List.length hRun.split
  simp only [List.length_append] at hLength
  have hStart : path.length - 1 = before.length := by
    simpa [sname_of_two_slashes hEnd] using hResult
  rw [CString.length] at hStart
  omega

/-
  `sname` does what it should exactly when no two slashes
  end the path, or when there is nothing but slashes in it.
-/
theorem names_last_iff (path : CString) :
    NamesLast path ↔
      ¬ [0x2f, 0x2f] <:+ path.bytes ∨
        ∀ b ∈ path.bytes, isSlash b = true := by
  constructor
  · intro hNames
    by_contra hNeither
    rw [not_or, not_not] at hNeither
    have hItem : ∃ b ∈ path.bytes, isSlash b = false := by
      simpa using hNeither.2
    rcases hNames.component hItem with
      ⟨before, name, after, hRun, hResult⟩
    exact name_lost hNeither.1 hRun hResult
  · intro hEither
    refine ⟨sname_inside path, fun s => sname_again, ?_⟩
    intro hItem
    rcases exists_lastRun hItem with
      ⟨before, name, after, hRun⟩
    refine ⟨before, name, after, hRun, ?_⟩
    apply sname_of_short_end hRun
    by_contra hLong
    rcases hEither with hEnd | hAll
    · rcases hRun.ends_of_length_after (by omega) with
        ⟨first, second, hFirst, hSecond, hSuffix⟩
      simp only [isSlash, decide_eq_true_eq]
        at hFirst hSecond
      rw [hFirst, hSecond] at hSuffix
      exact hEnd hSuffix
    · rcases hItem with ⟨b, hMem, hNot⟩
      simp [hAll b hMem] at hNot

/- `a//` -/
def sampleTwoSlashes : CString where
  bytes := [0x61, 0x2f, 0x2f]
  noNul := by decide

/- A slash is returned, and the name disappears. -/
theorem sample_name_lost :
    sname (some sampleTwoSlashes) = some 2 ∧
      ¬ NamesLast sampleTwoSlashes := by
  refine ⟨by decide, ?_⟩
  intro hNames
  rcases hNames.component ⟨0x61, by decide⟩ with
    ⟨before, name, after, hRun, hResult⟩
  exact name_lost ⟨[0x61], rfl⟩ hRun hResult

end Errmark
