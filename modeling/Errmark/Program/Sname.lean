import Errmark.Machine.CString
import Errmark.Foundation.Components

/-
  `sname.c`: the last component of a path.

  The loop keeps a candidate for its start, `s`, and the
  character before the current one, `prevc`: a character
  after a slash becomes the candidate.

  Key definitions include:
    * `snameLoop`
    * `sname`
    * `isSlash`

  Key theorems include:
    * `snameLoop_of_clear`
    * `snameLoop_after_slash`
    * `sname_cases`
-/

------------------------------------------------------------
-- sname
------------------------------------------------------------

namespace Errmark

/-
  `while ((c = *p) != 0)`, given what is left of the path at
  `p`: the candidate that is left at the end.
-/
def snameLoop : List UInt8 → Nat → Nat → CInt → Nat
| [], _, s, _ => s
| b :: rest, p, s, prevc =>
    let c := charToInt b
    let s := if prevc = 0x2f then p else s
    snameLoop rest (p + 1) s c

/- A pointer into the path, unless the path is NULL. -/
def sname (path : Option CString) : Option Nat :=
  match path with
  | none => none
  | some path => some (snameLoop path.bytes 0 0 0)

/- `*s == '/'` -/
def isSlash (b : UInt8) : Bool :=
  b = 0x2f

end Errmark

------------------------------------------------------------
-- The Loop
------------------------------------------------------------

namespace Errmark

open Foundation

/- The loop compares ints, which is as good as bytes. -/
theorem charToInt_eq_slash_iff (b : UInt8) :
    charToInt b = 0x2f ↔ isSlash b = true :=
  forall_byte_of_fin
    (fun b => charToInt b = 0x2f ↔ isSlash b = true)
    (by decide +kernel) b

/- Without a slash before its end, the path is one name. -/
theorem snameLoop_of_clear
    {bytes : List UInt8}
    (hClear : ∀ b ∈ bytes.dropLast, isSlash b = false)
    (p s : Nat)
    (prevc : CInt) :
    snameLoop bytes p s prevc =
      if bytes ≠ [] ∧ prevc = 0x2f then p else s := by
  induction bytes generalizing p s prevc with
  | nil => simp [snameLoop]
  | cons b rest ih =>
      rw [snameLoop]
      by_cases hNil : rest = []
      · simp [hNil, snameLoop]
      · rw [List.dropLast_cons_of_ne_nil hNil] at hClear
        have hHead := hClear b (by simp)
        have hNot : ¬ charToInt b = 0x2f := by
          rw [charToInt_eq_slash_iff, hHead]
          exact Bool.false_ne_true
        rw [ih fun c hMem => hClear c (by simp [hMem]),
          if_neg fun hBoth => hNot hBoth.2]
        simp

/- What follows the last slash is the name. -/
theorem snameLoop_after_slash
    (before : List UInt8)
    {slash : UInt8}
    {rest : List UInt8}
    (hSlash : isSlash slash = true)
    (hNe : rest ≠ [])
    (hClear : ∀ b ∈ rest.dropLast, isSlash b = false)
    (p s : Nat)
    (prevc : CInt) :
    snameLoop (before ++ slash :: rest) p s prevc =
      p + before.length + 1 := by
  induction before generalizing p s prevc with
  | nil =>
      have hInt := (charToInt_eq_slash_iff slash).mpr hSlash
      rw [List.nil_append, snameLoop,
        snameLoop_of_clear hClear, if_pos ⟨hNe, hInt⟩]
      rfl
  | cons b before ih =>
      rw [List.cons_append, snameLoop, ih, List.length_cons]
      omega

/-
  Where the result starts, nothing stands before it, or a
  slash does, and there is no later slash but at its end.
-/
theorem sname_cases (path : CString) :
    (sname (some path) = some 0 ∧
        ∀ b ∈ path.bytes.dropLast, isSlash b = false) ∨
      ∃ before slash rest,
        path.bytes = before ++ slash :: rest ∧
          isSlash slash = true ∧
          rest ≠ [] ∧
          (∀ b ∈ rest.dropLast, isSlash b = false) ∧
          sname (some path) =
            some (before.length + 1) := by
  rcases last_separator_cases isSlash path.bytes with
    hClear |
      ⟨before, slash, rest, hSplit, hSlash, hNe, hClear⟩
  · left
    refine ⟨?_, hClear⟩
    rw [sname, snameLoop_of_clear hClear]
    simp
  · right
    refine
      ⟨before, slash, rest, hSplit, hSlash, hNe, hClear, ?_⟩
    rw [sname, hSplit,
      snameLoop_after_slash before hSlash hNe hClear,
      Nat.zero_add]

end Errmark
