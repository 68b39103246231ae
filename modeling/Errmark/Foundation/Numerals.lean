import Mathlib
import Errmark.Foundation.Separators

/-
  Decimal numerals in texts.

  A numeral is told from what follows it, if that begins
  with a character that no numeral holds, and its length is
  bounded by the number it stands for.

  Key definitions include:
    * `NoNumeral`

  Key theorems include:
    * `numeral_append_inj`
    * `length_numeral_le`
-/

------------------------------------------------------------
-- Numerals
------------------------------------------------------------

namespace Foundation

/- The characters that no numeral holds. -/
def NoNumeral (c : Char) : Prop :=
  c ≠ '-' ∧ c.isDigit = false

instance (c : Char) : Decidable (NoNumeral c) := by
  unfold NoNumeral
  infer_instance

/- A natural number is written in its decimal digits. -/
theorem toList_digits (n : Nat) :
    (toString n).toList = Nat.toDigits 10 n := by
  rw [Nat.toString_eq_ofList_toDigits, String.toList_ofList]

/- A number, as `%d` prints it. -/
theorem toList_numeral_ofNat (n : Nat) :
    (toString (n : Int)).toList = Nat.toDigits 10 n :=
  toList_digits n

/- A negative number is a minus sign and digits. -/
theorem toList_numeral_negSucc (n : Nat) :
    (toString (Int.negSucc n)).toList =
      '-' :: Nat.toDigits 10 (n + 1) := by
  have hText :
      toString (Int.negSucc n) = "-" ++ toString (n + 1) :=
    rfl
  rw [hText, String.toList_append, toList_digits]
  rfl

/- No other character is found in a numeral. -/
theorem notMem_numeral
    {c : Char}
    (hOther : NoNumeral c)
    (n : Int) :
    c ∉ (toString n).toList := by
  have hDigits :
      ∀ k : Nat, c ∉ Nat.toDigits 10 k := by
    intro k hMem
    have hDigit :=
      Nat.isDigit_of_mem_toDigits (by omega) (by omega) hMem
    rw [hOther.2] at hDigit
    cases hDigit
  cases n with
  | ofNat n =>
      rw [Int.ofNat_eq_natCast, toList_numeral_ofNat]
      exact hDigits n
  | negSucc n =>
      rw [toList_numeral_negSucc, List.mem_cons, not_or]
      exact ⟨hOther.1, hDigits (n + 1)⟩

/- Different numbers have different numerals. -/
theorem numeral_inj
    {a b : Int}
    (hSame : (toString a).toList = (toString b).toList) :
    a = b :=
  Int.repr_injective (String.toList_inj.mp hSame)

/- A numeral is told from what follows it. -/
theorem numeral_append_inj
    {a b : Int}
    {c : Char}
    (hOther : NoNumeral c)
    {xs ys : List Char}
    (hSame :
      (toString a).toList ++ c :: xs =
        (toString b).toList ++ c :: ys) :
    a = b ∧ xs = ys := by
  rcases
    append_cons_inj (notMem_numeral hOther a)
      (notMem_numeral hOther b) hSame with
    ⟨hNumeral, hRest⟩
  exact ⟨numeral_inj hNumeral, hRest⟩

/- A sign, and a digit for each power of ten. -/
theorem length_numeral_le
    {n : Int}
    {k : Nat}
    (hPos : 0 < k)
    (hBound : n.natAbs < 10 ^ k) :
    (toString n).toList.length ≤ k + 1 := by
  have hDigits :
      ∀ m : Nat, m < 10 ^ k →
        (Nat.toDigits 10 m).length ≤ k :=
    fun m hLt =>
      (Nat.length_toDigits_le_iff (by omega) hPos).mpr hLt
  cases n with
  | ofNat n =>
      rw [Int.ofNat_eq_natCast, toList_numeral_ofNat]
      exact Nat.le_succ_of_le (hDigits n hBound)
  | negSucc n =>
      rw [toList_numeral_negSucc, List.length_cons]
      exact Nat.succ_le_succ (hDigits (n + 1) hBound)

end Foundation
