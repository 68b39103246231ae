import Errmark.Program.ShowStr

/-
  Whether `fshow_str` shows every string safely.

  A byte of ASCII is shown as itself or as an escape of four
  characters. A byte from 0x80 up is negative as a `char`,
  and its escape has the eight digits of an unsigned `int`,
  which is more than the buffer holds.

  Key definitions include:
    * `isGraphic`
    * `shownAs`
    * `SafelyShown`

  Key theorems include:
    * `storedInDbuf_of_ascii`
    * `storedInDbuf_of_high`
    * `safely_shown_iff`
-/

------------------------------------------------------------
-- What Should Be Shown
------------------------------------------------------------

namespace Errmark

/- A printable character of ASCII. -/
def isGraphic (b : UInt8) : Bool :=
  0x20 ≤ b ∧ b ≤ 0x7e

/- A hex digit of a number below 16. -/
def hexDigit (n : UInt8) : UInt8 :=
  if n < 10 then 0x30 + n else 0x57 + n

/- A backslash, an `x` and two digits, unless printable. -/
def shownAs (b : UInt8) : List UInt8 :=
  if isGraphic b then [b]
  else [0x5c, 0x78, hexDigit (b / 16), hexDigit (b % 16)]

/-
  No character overflows the buffer, each is shown as it
  should be, and so the output is graphic and at most four
  times as long as the string.
-/
structure SafelyShown (str : CString) : Prop where
  fits :
    ∀ b ∈ str.bytes, (storedInDbuf b).length ≤ dbufSize
  shown : fshowStr str = str.bytes.flatMap shownAs
  graphic : ∀ c ∈ fshowStr str, isGraphic c
  length : (fshowStr str).length ≤ 4 * str.length

end Errmark

------------------------------------------------------------
-- One Character
------------------------------------------------------------

namespace Errmark

/- The escape has two digits when the sign is not extended. -/
theorem storedInDbuf_of_ascii
    {b : UInt8}
    (hAscii : b < 0x80) :
    storedInDbuf b = shownAs b ++ [0] :=
  forall_byte_of_fin
    (fun b =>
      b < 0x80 → storedInDbuf b = shownAs b ++ [0])
    (by decide +kernel) b hAscii

/- It has eight digits when it is. -/
theorem storedInDbuf_of_high
    {b : UInt8}
    (hHigh : ¬ b < 0x80) :
    (storedInDbuf b).length = 11 :=
  forall_byte_of_fin
    (fun b => ¬ b < 0x80 → (storedInDbuf b).length = 11)
    (by decide +kernel) b hHigh

/- What is shown for a byte is graphic, and short. -/
theorem isGraphic_of_mem_shownAs
    {b c : UInt8}
    (hMem : c ∈ shownAs b) :
    isGraphic c = true :=
  forall_mem_byte_of_fin shownAs isGraphic
    (by decide +kernel) hMem

/- A 7-bit byte is shown by at most four. -/
theorem length_shownAs_le (b : UInt8) :
    (shownAs b).length ≤ 4 := by
  unfold shownAs
  split
  · simp
  · simp

/- None of them is a NUL. -/
theorem takeWhile_shownAs (b : UInt8) :
    (shownAs b ++ [0]).takeWhile (fun c => c ≠ 0) =
      shownAs b :=
  forall_byte_of_fin
    (fun b =>
      (shownAs b ++ [0]).takeWhile (fun c => c ≠ 0) =
        shownAs b)
    (by decide +kernel) b

end Errmark

------------------------------------------------------------
-- Whole Strings
------------------------------------------------------------

namespace Errmark

/- So a 7-bit string is shown byte by byte. -/
theorem fshowStr_of_ascii
    {str : CString}
    (hAscii : ∀ b ∈ str.bytes, b < 0x80) :
    fshowStr str = str.bytes.flatMap shownAs := by
  unfold fshowStr
  apply List.flatMap_congr
  intro b hMem
  rw [storedInDbuf_of_ascii (hAscii b hMem),
    takeWhile_shownAs]

/- It takes at most four times its length. -/
theorem length_flatMap_shownAs_le (bytes : List UInt8) :
    (bytes.flatMap shownAs).length ≤ 4 * bytes.length := by
  induction bytes with
  | nil => simp
  | cons b bytes ih =>
      have hByte := length_shownAs_le b
      rw [List.flatMap_cons, List.length_append,
        List.length_cons]
      omega

/- A string is shown safely exactly when it is ASCII. -/
theorem safely_shown_iff (str : CString) :
    SafelyShown str ↔ ∀ b ∈ str.bytes, b < 0x80 := by
  constructor
  · intro hSafe b hMem
    by_contra hHigh
    have hFits := hSafe.fits b hMem
    rw [storedInDbuf_of_high hHigh, dbufSize] at hFits
    omega
  · intro hAscii
    have hShown := fshowStr_of_ascii hAscii
    refine ⟨?_, hShown, ?_, ?_⟩
    · intro b hMem
      have hByte := length_shownAs_le b
      rw [storedInDbuf_of_ascii (hAscii b hMem),
        List.length_append, List.length_singleton, dbufSize]
      omega
    · intro c hMem
      rw [hShown] at hMem
      rcases List.mem_flatMap.mp hMem with ⟨b, _, hIn⟩
      exact isGraphic_of_mem_shownAs hIn
    · rw [hShown]
      exact length_flatMap_shownAs_le str.bytes

/- An `e` with an acute accent, in UTF-8. -/
def sampleAccent : CString where
  bytes := [0xc3, 0xa9]
  noNul := by decide

/- Eleven bytes are stored in a buffer of eight. -/
theorem sample_not_safely_shown :
    (storedInDbuf 0xc3).length = 11 ∧
      ¬ SafelyShown sampleAccent := by
  refine ⟨by decide +kernel, ?_⟩
  intro hSafe
  have hFits := hSafe.fits 0xc3 (by decide)
  revert hFits
  decide +kernel

end Errmark
