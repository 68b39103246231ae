import Errmark.Machine.CString
import Errmark.Program.RunProgram

/-
  `show-char.c` and `fshow-str.c`: strings made visible.

  `showCharR` is what one call stores in the buffer it is
  given, whatever the size of the buffer: `sprintf` does not
  look at it.

  Key definitions include:
    * `isPrint`
    * `showCharR`
    * `fshowStr`
-/

------------------------------------------------------------
-- One Character
------------------------------------------------------------

namespace Errmark

/- `isprint` in the C locale. -/
def isPrint (chr : CInt) : Bool :=
  0x20 ≤ chr.toInt ∧ chr.toInt ≤ 0x7e

/- `\x%02x` takes an unsigned value of 32 bits. -/
def escapeText (chr : CInt) : List UInt8 :=
  [0x5c, 0x78] ++ asciiBytes (hexByteText chr.toNat)

/-
  The bytes stored at `buf`, with the NUL after them. For a
  buffer of less than 5 bytes the function aborts.
-/
def showCharR
    (sz : Nat)
    (chr : CInt) : Option (List UInt8) :=
  if ¬ sz ≥ 5 then
    none
  else if isPrint chr then
    some [UInt8.ofBitVec (chr.setWidth 8), 0]
  else
    some (escapeText chr ++ [0])

end Errmark

------------------------------------------------------------
-- Whole Strings
------------------------------------------------------------

namespace Errmark

/- `sizeof (dbuf)` -/
def dbufSize : Nat := 8

/- What the iteration for a character stores in `dbuf`. -/
def storedInDbuf (b : UInt8) : List UInt8 :=
  (showCharR dbufSize (charToInt b)).getD []

/- What `fputs(dbuf, f)` writes, one character at a time. -/
def fshowStr (str : CString) : List UInt8 :=
  str.bytes.flatMap fun b =>
    (storedInDbuf b).takeWhile fun c => c ≠ 0

end Errmark
