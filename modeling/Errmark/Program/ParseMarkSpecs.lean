import Errmark.Program.MarkWrite
import Errmark.Program.ShowStr

/-
  `parse_mark_specs` of `mark-write.c`, and `opt_mark`.

  A pointer into the option's argument is an offset, as in
  `CString`. Besides the value and the marks, the model
  keeps each offset that is read through `*s`, in order, and
  the arguments of each call of `strndup`.

  Key definitions include:
    * `ParseMarkSpecs`
    * `skipStart`
    * `skipEnd`
    * `parseMarkSpecs`
    * `optMark`
-/

------------------------------------------------------------
-- Scanning Loops
------------------------------------------------------------

namespace Errmark

/-
  `while (*s && *s != fsep)`, given what is left of the
  string at `s`: where the loop ends, and what it reads.
-/
def skipStart
    (fsep : UInt8) :
    List UInt8 → Nat → Nat × List Nat
| [], s => (s, [s])
| b :: rest, s =>
    if b ≠ fsep then
      let (last, reads) := skipStart fsep rest (s + 1)
      (last, s :: s :: reads)
    else
      (s, [s, s])

/- `while (*s)` -/
def skipEnd : List UInt8 → Nat → Nat × List Nat
| [], s => (s, [s])
| _ :: rest, s =>
    let (last, reads) := skipEnd rest (s + 1)
    (last, s :: reads)

end Errmark

------------------------------------------------------------
-- parse_mark_specs
------------------------------------------------------------

namespace Errmark

/- The value, and everything done on the way to it. -/
structure ParseMarkSpecs where
  value : Bool
  marks : Marks
  reads : List Nat
  dups : List (Option Nat × Nat)
  printed : List UInt8

/- The start string: where the scan ends, and its length. -/
structure StartField where
  markStart : Nat
  markStartLen : Nat
  s : Nat
  reads : List Nat

/- The scan for the separator behind the starting mark. -/
def scanStart
    (mspec : CString)
    (fsep : UInt8)
    (s : Nat) : StartField :=
  let markStart := s
  let (s, reads) :=
    skipStart fsep (mspec.bytes.drop s) s
  ⟨markStart, s - markStart, s, reads⟩

/- The end string, if a second separator was found. -/
structure EndField where
  markEnd : Option Nat
  markEndLen : Nat
  reads : List Nat

/- The scan for the end of the ending mark. -/
def scanEnd
    (mspec : CString)
    (fsep : UInt8)
    (s : Nat) : EndField :=
  if mspec.char s = fsep then
    let markEnd := s + 1
    let (last, reads) :=
      skipEnd (mspec.bytes.drop markEnd) markEnd
    -- `last` is at the NUL, where no separator is found.
    let stripped :=
      if mspec.char last = fsep then last - 1 else last
    ⟨some markEnd, stripped - markEnd,
      s :: reads ++ [last]⟩
  else
    ⟨none, 0, [s]⟩

/- Debug output about a pair of marks that was set. -/
def showPair
    (fd : String)
    (start finish : CString) : List UInt8 :=
  asciiBytes ("start" ++ fd ++ "=[") ++ fshowStr start ++
    asciiBytes "]\n" ++
    asciiBytes ("end" ++ fd ++ "  =[") ++
    fshowStr finish ++ asciiBytes "]\n"

/- The marks of one descriptor are replaced. -/
def Marks.replace
    (marks : Marks)
    (fd : Int)
    (start finish : CString) : Marks :=
  if fd = 1 then
    { marks with
      start1 := some start.bytes
      end1 := some finish.bytes }
  else if fd = 2 then
    { marks with
      start2 := some start.bytes
      end2 := some finish.bytes }
  else
    marks

/- The pointer that is passed on for a string. -/
def orNull (ptr : Option Nat) (len : Nat) : Option Nat :=
  if len = 0 then none else ptr

/- `parse_mark_specs` -/
def parseMarkSpecs
    (debug : Bool)
    (marks : Marks)
    (mspec : CString) : ParseMarkSpecs :=
  let digit := mspec.char 0
  if digit = 0x31 ∨ digit = 0x32 then
    let fd := (charToInt digit - 0x30).toInt
    let digitReads :=
      if digit = 0x31 then [0, 0] else [0, 0, 0]
    let fsep := mspec.char 1
    if mspec.char 1 = 0 then
      ⟨true, marks, digitReads ++ [1, 1], [], []⟩
    else
      let first := scanStart mspec fsep 2
      let second := scanEnd mspec fsep first.s
      let markStart :=
        orNull (some first.markStart) first.markStartLen
      let markEnd := orNull second.markEnd second.markEndLen
      let start := strndup mspec markStart first.markStartLen
      let finish := strndup mspec markEnd second.markEndLen
      ⟨true, marks.replace fd start finish,
        digitReads ++ [1, 1] ++ first.reads ++ second.reads,
        [(markStart, first.markStartLen),
          (markEnd, second.markEndLen)],
        if debug then
          showPair (if fd = 1 then "1" else "2") start finish
        else
          []⟩
  else
    ⟨false, marks, [0, 0], [], []⟩

end Errmark

------------------------------------------------------------
-- opt_mark
------------------------------------------------------------

namespace Errmark

/- The marks set, what goes to stderr, and an exit code. -/
structure OptMark where
  marks : Marks
  printed : List UInt8
  exit : Option Nat

/- `opt_mark`: a specification is shown if it is rejected. -/
def optMark
    (verbose debug : Bool)
    (marks : Marks)
    (markSpecs : CString) : OptMark :=
  let parsed := parseMarkSpecs debug marks markSpecs
  let printed :=
    if verbose ∨ ¬ parsed.value then
      asciiBytes "--mark='" ++ fshowStr markSpecs ++
        asciiBytes "'\n"
    else
      []
  ⟨parsed.marks, printed,
    if ¬ parsed.value then some 2 else none⟩

end Errmark
