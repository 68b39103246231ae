import Errmark.Machine.CString
import Errmark.Program.State

/-
  `lookup-color-name.c`, and `setmark` of `mark-write.c`.

  A color is a name with the escape sequences that turn it
  on and off. With `bright-` before it, the name is looked
  up in a second table.

  Key definitions include:
    * `ColorEsc`
    * `lookupColor`
    * `setMark`
    * `KnownColor`

  Key theorems include:
    * `lookupColor_isSome_iff`
-/

------------------------------------------------------------
-- Tables Of Colors
------------------------------------------------------------

namespace Errmark

/- `color_esc_t`, with texts instead of pointers to them. -/
structure ColorEsc where
  name : String
  escStart : List UInt8
  escEnd : List UInt8
  deriving DecidableEq, Repr

/- An escape sequence: `\e` and what follows it. -/
def escSequence (text : String) : List UInt8 :=
  0x1b :: asciiBytes text

/- `normal_colors` -/
def normalColors : List ColorEsc :=
  [⟨"black", escSequence "[0;30m", escSequence "[m"⟩,
    ⟨"red", escSequence "[0;31m", escSequence "[m"⟩,
    ⟨"green", escSequence "[0;32m", escSequence "[m"⟩,
    ⟨"yellow", escSequence "[0;33m", escSequence "[m"⟩,
    ⟨"blue", escSequence "[0;34m", escSequence "[m"⟩,
    ⟨"magenta", escSequence "[0;35m", escSequence "[m"⟩,
    ⟨"cyan", escSequence "[0;36m", escSequence "[m"⟩,
    ⟨"white", escSequence "[0;37m", escSequence "[m"⟩]

/- `bright_colors` -/
def brightColors : List ColorEsc :=
  [⟨"black", escSequence "[1;30m", escSequence "[m"⟩,
    ⟨"red", escSequence "[1;31m", escSequence "[m"⟩,
    ⟨"green", escSequence "[1;32m", escSequence "[m"⟩,
    ⟨"yellow", escSequence "[1;33m", escSequence "[m"⟩,
    ⟨"blue", escSequence "[1;34m", escSequence "[m"⟩,
    ⟨"magenta", escSequence "[1;35m", escSequence "[m"⟩,
    ⟨"cyan", escSequence "[1;36m", escSequence "[m"⟩,
    ⟨"white", escSequence "[1;37m", escSequence "[m"⟩]

/- `strcmp` with each name of a table. -/
def findColor
    (table : List ColorEsc)
    (name : List UInt8) : Option ColorEsc :=
  table.find? fun ent => asciiBytes ent.name = name

/- `lookup_color`: the table is chosen by the prefix. -/
def lookupColor (name : Option CString) : Option ColorEsc :=
  match name with
  | none => none
  | some name =>
      if (asciiBytes "bright-").isPrefixOf name.bytes then
        findColor brightColors (name.bytes.drop 7)
      else
        findColor normalColors name.bytes

/- The names of a table, with spaces between them. -/
def showColorTable (table : List ColorEsc) : List UInt8 :=
  [0x20].intercalate (table.map fun ent => asciiBytes ent.name)

end Errmark

------------------------------------------------------------
-- setmark
------------------------------------------------------------

namespace Errmark

/- The value, the marks, and what goes to stderr. -/
structure SetMark where
  value : Bool
  marks : Marks
  printed : List UInt8

/- `setmark`: the marks of a descriptor are replaced. -/
def setMark
    (marks : Marks)
    (fd : Int)
    (mStart mEnd : List UInt8) : SetMark :=
  if fd = 1 then
    ⟨true,
      { marks with
        start1 := some mStart
        end1 := some mEnd },
      []⟩
  else if fd = 2 then
    ⟨true,
      { marks with
        start2 := some mStart
        end2 := some mEnd },
      []⟩
  else
    ⟨false, marks,
      asciiBytes
        ("fd=" ++ toString fd ++
          " -- only fd 1 or 2 are supported.\n")⟩

end Errmark

------------------------------------------------------------
-- Known Colors
------------------------------------------------------------

namespace Errmark

/- The names of the colors, in either table. -/
def colorNames : List String :=
  ["black", "red", "green", "yellow", "blue", "magenta",
    "cyan", "white"]

/- One of the names, maybe with `bright-` before it. -/
def KnownColor (name : CString) : Prop :=
  ∃ color ∈ colorNames,
    name.bytes = asciiBytes color ∨
      name.bytes = asciiBytes ("bright-" ++ color)

/- A color is found by one of the names. -/
theorem findColor_isSome_iff
    {table : List ColorEsc}
    (hNames : table.map ColorEsc.name = colorNames)
    (name : List UInt8) :
    (findColor table name).isSome = true ↔
      ∃ color ∈ colorNames, asciiBytes color = name := by
  rw [findColor, List.find?_isSome, ← hNames]
  simp

/- A bright color is named after a normal one. -/
theorem asciiBytes_bright (color : String) :
    asciiBytes ("bright-" ++ color) =
      asciiBytes "bright-" ++ asciiBytes color := by
  simp [asciiBytes]

/- No plain name looks like a bright one. -/
theorem not_bright_of_mem
    {color : String}
    (hMem : color ∈ colorNames) :
    ¬ asciiBytes "bright-" <+: asciiBytes color := by
  revert color
  decide +kernel

/- Exactly the known colors are found. -/
theorem lookupColor_isSome_iff (name : CString) :
    (lookupColor (some name)).isSome = true ↔
      KnownColor name := by
  simp only [lookupColor, KnownColor]
  by_cases hBright : asciiBytes "bright-" <+: name.bytes
  · rw [if_pos (by simpa using hBright),
      findColor_isSome_iff (by decide)]
    rcases hBright with ⟨rest, hName⟩
    have hDrop : name.bytes.drop 7 = rest := by
      rw [← hName]
      rfl
    rw [hDrop]
    apply exists_congr
    intro color
    apply and_congr_right
    intro hMem
    rw [asciiBytes_bright, ← hName, List.append_cancel_left_eq]
    constructor
    · exact fun hSame => Or.inr hSame.symm
    · rintro (hPlain | hSame)
      · refine absurd ?_ (not_bright_of_mem hMem)
        exact ⟨rest, hPlain⟩
      · exact hSame.symm
  · rw [if_neg (by simpa using hBright),
      findColor_isSome_iff (by decide)]
    apply exists_congr
    intro color
    apply and_congr_right
    intro _
    constructor
    · exact fun hSame => Or.inl hSame.symm
    · rintro (hPlain | hSame)
      · exact hPlain.symm
      · refine absurd ?_ hBright
        rw [hSame, asciiBytes_bright]
        exact List.prefix_append _ _

end Errmark
