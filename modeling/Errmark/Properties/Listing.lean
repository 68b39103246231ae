import Errmark.Foundation.Numerals
import Errmark.Program.OptionLoop
import Errmark.Properties.Recovery

/-
  The list of arguments that `--verbose` shows.

  No entry holds the newline that ends it, whatever the
  argument. So the lines of a list are told apart, and with
  them the number of arguments and what is shown for each.
  A list then stands for one command only if each argument
  can be recovered from what is shown for it alone.

  Key definitions include:
    * `listingEntry`

  Key theorems include:
    * `fshowStrArray_eq_terminated`
    * `shown_of_listing`
    * `length_of_listing`
    * `listing_recoverable_iff`
-/

------------------------------------------------------------
-- Entries
------------------------------------------------------------

namespace Errmark

open Foundation

/- The number of an argument, and the bracket after it. -/
def listingIndex (maxw i : Nat) : List UInt8 :=
  asciiBytes
      (String.ofList
        (List.leftpad maxw ' ' (toString i).toList)) ++
    asciiBytes ") ["

/- A line of the list, without its newline. -/
def listingEntry
    (maxw : Nat)
    (entry : List UInt8 × Nat) : List UInt8 :=
  listingIndex maxw entry.2 ++ (entry.1 ++ [0x5d])

/- No digit is a newline. -/
theorem byte_ne_newline
    {c : Char}
    (hDigit : c.isDigit = true) :
    UInt8.ofNat c.toNat ≠ 0x0a := by
  intro hNewline
  rw [Char.isDigit, Bool.and_eq_true, decide_eq_true_eq,
    decide_eq_true_eq] at hDigit
  have hLow : 48 ≤ c.toNat := hDigit.1
  have hHigh : c.toNat ≤ 57 := hDigit.2
  have hByte := congrArg UInt8.toNat hNewline
  rw [UInt8.toNat_ofNat'] at hByte
  have hValue : (0x0a : UInt8).toNat = 10 := rfl
  omega

/- No index holds a newline. -/
theorem newline_notMem_listingIndex (maxw i : Nat) :
    0x0a ∉ listingIndex maxw i := by
  unfold listingIndex
  rw [List.mem_append, not_or]
  refine ⟨?_, by decide +kernel⟩
  unfold asciiBytes
  rw [String.toList_ofList, List.mem_map]
  rintro ⟨c, hMem, hByte⟩
  rw [List.leftpad, List.mem_append] at hMem
  rcases hMem with hPad | hDigit
  · rw [List.eq_of_mem_replicate hPad] at hByte
    exact absurd hByte (by decide)
  · rw [toList_digits] at hDigit
    exact
      byte_ne_newline
        (Nat.isDigit_of_mem_toDigits (by omega) (by omega)
          hDigit)
        hByte

/- Nothing that is shown for an argument is a newline. -/
theorem newline_notMem_fshowStr (s : AsciiText) :
    0x0a ∉ fshowStr s.toCString := by
  rw [fshowStr_of_ascii s.ascii, List.mem_flatMap]
  rintro ⟨b, -, hMem⟩
  exact absurd (isGraphic_of_mem_shownAs hMem) (by decide)

/- Nor does a line, if the string is shown without one. -/
theorem newline_notMem_listingEntry
    {maxw : Nat}
    {entry : List UInt8 × Nat}
    (hShown : 0x0a ∉ entry.1) :
    0x0a ∉ listingEntry maxw entry := by
  unfold listingEntry
  rw [List.mem_append, List.mem_append, not_or, not_or]
  exact
    ⟨newline_notMem_listingIndex maxw entry.2, hShown,
      by decide⟩

end Errmark

------------------------------------------------------------
-- Lists
------------------------------------------------------------

namespace Errmark

open Foundation

/- The lines of the list of what is shown. -/
def listingLines (shown : List (List UInt8)) :
    List (List UInt8) :=
  shown.zipIdx.map
    (listingEntry (toString shown.length).length)

/- What is shown for each of the arguments. -/
def shownArguments (av : List AsciiText) :
    List (List UInt8) :=
  av.map fun s => fshowStr s.toCString

/- The list that is printed for arguments of ASCII. -/
def asciiListing (av : List AsciiText) : List UInt8 :=
  fshowStrArray (av.map fun s => s.toCString)

/- A listing is its lines, each with a newline. -/
theorem fshowStrArray_eq_terminated (av : List AsciiText) :
    asciiListing av =
      terminated 0x0a
        (listingLines (shownArguments av)) := by
  have hEnd : asciiBytes "]\n" = [0x5d, 0x0a] := by
    decide +kernel
  unfold asciiListing fshowStrArray terminated
    listingLines shownArguments
  rw [List.flatMap_map, List.zipIdx_map, List.zipIdx_map,
    List.flatMap_map, List.flatMap_map, List.length_map,
    List.length_map]
  apply List.flatMap_congr
  rintro ⟨s, i⟩ -
  simp [listingEntry, listingIndex, hEnd]

/- No line of a listing holds a newline. -/
theorem newline_notMem_listingLines
    (av : List AsciiText) :
    ∀ l ∈ listingLines (shownArguments av), 0x0a ∉ l := by
  intro l hMem
  rcases List.mem_map.mp hMem with ⟨⟨shown, i⟩, hIn, rfl⟩
  have hShown := List.fst_mem_of_mem_zipIdx hIn
  rcases List.mem_map.mp hShown with ⟨s, -, rfl⟩
  exact
    newline_notMem_listingEntry (newline_notMem_fshowStr s)

/- Entries with the same number tell what is shown. -/
theorem zipIdx_listingEntry_inj
    {maxw i : Nat}
    {shown shown' : List (List UInt8)}
    (hSame :
      (shown.zipIdx i).map (listingEntry maxw) =
        (shown'.zipIdx i).map (listingEntry maxw)) :
    shown = shown' := by
  induction shown generalizing shown' i with
  | nil =>
      cases shown' with
      | nil => rfl
      | cons t shown' => cases hSame
  | cons s shown ih =>
      cases shown' with
      | nil => cases hSame
      | cons t shown' =>
          rw [List.zipIdx_cons, List.zipIdx_cons,
            List.map_cons, List.map_cons,
            List.cons.injEq] at hSame
          have hEntry : s ++ [0x5d] = t ++ [0x5d] :=
            List.append_cancel_left hSame.1
          rw [List.append_cancel_right hEntry,
            ih hSame.2]

/- A list tells what is shown for each of its arguments. -/
theorem shown_of_listing
    {av av' : List AsciiText}
    (hSame : asciiListing av = asciiListing av') :
    shownArguments av = shownArguments av' := by
  rw [fshowStrArray_eq_terminated,
    fshowStrArray_eq_terminated] at hSame
  have hLines :=
    terminated_inj (newline_notMem_listingLines av)
      (newline_notMem_listingLines av') hSame
  have hLength := congrArg List.length hLines
  unfold listingLines at hLines hLength
  rw [List.length_map, List.length_map, List.length_zipIdx,
    List.length_zipIdx] at hLength
  rw [hLength] at hLines
  exact zipIdx_listingEntry_inj hLines

/- Nothing else of the arguments is in the list. -/
theorem listing_of_shown
    {av av' : List AsciiText}
    (hShown : shownArguments av = shownArguments av') :
    asciiListing av = asciiListing av' := by
  rw [fshowStrArray_eq_terminated,
    fshowStrArray_eq_terminated, hShown]

end Errmark

------------------------------------------------------------
-- Recovering A Command
------------------------------------------------------------

namespace Errmark

/- Recoverable arguments are told by how they are shown. -/
theorem eq_of_shown
    {av av' : List AsciiText}
    (hEach : ∀ s ∈ av, Recoverable s)
    (hShown : shownArguments av = shownArguments av') :
    av = av' := by
  induction av generalizing av' with
  | nil =>
      cases av' with
      | nil => rfl
      | cons t av' => cases hShown
  | cons s av ih =>
      cases av' with
      | nil => cases hShown
      | cons t av' =>
          rw [List.forall_mem_cons] at hEach
          rw [shownArguments, shownArguments, List.map_cons,
            List.map_cons, List.cons.injEq] at hShown
          rw [hEach.1 t hShown.1, ih hEach.2 hShown.2]

/- A list tells how many arguments there are. -/
theorem length_of_listing
    {av av' : List AsciiText}
    (hSame : asciiListing av = asciiListing av') :
    av.length = av'.length := by
  have hShown :=
    congrArg List.length (shown_of_listing hSame)
  rw [shownArguments, shownArguments, List.length_map,
    List.length_map] at hShown
  exact hShown

/-
  A list always tells how many arguments there are and what
  is shown for each: brackets, newlines and numbers of a
  list are never mistaken for those of an argument. So the
  arguments of a command can be recovered from it exactly
  when each can be recovered from what is shown for it.
-/
theorem listing_recoverable_iff (av : List AsciiText) :
    (∀ av' : List AsciiText,
        asciiListing av = asciiListing av' →
          av.length = av'.length) ∧
      (∀ av' : List AsciiText,
        asciiListing av = asciiListing av' ↔
          shownArguments av = shownArguments av') ∧
      ((∀ av' : List AsciiText,
          asciiListing av = asciiListing av' → av = av') ↔
        ∀ s ∈ av, Recoverable s) := by
  refine
    ⟨fun _ => length_of_listing,
      fun _ => ⟨shown_of_listing, listing_of_shown⟩, ?_⟩
  constructor
  · intro hList s hMem t hText
    rcases List.append_of_mem hMem with
      ⟨before, after, rfl⟩
    have hSame :
        before ++ s :: after = before ++ t :: after := by
      apply hList
      apply listing_of_shown
      rw [shownArguments, shownArguments, List.map_append,
        List.map_append, List.map_cons, List.map_cons,
        hText]
    exact
      List.head_eq_of_cons_eq
        (List.append_cancel_left hSame)
  · intro hEach av' hSame
    exact eq_of_shown hEach (shown_of_listing hSame)

end Errmark
