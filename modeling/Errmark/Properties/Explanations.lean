import Errmark.Foundation.Numerals
import Errmark.Program.Explain

/-
  What the words for errors and signals tell.

  A symbol tells an error number only if the buffer has room
  for the longest numeral, which the one of `fshow_errno`
  has not. A signal is always put in words if its buffer has
  room for the longest text.

  Key definitions include:
    * `tableSymbol`
    * `numberSymbol`
    * `unlistedText`

  Key theorems include:
    * `decodeEsymR_of_room`
    * `decodeEsymR_inj_iff`
    * `fshowErrno_inj`
    * `symbol_tells_errno_iff`
    * `decodeSignalR_of_room`
    * `signal_always_told_iff`
-/

------------------------------------------------------------
-- Symbols Of Error Numbers
------------------------------------------------------------

namespace Errmark

open Foundation

/- The symbol in the table, if there is one. -/
def tableSymbol (err : CInt) : Option String :=
  if 0 ≤ err.toInt ∧ err.toNat < errnoTable.length then
    errnoTable.getD err.toNat none
  else
    none

/- What is printed for an error without a symbol. -/
def numberSymbol (err : CInt) : List Char :=
  '#' :: (toString err.toInt).toList

/- A number is shown as `#` and its digits. -/
theorem toList_sharp (err : CInt) :
    ("#" ++ toString err.toInt).toList =
      numberSymbol err := by
  rewrite [String.toList_append]
  rfl

/- The symbol is from the table, or a number that is cut. -/
theorem decodeEsymR_eq
    (bufsz : Nat)
    (err : CInt) :
    decodeEsymR bufsz err =
      match tableSymbol err with
      | some sym => some sym
      | none =>
          if bufsz = 0 then none
          else
            some
              (String.ofList
                ((numberSymbol err).take (bufsz - 1))) := by
  unfold decodeEsymR snprintf tableSymbol
  rewrite [toList_sharp]
  rfl

/- The bytes of a symbol, as the digits of a number. -/
def symbolNumber (sym : String) : Nat :=
  sym.toByteArray.data.toList.foldl
    (fun n b => n * 256 + b.toNat) 0

/- No two entries of the table have the same symbol. -/
theorem errnoTable_pairwise :
    errnoTable.Pairwise fun a b => a = none ∨ a ≠ b := by
  have hNumbers :
      (errnoTable.map (Option.map symbolNumber)).Pairwise
        fun a b => a = none ∨ a ≠ b := by
    decide +kernel
  refine (List.pairwise_map.mp hNumbers).imp ?_
  intro a b hDiffer
  rcases hDiffer with hNone | hOther
  · exact Or.inl (Option.map_eq_none_iff.mp hNone)
  · exact Or.inr fun hSame => hOther (by rw [hSame])

/- No symbol is twice in the table. -/
theorem not_lt_of_same_symbol
    {i j : Nat}
    {sym : String}
    (hI : i < errnoTable.length)
    (hJ : j < errnoTable.length)
    (hFirst : errnoTable.getD i none = some sym)
    (hSecond : errnoTable.getD j none = some sym) :
    ¬ i < j := by
  intro hLt
  rw [List.getD_eq_getElem _ _ hI] at hFirst
  rw [List.getD_eq_getElem _ _ hJ] at hSecond
  rcases
    List.pairwise_iff_getElem.mp errnoTable_pairwise i j
      hI hJ hLt with
    hNone | hOther
  · rw [hFirst] at hNone
    cases hNone
  · exact hOther (hFirst.trans hSecond.symm)

/- So a symbol tells its error number. -/
theorem tableSymbol_inj
    {a b : CInt}
    {sym : String}
    (hFirst : tableSymbol a = some sym)
    (hSecond : tableSymbol b = some sym) :
    a = b := by
  unfold tableSymbol at hFirst hSecond
  split at hFirst
  · next hA =>
      split at hSecond
      · next hB =>
          have hBelow :=
            not_lt_of_same_symbol hA.2 hB.2 hFirst hSecond
          have hAbove :=
            not_lt_of_same_symbol hB.2 hA.2 hSecond hFirst
          exact BitVec.toNat_inj.mp (by omega)
      · cases hSecond
  · cases hFirst

/- A symbol is an identifier, which no number is. -/
theorem head_of_tableSymbol
    {err : CInt}
    {sym : String}
    (hSym : tableSymbol err = some sym) :
    sym.toByteArray.data[0]? = some 0x45 := by
  have hAll :
      ∀ entry ∈ errnoTable, ∀ sym ∈ entry,
        sym.toByteArray.data[0]? = some 0x45 := by
    decide +kernel
  unfold tableSymbol at hSym
  split at hSym
  · next hIn =>
      rw [List.getD_eq_getElem _ _ hIn.2] at hSym
      exact hAll _ (List.getElem_mem hIn.2) sym hSym
  · cases hSym

/- A number is no symbol. -/
theorem head_of_numberSymbol (err : CInt) :
    (String.ofList (numberSymbol err)).toByteArray.data[0]? =
      some 0x23 := by
  have hSharp : 0 < "#".toByteArray.data.size := by
    decide +kernel
  rw [← toList_sharp, String.ofList_toList,
    String.toByteArray_append, ByteArray.data_append,
    Array.getElem?_append_left hSharp]
  decide +kernel

/- It takes at most 12 characters. -/
theorem length_numberSymbol_le (err : CInt) :
    (numberSymbol err).length ≤ 12 := by
  have hBound : err.toInt.natAbs < 10 ^ 10 := by
    have hLow := BitVec.le_toInt err
    have hHigh : err.toInt < 2 ^ (32 - 1) := BitVec.toInt_lt
    omega
  exact
    Nat.succ_le_succ (length_numeral_le (by omega) hBound)

/- With enough room, a number is printed as a whole. -/
theorem decodeEsymR_of_room
    {bufsz : Nat}
    (hRoom : 13 ≤ bufsz)
    (err : CInt) :
    decodeEsymR bufsz err =
      match tableSymbol err with
      | some sym => some sym
      | none => some (String.ofList (numberSymbol err)) := by
  have hLength := length_numberSymbol_le err
  have hWhole :
      (numberSymbol err).take (bufsz - 1) =
        numberSymbol err :=
    List.take_of_length_le (by omega)
  rw [decodeEsymR_eq, hWhole, if_neg (by omega)]

/- Different numbers are shown differently. -/
theorem numberSymbol_inj
    {a b : CInt}
    (hSame : numberSymbol a = numberSymbol b) :
    a = b := by
  rw [numberSymbol, numberSymbol, List.cons.injEq] at hSame
  exact BitVec.eq_of_toInt_eq (numeral_inj hSame.2)

/- No symbol of the table looks like a number. -/
theorem tableSymbol_ne_number
    {a b : CInt}
    {sym : String}
    (hSym : tableSymbol a = some sym) :
    sym ≠ String.ofList (numberSymbol b) := by
  intro hSame
  have hHead := head_of_tableSymbol hSym
  rw [hSame, head_of_numberSymbol] at hHead
  exact absurd hHead (by decide)

/- The first two numbers that 11 characters do not tell. -/
theorem numberSymbol_take :
    (numberSymbol (BitVec.ofInt 32 (-2147483648))).take 11 =
      (numberSymbol (BitVec.ofInt 32 (-2147483647))).take
        11 := by
  decide +kernel

/- There has to be room for a sharp, a sign, ten digits and a NUL. -/
theorem decodeEsymR_inj_iff (bufsz : Nat) :
    (∀ a b : CInt,
        decodeEsymR bufsz a = decodeEsymR bufsz b →
          a = b) ↔
      13 ≤ bufsz := by
  constructor
  · intro hTells
    by_contra hShort
    have hCut : bufsz - 1 ≤ 11 := by omega
    have hTake :
        ∀ err,
          (numberSymbol err).take (bufsz - 1) =
            ((numberSymbol err).take 11).take
              (bufsz - 1) := by
      intro err
      rw [List.take_take, Nat.min_eq_left hCut]
    have hSame :
        BitVec.ofInt 32 (-2147483648) =
          BitVec.ofInt 32 (-2147483647) := by
      apply hTells
      rw [decodeEsymR_eq, decodeEsymR_eq, hTake,
        numberSymbol_take, ← hTake]
      rfl
    exact absurd hSame (by decide)
  · intro hRoom a b hSame
    rw [decodeEsymR_of_room hRoom,
      decodeEsymR_of_room hRoom] at hSame
    cases hA : tableSymbol a with
    | some sym =>
        cases hB : tableSymbol b with
        | some sym' =>
            simp only [hA, hB, Option.some.injEq] at hSame
            rw [← hSame] at hB
            exact tableSymbol_inj hA hB
        | none =>
            simp only [hA, hB, Option.some.injEq] at hSame
            exact absurd hSame (tableSymbol_ne_number hA)
    | none =>
        cases hB : tableSymbol b with
        | some sym' =>
            simp only [hA, hB, Option.some.injEq] at hSame
            exact
              absurd hSame.symm (tableSymbol_ne_number hB)
        | none =>
            simp only [hA, hB, Option.some.injEq,
              String.ofList_inj] at hSame
            exact numberSymbol_inj hSame

/- There is a symbol, if the buffer has any room. -/
theorem exists_decodeEsymR
    {bufsz : Nat}
    (hRoom : bufsz ≠ 0)
    (err : CInt) :
    ∃ sym, decodeEsymR bufsz err = some sym := by
  rw [decodeEsymR_eq, if_neg hRoom]
  split
  · exact ⟨_, rfl⟩
  · exact ⟨_, rfl⟩

/- A number ends where the next text begins. -/
theorem eq_of_shown_number
    {xs us vs : List Char}
    {a b : CInt}
    (hSame :
      xs ++ ((toString a.toInt).toList ++ '=' :: us) =
        xs ++ ((toString b.toInt).toList ++ '=' :: vs)) :
    a = b := by
  have hRest := List.append_cancel_left hSame
  exact
    BitVec.eq_of_toInt_eq
      (numeral_append_inj (by decide) hRest).1

/-
  The lines about an error tell its number, which they
  begin with, even where the symbol is cut off.
-/
theorem fshowErrno_inj
    (strerror : CInt → String)
    (msg : String)
    {a b : CInt}
    (hSame :
      fshowErrno strerror msg a =
        fshowErrno strerror msg b) :
    a = b := by
  rcases exists_decodeEsymR (by decide : 12 ≠ 0) a with
    ⟨symA, hA⟩
  rcases exists_decodeEsymR (by decide : 12 ≠ 0) b with
    ⟨symB, hB⟩
  rw [fshowErrno, fshowErrno, hA, hB, Option.map_some,
    Option.map_some, Option.some.injEq] at hSame
  have hList := congrArg String.toList hSame
  simp only [String.toList_append, List.append_assoc]
    at hList
  exact eq_of_shown_number hList

/- The longer buffer of `fexplain_err` changes nothing. -/
theorem fexplainErr_inj
    (strerror : CInt → String)
    {a b : CInt}
    (hSame :
      fexplainErr strerror a = fexplainErr strerror b) :
    a = b := by
  rcases exists_decodeEsymR (by decide : 32 ≠ 0) a with
    ⟨symA, hA⟩
  rcases exists_decodeEsymR (by decide : 32 ≠ 0) b with
    ⟨symB, hB⟩
  rw [fexplainErr, fexplainErr, hA, hB, Option.map_some,
    Option.map_some, Option.some.injEq] at hSame
  have hList := congrArg String.toList hSame
  simp only [String.toList_append, List.append_assoc]
    at hList
  exact eq_of_shown_number hList

/-
  A symbol tells the number of an error if and only if its
  buffer has room for a sharp, a sign, ten digits and a NUL.
  The lines about an error tell the number in any case.
-/
theorem symbol_tells_errno_iff :
    (∀ bufsz : Nat,
      (∀ a b : CInt,
          decodeEsymR bufsz a = decodeEsymR bufsz b →
            a = b) ↔
        13 ≤ bufsz) ∧
      (∀ (strerror : CInt → String) (msg : String)
          (a b : CInt),
        fshowErrno strerror msg a =
            fshowErrno strerror msg b →
          a = b) ∧
        ∀ (strerror : CInt → String) (a b : CInt),
          fexplainErr strerror a = fexplainErr strerror b →
            a = b :=
  ⟨decodeEsymR_inj_iff,
    fun strerror msg _ _ => fshowErrno_inj strerror msg,
    fun strerror _ _ => fexplainErr_inj strerror⟩

end Errmark

------------------------------------------------------------
-- Signals
------------------------------------------------------------

namespace Errmark

open Foundation

variable {siglist : Nat → Option String}

/- What is printed for a signal that is not in the list. -/
def unlistedText (sig : Int) : String :=
  if sigRtMin ≤ sig ∧ sig ≤ sigRtMax then
    "Real-time signal " ++ toString (sig - sigRtMin)
  else
    "Unknown signal " ++ toString sig

/- The text for a signal that is not listed has at most 26. -/
theorem length_unlistedText_le
    {sig : Int}
    (hBound : sig.natAbs < 10 ^ 10) :
    (unlistedText sig).length ≤ 26 := by
  unfold unlistedText
  split
  · next hReal =>
      simp only [sigRtMin, sigRtMax] at hReal ⊢
      have hSmall : (sig - 34).natAbs < 10 ^ 2 := by omega
      have hLength := length_numeral_le (by omega) hSmall
      rw [String.length_toList] at hLength
      have hText : "Real-time signal ".length = 17 := by
        decide
      rw [String.length_append, hText]
      omega
  · have hLength := length_numeral_le (by omega) hBound
    rw [String.length_toList] at hLength
    have hText : "Unknown signal ".length = 15 := by
      decide
    rw [String.length_append, hText]
    omega

/- The text is put in a buffer with room for it. -/
theorem decodeSignalR_of_room
    {sz : Nat}
    {sig : Int}
    (hRoom : (unlistedText sig).length < sz - 1) :
    ∃ text, decodeSignalR siglist sz sig = some text := by
  simp only [decodeSignalR]
  split
  · exact ⟨_, rfl⟩
  · have hWrites : sz - 1 ≠ 0 := by omega
    have hText :
        (if sigRtMin ≤ sig ∧ sig ≤ sigRtMax then
          "Real-time signal " ++ toString (sig - sigRtMin)
        else
          "Unknown signal " ++ toString sig) =
          unlistedText sig := rfl
    rw [hText, if_pos hRoom, snprintf, if_neg hWrites]
    exact ⟨_, rfl⟩

/-
  Every signal is put in words, without an assertion failing
  or a buffer overrun, if and only if the buffer has 28 bytes
  or more.
-/
theorem signal_always_told_iff
    (siglist : Nat → Option String)
    (sz : Nat) :
    (∀ sig : CInt,
        ∃ text,
          decodeSignalR siglist sz sig.toInt =
            some text) ↔
      28 ≤ sz := by
  constructor
  · intro hAlways
    rcases hAlways (BitVec.ofInt 32 (-2147483648)) with
      ⟨text, hText⟩
    have hSig :
        (BitVec.ofInt 32 (-2147483648)).toInt =
          -2147483648 := by
      decide
    rw [hSig] at hText
    have hLength :
        ("Unknown signal " ++
          toString (-2147483648 : Int)).length = 26 := by
      decide +kernel
    have hUnlisted :
        unlistedText (-2147483648) =
          "Unknown signal " ++ toString (-2147483648 : Int) :=
      if_neg (by decide)
    by_contra hShort
    have hFails :
        decodeSignalR siglist sz (-2147483648) = none := by
      have hTooLong :
          ¬ (unlistedText (-2147483648)).length < sz - 1 := by
        rw [hUnlisted, hLength]
        omega
      exact if_neg hTooLong
    rw [hFails] at hText
    cases hText
  · intro hRoom sig
    have hLow := BitVec.le_toInt sig
    have hHigh : sig.toInt < 2 ^ (32 - 1) := BitVec.toInt_lt
    have hLength :=
      length_unlistedText_le
        (show sig.toInt.natAbs < 10 ^ 10 by omega)
    exact decodeSignalR_of_room (by omega)

end Errmark
