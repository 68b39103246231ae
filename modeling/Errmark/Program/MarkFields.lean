import Mathlib.Data.List.TakeWhile
import Errmark.Program.ParseMarkSpecs

/-
  What `parse_mark_specs` makes of a text, field by field.

  After the digit and the separator, the start string goes
  up to the next separator, and the end string is all that
  follows it. `parse_of_accepted` gives the marks, the calls
  of `strndup` and a bound for the reads in these terms.

  Key definitions include:
    * `startField`
    * `endField`
    * `Accepted`

  Key theorems include:
    * `parse_of_accepted`
    * `parse_of_rejected`
    * `parse_of_digit`
    * `text_cases`
    * `parse_value_iff`
-/

------------------------------------------------------------
-- Fields Of A Text
------------------------------------------------------------

namespace Errmark

/- Up to the next separator. -/
def startField
    (fsep : UInt8)
    (rest : List UInt8) : List UInt8 :=
  rest.takeWhile fun b => b ≠ fsep

/- All that follows it, if there is one. -/
def endField
    (fsep : UInt8)
    (rest : List UInt8) : List UInt8 :=
  (rest.dropWhile fun b => b ≠ fsep).tail

/- The digit that stands for a descriptor. -/
def fdDigit (fd : Int) : UInt8 :=
  if fd = 1 then 0x31 else 0x32

/- The text is a digit, a separator and more. -/
def Accepted
    (fd : Int)
    (fsep : UInt8)
    (rest : List UInt8)
    (mspec : CString) : Prop :=
  (fd = 1 ∨ fd = 2) ∧
    mspec.bytes = fdDigit fd :: fsep :: rest

/- A separator ends the start string. -/
theorem fields_cons_of_eq
    (fsep : UInt8)
    (rest : List UInt8) :
    startField fsep (fsep :: rest) = [] ∧
      endField fsep (fsep :: rest) = rest := by
  simp [startField, endField]

/- Any other byte belongs to it. -/
theorem fields_cons_of_ne
    {b fsep : UInt8}
    (hNe : b ≠ fsep)
    (rest : List UInt8) :
    startField fsep (b :: rest) =
        b :: startField fsep rest ∧
      endField fsep (b :: rest) = endField fsep rest := by
  simp [startField, endField, hNe]

/- A field that ends at a separator is told from the rest. -/
theorem fields_append
    {fsep : UInt8}
    {start : List UInt8}
    (hStart : fsep ∉ start)
    (rest : List UInt8) :
    startField fsep (start ++ fsep :: rest) = start ∧
      endField fsep (start ++ fsep :: rest) = rest := by
  induction start with
  | nil => exact fields_cons_of_eq fsep rest
  | cons b start ih =>
      simp only [List.mem_cons, not_or] at hStart
      rcases ih hStart.2 with ⟨hField, hRest⟩
      rcases fields_cons_of_ne (Ne.symm hStart.1)
        (start ++ fsep :: rest) with ⟨hHead, hTail⟩
      rw [List.cons_append, hHead, hTail, hField]
      exact ⟨rfl, hRest⟩

/- The two fields make up the text, or there is only one. -/
theorem fields_cases
    (fsep : UInt8)
    (rest : List UInt8) :
    (rest = startField fsep rest ∧
        endField fsep rest = []) ∨
      rest =
        startField fsep rest ++ fsep ::
          endField fsep rest := by
  induction rest with
  | nil => exact Or.inl ⟨rfl, rfl⟩
  | cons b rest ih =>
      by_cases hSep : b = fsep
      · right
        rcases fields_cons_of_eq fsep rest with
          ⟨hHead, hTail⟩
        rw [hSep, hHead, hTail, List.nil_append]
      · rcases fields_cons_of_ne hSep rest with
          ⟨hHead, hTail⟩
        rw [hHead, hTail, List.cons_append]
        rcases ih with ⟨hOnly, hNone⟩ | hBoth
        · exact Or.inl ⟨congrArg (b :: ·) hOnly, hNone⟩
        · exact Or.inr (congrArg (b :: ·) hBoth)

/- The start string is all that has no separator. -/
theorem fsep_not_mem_startField
    (fsep : UInt8)
    (rest : List UInt8) :
    fsep ∉ startField fsep rest := by
  intro hMem
  simpa using List.mem_takeWhile_imp hMem

end Errmark

------------------------------------------------------------
-- The Scanning Loops
------------------------------------------------------------

namespace Errmark

/- The first loop ends after the start string. -/
theorem skipStart_last
    (fsep : UInt8)
    (rest : List UInt8)
    (s : Nat) :
    (skipStart fsep rest s).1 =
      s + (startField fsep rest).length := by
  induction rest generalizing s with
  | nil => rfl
  | cons b rest ih =>
      rw [skipStart, startField]
      by_cases hSep : b = fsep
      · simp [hSep]
      · rw [if_pos hSep, ih, startField,
          List.takeWhile_cons_of_pos (by simp [hSep]),
          List.length_cons]
        omega

/- The starting mark is read up to the NUL at most. -/
theorem skipStart_reads
    (fsep : UInt8)
    (rest : List UInt8)
    (s : Nat) :
    ∀ i ∈ (skipStart fsep rest s).2,
      i ≤ s + rest.length := by
  induction rest generalizing s with
  | nil => simp [skipStart]
  | cons b rest ih =>
      intro i hMem
      rw [skipStart] at hMem
      split at hMem
      · simp only [List.mem_cons] at hMem
        rcases hMem with hFirst | hSecond | hLater
        · omega
        · omega
        · have hBound := ih (s + 1) i hLater
          rw [List.length_cons]
          omega
      · simp only [List.mem_cons, List.not_mem_nil,
          or_false, or_self] at hMem
        omega

/- The second one ends at the NUL. -/
theorem skipEnd_last
    (rest : List UInt8)
    (s : Nat) :
    (skipEnd rest s).1 = s + rest.length := by
  induction rest generalizing s with
  | nil => rfl
  | cons b rest ih =>
      rw [skipEnd, ih, List.length_cons]
      omega

/- So is the ending mark. -/
theorem skipEnd_reads
    (rest : List UInt8)
    (s : Nat) :
    ∀ i ∈ (skipEnd rest s).2, i ≤ s + rest.length := by
  induction rest generalizing s with
  | nil => simp [skipEnd]
  | cons b rest ih =>
      intro i hMem
      rw [skipEnd] at hMem
      rcases List.mem_cons.mp hMem with hFirst | hLater
      · omega
      · have hBound := ih (s + 1) i hLater
        rw [List.length_cons]
        omega

end Errmark

------------------------------------------------------------
-- The Two Scans
------------------------------------------------------------

namespace Errmark

variable {mspec : CString}
variable {fsep : UInt8}

/- At the NUL there is no end string. -/
theorem scanEnd_of_nul
    (hNe : fsep ≠ 0) :
    scanEnd mspec fsep mspec.length =
      ⟨none, 0, [mspec.length]⟩ := by
  rw [scanEnd, CString.char_length, if_neg (Ne.symm hNe)]

/-
  After a separator the end string is the rest of the text.
  The last test finds a NUL, so nothing is stripped.
-/
theorem scanEnd_of_fsep
    {before last : List UInt8}
    (hNe : fsep ≠ 0)
    (hBytes : mspec.bytes = before ++ fsep :: last) :
    scanEnd mspec fsep before.length =
      ⟨some (before.length + 1), last.length,
        before.length ::
            (skipEnd last (before.length + 1)).2 ++
          [mspec.length]⟩ := by
  have hChar : mspec.char before.length = fsep := by
    simp [CString.char, hBytes]
  have hDrop :
      mspec.bytes.drop (before.length + 1) = last := by
    simp [hBytes, List.drop_append]
  have hEnd :
      (skipEnd last (before.length + 1)).1 =
        mspec.length := by
    rw [skipEnd_last, CString.length, hBytes,
      List.length_append, List.length_cons]
    omega
  have hLen :
      mspec.length - (before.length + 1) =
        last.length := by
    rw [← hEnd, skipEnd_last]
    omega
  rw [scanEnd, if_pos hChar]
  simp only [hDrop, hEnd, CString.char_length,
    if_neg (Ne.symm hNe), hLen]

/- The copy of a string that may be passed as NULL. -/
theorem strndup_orNull
    (mspec : CString)
    (s len : Nat) :
    (strndup mspec (orNull (some s) len) len).bytes =
      (mspec.bytes.drop s).take len := by
  unfold orNull
  split
  · next hZero => simp [strndup, hZero]
  · rfl

end Errmark

------------------------------------------------------------
-- The Fields Of An Accepted Text
------------------------------------------------------------

namespace Errmark

variable {fd : Int}
variable {fsep : UInt8}
variable {rest : List UInt8}
variable {mspec : CString}

namespace Accepted

/- A separator is a character of the string. -/
theorem fsep_ne_nul
    (hText : Accepted fd fsep rest mspec) :
    fsep ≠ 0 := by
  intro hNul
  apply mspec.noNul
  rw [hText.2, ← hNul]
  simp

/- A digit, a separator, and the rest. -/
theorem length
    (hText : Accepted fd fsep rest mspec) :
    mspec.length = rest.length + 2 := by
  rw [CString.length, hText.2]
  rfl

/- The scan of the start string. -/
theorem scanStart
    (hText : Accepted fd fsep rest mspec) :
    Errmark.scanStart mspec fsep 2 =
      ⟨2, (startField fsep rest).length,
        (startField fsep rest).length + 2,
        (skipStart fsep rest 2).2⟩ := by
  have hDrop : mspec.bytes.drop 2 = rest := by
    rw [hText.2]
    rfl
  have hLast := skipStart_last fsep rest 2
  rw [Nat.add_comm] at hLast
  rw [Errmark.scanStart]
  simp only [hDrop, hLast, Nat.add_sub_cancel]

/-
  The scan of the end string: its length, its copy, and
  reads up to the NUL.
-/
theorem scanEnd
    (hText : Accepted fd fsep rest mspec)
    {second : EndField}
    (hSecond :
      Errmark.scanEnd mspec fsep
        ((startField fsep rest).length + 2) = second) :
    second.markEndLen = (endField fsep rest).length ∧
      (strndup mspec
        (orNull second.markEnd second.markEndLen)
        second.markEndLen).bytes = endField fsep rest ∧
      (orNull second.markEnd second.markEndLen = none ↔
        endField fsep rest = []) ∧
      ∀ i ∈ second.reads, i ≤ mspec.length := by
  have hNe := hText.fsep_ne_nul
  have hBytes := hText.2
  rcases fields_cases fsep rest with
    ⟨hOnly, hNone⟩ | hBoth
  · have hLength := hText.length
    rw [← hOnly, ← hLength, scanEnd_of_nul hNe] at hSecond
    rw [← hSecond, hNone]
    refine ⟨rfl, rfl, by simp [orNull], ?_⟩
    intro i hMem
    rw [List.mem_singleton.mp hMem]
  · rw [hBoth] at hBytes
    have hSplit :
        mspec.bytes =
          (fdDigit fd :: fsep :: startField fsep rest) ++
            fsep :: endField fsep rest := hBytes
    have hScan := scanEnd_of_fsep hNe hSplit
    simp only [List.length_cons] at hScan
    rw [hScan] at hSecond
    rw [← hSecond]
    refine ⟨rfl, ?_, by simp [orNull], ?_⟩
    · rw [strndup_orNull, hSplit]
      simp
    · intro i hMem
      have hReads :=
        skipEnd_reads (endField fsep rest)
          ((startField fsep rest).length + 1 + 1 + 1)
      have hLength := congrArg List.length hSplit
      simp only [List.length_append, List.length_cons]
        at hLength
      rw [CString.length]
      simp only [List.cons_append, List.mem_cons,
        List.mem_append, List.not_mem_nil, or_false]
        at hMem
      rcases hMem with hFirst | hLoop | hLast
      · omega
      · have hBound := hReads i hLoop
        omega
      · rw [hLast, CString.length]

end Accepted

end Errmark

------------------------------------------------------------
-- Results Of parse_mark_specs
------------------------------------------------------------

namespace Errmark

variable {fd : Int}
variable {fsep : UInt8}
variable {rest : List UInt8}
variable {mspec : CString}

/- One descriptor gets its marks, the others keep theirs. -/
theorem text_replace
    (marks : Marks)
    (start finish : CString)
    (hFd : fd = 1 ∨ fd = 2) :
    (marks.replace fd start finish).text fd .start =
        some start.bytes ∧
      (marks.replace fd start finish).text fd .finish =
        some finish.bytes ∧
      ∀ other, other ≠ fd → ∀ edge,
        (marks.replace fd start finish).text other edge =
          marks.text other edge := by
  rcases hFd with rfl | rfl
  · refine ⟨rfl, rfl, ?_⟩
    intro other hOther edge
    simp [Marks.replace, Marks.text, hOther]
  · refine ⟨rfl, rfl, ?_⟩
    intro other hOther edge
    simp [Marks.replace, Marks.text, hOther]

/- The result for a text with a digit and a separator. -/
theorem parse_of_accepted
    (debug : Bool)
    (marks : Marks)
    (hText : Accepted fd fsep rest mspec) :
    ∃ start finish : CString,
      start.bytes = startField fsep rest ∧
        finish.bytes = endField fsep rest ∧
        (parseMarkSpecs debug marks mspec).value = true ∧
        (parseMarkSpecs debug marks mspec).marks =
          marks.replace fd start finish ∧
        ((∀ dup ∈ (parseMarkSpecs debug marks mspec).dups,
            dup.1 ≠ none) ↔
          startField fsep rest ≠ [] ∧
            endField fsep rest ≠ []) ∧
        ∀ i ∈ (parseMarkSpecs debug marks mspec).reads,
          i ≤ mspec.length := by
  have hNe := hText.fsep_ne_nul
  have hLength := hText.length
  have hDigit : mspec.char 0 = fdDigit fd := by
    simp [CString.char, hText.2]
  have hSep : mspec.char 1 = fsep := by
    simp [CString.char, hText.2]
  have hKnown : fdDigit fd = 0x31 ∨ fdDigit fd = 0x32 := by
    rcases hText.1 with rfl | rfl
    · exact Or.inl rfl
    · exact Or.inr rfl
  have hFd : (charToInt (fdDigit fd) - 0x30).toInt = fd := by
    rcases hText.1 with rfl | rfl
    · rfl
    · rfl
  have hFirst := hText.scanStart
  have hReads := skipStart_reads fsep rest 2
  generalize hSecond :
    scanEnd mspec fsep
      ((startField fsep rest).length + 2) = second
  rcases hText.scanEnd hSecond with
    ⟨hLen, hFinish, hNull, hSecondReads⟩
  refine
    ⟨strndup mspec
        (orNull (some 2) (startField fsep rest).length)
        (startField fsep rest).length,
      strndup mspec
        (orNull second.markEnd second.markEndLen)
        second.markEndLen, ?_, hFinish, ?_⟩
  · have hDrop : mspec.bytes.drop 2 = rest := by
      rw [hText.2]
      rfl
    rw [strndup_orNull, hDrop]
    exact
      (List.prefix_iff_eq_take.mp
        (List.takeWhile_prefix _)).symm
  · unfold parseMarkSpecs
    simp only [hDigit, hSep, hKnown, hNe, if_true, if_false,
      hFirst, hSecond, hFd]
    refine ⟨trivial, trivial, ?_, ?_⟩
    · simp only [List.forall_mem_cons, List.not_mem_nil,
        false_imp_iff, implies_true, and_true, ne_eq,
        hNull]
      simp [orNull]
    · intro i hMem
      simp only [List.mem_append] at hMem
      rcases hMem with ((hDigits | hPair) | hStart) | hEnd
      · have hZero : i = 0 := by
          split at hDigits <;> simpa using hDigits
        omega
      · have hOne : i = 1 := by simpa using hPair
        omega
      · have hBound := hReads i hStart
        omega
      · exact hSecondReads i hEnd

/- A text that starts with no digit for a descriptor. -/
def Rejected (mspec : CString) : Prop :=
  mspec.char 0 ≠ 0x31 ∧ mspec.char 0 ≠ 0x32

/- A rejected specification sets no mark. -/
theorem parse_of_rejected
    (debug : Bool)
    (marks : Marks)
    (hText : Rejected mspec) :
    parseMarkSpecs debug marks mspec =
      ⟨false, marks, [0, 0], [], []⟩ := by
  unfold parseMarkSpecs
  simp [hText.1, hText.2]

/- A digit alone is accepted, and sets no marks. -/
theorem parse_of_digit
    (debug : Bool)
    (marks : Marks)
    {digit : UInt8}
    (hDigit : digit = 0x31 ∨ digit = 0x32)
    (hText : mspec.bytes = [digit]) :
    (parseMarkSpecs debug marks mspec).value = true ∧
      (parseMarkSpecs debug marks mspec).marks = marks ∧
      (parseMarkSpecs debug marks mspec).dups = [] ∧
      ∀ i ∈ (parseMarkSpecs debug marks mspec).reads,
        i ≤ mspec.length := by
  have hFirst : mspec.char 0 = digit := by
    simp [CString.char, hText]
  have hSecond : mspec.char 1 = 0 := by
    simp [CString.char, hText]
  have hLength : mspec.length = 1 := by
    simp [CString.length, hText]
  rw [hLength]
  unfold parseMarkSpecs
  rcases hDigit with rfl | rfl
  · simp [hFirst, hSecond]
  · simp [hFirst, hSecond]

/- Every text is of one of these kinds. -/
theorem text_cases (mspec : CString) :
    Rejected mspec ∨
      (∃ digit, (digit = 0x31 ∨ digit = 0x32) ∧
        mspec.bytes = [digit]) ∨
      ∃ fd fsep rest, Accepted fd fsep rest mspec := by
  by_cases hReject : Rejected mspec
  · exact Or.inl hReject
  · right
    have hDigit :
        mspec.char 0 = 0x31 ∨ mspec.char 0 = 0x32 := by
      unfold Rejected at hReject
      tauto
    cases hBytes : mspec.bytes with
    | nil => simp [CString.char, hBytes] at hDigit
    | cons digit rest =>
        have hChar : mspec.char 0 = digit := by
          simp [CString.char, hBytes]
        rw [hChar] at hDigit
        cases rest with
        | nil => exact Or.inl ⟨digit, hDigit, rfl⟩
        | cons fsep rest =>
            right
            rcases hDigit with hOne | hTwo
            · exact ⟨1, fsep, rest, Or.inl rfl,
                by rw [hBytes, hOne]; rfl⟩
            · exact ⟨2, fsep, rest, Or.inr rfl,
                by rw [hBytes, hTwo]; rfl⟩

/- All but the rejected texts are accepted. -/
theorem parse_value_iff
    (debug : Bool)
    (marks : Marks)
    (mspec : CString) :
    (parseMarkSpecs debug marks mspec).value = true ↔
      ¬ Rejected mspec := by
  constructor
  · intro hValue hReject
    rw [parse_of_rejected debug marks hReject] at hValue
    cases hValue
  · intro hNot
    rcases text_cases mspec with
      hReject | ⟨digit, hDigit, hText⟩ |
        ⟨fd, fsep, rest, hText⟩
    · exact absurd hReject hNot
    · exact (parse_of_digit debug marks hDigit hText).1
    · rcases parse_of_accepted debug marks hText with
        ⟨_, _, _, _, hValue, _⟩
      exact hValue

end Errmark
