import Errmark.Program.MarkFields
import Errmark.Tracee.Stops

/-
  The texts that `--mark` takes.

  A text without a separator at its end leaves exactly its
  two strings as marks. One that ends with a separator keeps
  this separator in its end mark: the test that should strip
  it is made at the NUL. A string that is empty or missing
  is passed to `strndup` as a NULL pointer.

  Key definitions include:
    * `MarkSpec`
    * `MarkSpec.text`
    * `RoundTrips`
    * `HasBothMarks`
    * `NullSafe`

  Key theorems include:
    * `marks_of_rejected`
    * `optMark_cases`
    * `round_trips_iff`
    * `mark_spec_round_trip_iff`
    * `reads_within`
    * `null_safe_iff`
-/

------------------------------------------------------------
-- Round Trips
------------------------------------------------------------

namespace Errmark

variable {arch : Arch}

/- A descriptor, a separator, and two strings without it. -/
structure MarkSpec where
  fd : Int
  fsep : UInt8
  start : List UInt8
  finish : List UInt8
  fd_known : fd = 1 ∨ fd = 2
  fsep_ne_nul : fsep ≠ 0
  start_no_nul : (0 : UInt8) ∉ start
  start_no_fsep : fsep ∉ start
  finish_no_nul : (0 : UInt8) ∉ finish
  finish_no_fsep : fsep ∉ finish

namespace MarkSpec

/- What follows the second separator. -/
def tail (spec : MarkSpec) (closed : Bool) : List UInt8 :=
  spec.finish ++ if closed then [spec.fsep] else []

/- The text of a specification, with or without a last separator. -/
def text (spec : MarkSpec) (closed : Bool) : CString where
  bytes :=
    fdDigit spec.fd :: spec.fsep ::
      (spec.start ++ spec.fsep :: spec.tail closed)
  noNul := by
    have hDigit : fdDigit spec.fd ≠ 0 := by
      unfold fdDigit
      split <;> decide
    have hSep := spec.fsep_ne_nul
    have hStart := spec.start_no_nul
    have hFinish := spec.finish_no_nul
    cases closed <;>
      simp [tail, hStart, hFinish, Ne.symm hDigit,
        Ne.symm hSep]

/- A specification is accepted, with its fields. -/
theorem accepted
    (spec : MarkSpec)
    (closed : Bool) :
    Accepted spec.fd spec.fsep
      (spec.start ++ spec.fsep :: spec.tail closed)
      (spec.text closed) :=
  ⟨spec.fd_known, rfl⟩

end MarkSpec

/-
  The text is accepted, its descriptor gets its two strings
  as marks, and the other one keeps its marks.
-/
structure RoundTrips
    (debug : Bool)
    (marks : Marks)
    (spec : MarkSpec)
    (closed : Bool) : Prop where
  value :
    (parseMarkSpecs debug marks
      (spec.text closed)).value = true
  start :
    (parseMarkSpecs debug marks
      (spec.text closed)).marks.text spec.fd .start =
        some spec.start
  finish :
    (parseMarkSpecs debug marks
      (spec.text closed)).marks.text spec.fd .finish =
        some spec.finish
  others :
    ∀ other, other ≠ spec.fd → ∀ edge,
      (parseMarkSpecs debug marks
        (spec.text closed)).marks.text other edge =
          marks.text other edge

/- The marks that the text of a specification leaves. -/
theorem marks_of_text
    (debug : Bool)
    (marks : Marks)
    (spec : MarkSpec)
    (closed : Bool) :
    ∃ start finish : CString,
      start.bytes = spec.start ∧
        finish.bytes = spec.tail closed ∧
        (parseMarkSpecs debug marks
          (spec.text closed)).value = true ∧
        (parseMarkSpecs debug marks
          (spec.text closed)).marks =
            marks.replace spec.fd start finish := by
  rcases parse_of_accepted debug marks
      (spec.accepted closed) with
    ⟨start, finish, hStart, hFinish, hValue, hMarks, _, _⟩
  rcases fields_append spec.start_no_fsep
    (spec.tail closed) with ⟨hFirst, hSecond⟩
  rw [hFirst] at hStart
  rw [hSecond] at hFinish
  exact ⟨start, finish, hStart, hFinish, hValue, hMarks⟩

/- Only the text without a last separator comes out right. -/
theorem round_trips_iff
    (debug : Bool)
    (marks : Marks)
    (spec : MarkSpec)
    (closed : Bool) :
    RoundTrips debug marks spec closed ↔
      closed = false := by
  rcases marks_of_text debug marks spec closed with
    ⟨start, finish, hStart, hFinish, hValue, hMarks⟩
  rcases text_replace marks start finish spec.fd_known with
    ⟨hStartText, hFinishText, hOthers⟩
  rw [← hMarks] at hStartText hFinishText hOthers
  rw [hStart] at hStartText
  rw [hFinish] at hFinishText
  constructor
  · intro hTrip
    have hSame := hTrip.finish
    rw [hFinishText, Option.some.injEq,
      MarkSpec.tail, List.append_right_eq_self] at hSame
    cases closed with
    | false => rfl
    | true => cases hSame
  · intro hOpen
    rw [hOpen] at hFinishText hStartText hOthers hValue ⊢
    have hTail : spec.tail false = spec.finish := by
      simp [MarkSpec.tail]
    rw [hTail] at hFinishText
    exact ⟨hValue, hStartText, hFinishText, hOthers⟩

/- A text that is rejected changes no mark. -/
theorem marks_of_rejected
    (debug : Bool)
    (marks : Marks)
    {mspec : CString}
    (hValue :
      (parseMarkSpecs debug marks mspec).value = false) :
    (parseMarkSpecs debug marks mspec).marks = marks := by
  have hReject : Rejected mspec := by
    by_contra hNot
    rw [(parse_value_iff debug marks mspec).mpr hNot]
      at hValue
    cases hValue
  rw [parse_of_rejected debug marks hReject]

/-
  `opt_mark` exits with 2 exactly for the rejected texts,
  and has then changed no mark.
-/
theorem optMark_cases
    (verbose debug : Bool)
    (marks : Marks)
    (mspec : CString) :
    (Rejected mspec ∧
        (optMark verbose debug marks mspec).exit = some 2 ∧
        (optMark verbose debug marks mspec).marks =
          marks) ∨
      (¬ Rejected mspec ∧
        (optMark verbose debug marks mspec).exit =
          none) := by
  unfold optMark
  cases hValue :
      (parseMarkSpecs debug marks mspec).value with
  | true =>
      right
      refine ⟨(parse_value_iff debug marks mspec).mp hValue, ?_⟩
      simp [hValue]
  | false =>
      left
      refine ⟨?_, ?_, marks_of_rejected debug marks hValue⟩
      · by_contra hNot
        rw [(parse_value_iff debug marks mspec).mpr hNot]
          at hValue
        cases hValue
      · simp [hValue]

/-
  A specification comes back as the marks it names exactly
  when its text has no separator at its end; rejected texts
  leave the marks alone.
-/
theorem mark_spec_round_trip_iff
    (debug : Bool)
    (marks : Marks)
    (spec : MarkSpec)
    (closed : Bool) :
    (RoundTrips debug marks spec closed ↔
        closed = false) ∧
      ∀ mspec : CString,
        (parseMarkSpecs debug marks mspec).value = false →
          (parseMarkSpecs debug marks mspec).marks =
            marks :=
  ⟨round_trips_iff debug marks spec closed,
    fun _ hValue => marks_of_rejected debug marks hValue⟩

/- `1:[[:]]:` leaves `]]:` as the end mark. -/
def sampleMarkSpec : MarkSpec where
  fd := 1
  fsep := 0x3a
  start := [0x5b, 0x5b]
  finish := [0x5d, 0x5d]
  fd_known := Or.inl rfl
  fsep_ne_nul := by decide
  start_no_nul := by decide
  start_no_fsep := by decide
  finish_no_nul := by decide
  finish_no_fsep := by decide

/- The example of the source, with its last separator. -/
theorem sample_mark_spec_not_kept :
    (sampleMarkSpec.text true).bytes =
        asciiBytes "1:[[:]]:" ∧
      ¬ RoundTrips false sampleMarks sampleMarkSpec
          true := by
  refine ⟨by decide +kernel, ?_⟩
  intro hTrip
  exact absurd hTrip.finish (by decide +kernel)

end Errmark

------------------------------------------------------------
-- Null Safety
------------------------------------------------------------

namespace Errmark

/- Two separated strings, neither of which is empty. -/
def HasBothMarks
    (fsep : UInt8)
    (rest : List UInt8) : Prop :=
  ∃ start finish,
    start ≠ [] ∧
      fsep ∉ start ∧
      finish ≠ [] ∧
      rest = start ++ fsep :: finish

/-
  Reads stay within the string and its NUL, and `strndup`
  is never called with a NULL pointer.
-/
structure NullSafe
    (parsed : ParseMarkSpecs)
    (mspec : CString) : Prop where
  reads : ∀ i ∈ parsed.reads, i ≤ mspec.length
  pointers : ∀ dup ∈ parsed.dups, dup.1 ≠ none

/- Both fields have to be there, and not to be empty. -/
theorem has_both_marks_iff
    (fsep : UInt8)
    (rest : List UInt8) :
    HasBothMarks fsep rest ↔
      startField fsep rest ≠ [] ∧
        endField fsep rest ≠ [] := by
  constructor
  · rintro ⟨start, finish, hStart, hSep, hFinish, rfl⟩
    rcases fields_append hSep finish with ⟨hFirst, hSecond⟩
    rw [hFirst, hSecond]
    exact ⟨hStart, hFinish⟩
  · rintro ⟨hStart, hFinish⟩
    rcases fields_cases fsep rest with ⟨_, hNone⟩ | hBoth
    · exact absurd hNone hFinish
    · exact
        ⟨startField fsep rest, endField fsep rest, hStart,
          fsep_not_mem_startField fsep rest, hFinish,
          hBoth⟩

/- Whatever the text is, no read goes past its NUL. -/
theorem reads_within
    (debug : Bool)
    (marks : Marks)
    (mspec : CString) :
    ∀ i ∈ (parseMarkSpecs debug marks mspec).reads,
      i ≤ mspec.length := by
  rcases text_cases mspec with
    hReject | ⟨digit, hDigit, hText⟩ |
      ⟨fd, fsep, rest, hText⟩
  · rw [parse_of_rejected debug marks hReject]
    simp
  · exact
      (parse_of_digit debug marks hDigit hText).2.2.2
  · rcases parse_of_accepted debug marks hText with
      ⟨_, _, _, _, _, _, _, hReads⟩
    exact hReads

/-
  Parsing is null safe exactly when the text is no list of
  marks, or both of its strings are there and not empty.
-/
theorem null_safe_iff
    (debug : Bool)
    (marks : Marks)
    (mspec : CString) :
    NullSafe (parseMarkSpecs debug marks mspec) mspec ↔
      ∀ fd fsep rest, Accepted fd fsep rest mspec →
        HasBothMarks fsep rest := by
  have hReads := reads_within debug marks mspec
  constructor
  · intro hSafe fd fsep rest hText
    rcases parse_of_accepted debug marks hText with
      ⟨_, _, _, _, _, _, hDups, _⟩
    exact
      (has_both_marks_iff fsep rest).mpr
        (hDups.mp hSafe.pointers)
  · intro hBoth
    refine ⟨hReads, ?_⟩
    rcases text_cases mspec with
      hReject | ⟨digit, hDigit, hText⟩ |
        ⟨fd, fsep, rest, hText⟩
    · rw [parse_of_rejected debug marks hReject]
      simp
    · rw [(parse_of_digit debug marks hDigit hText).2.2.1]
      simp
    · rcases parse_of_accepted debug marks hText with
        ⟨_, _, _, _, _, _, hDups, _⟩
      exact
        hDups.mpr
          ((has_both_marks_iff fsep rest).mp
            (hBoth fd fsep rest hText))

/- `1:[[` has no end string. -/
def sampleMissingEnd : CString where
  bytes := asciiBytes "1:[["
  noNul := by decide +kernel

/- A specification without an ending mark. -/
theorem sample_not_null_safe :
    ¬ NullSafe
        (parseMarkSpecs false sampleMarks sampleMissingEnd)
        sampleMissingEnd := by
  intro hSafe
  exact
    absurd rfl
      (hSafe.pointers (none, 0) (by decide +kernel))

end Errmark
