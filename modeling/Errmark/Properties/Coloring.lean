import Errmark.Properties.HandedOver
import Errmark.Properties.Unmarking

/-
  `--color`, from the command line to the terminal.

  Whatever else the command line says, if the marks it ends
  up with are those of a color, errmark puts its escape
  sequences around the output to stderr. By these sequences
  the terminal can be read back into what the program wrote
  to stdout and to stderr. Where only colors set marks, the
  last one of them decides.

  Key definitions include:
    * `ColorEsc.marker`
    * `ColoredBy`
    * `OnlyColors`

  Key theorems include:
    * `ColoredBy.isolate`
    * `OnlyColors.coloredBy`
    * `unmark_colored`
-/

------------------------------------------------------------
-- Escape Sequences As Markers
------------------------------------------------------------

namespace Errmark

open Foundation

/- The colors of both tables. -/
def knownColors : List ColorEsc :=
  normalColors ++ brightColors

/- All their escape sequences start with ESC. -/
theorem escStart_head :
    ∀ ent ∈ knownColors,
      ent.escStart.head? = some 0x1b ∧
        ent.escEnd.head? = some 0x1b := by
  decide +kernel

/- No sequence that starts a color is one that ends it. -/
theorem escStart_sequences_differ :
    ∀ ent ∈ knownColors,
      ¬ ent.escStart <+: ent.escEnd ∧
        ¬ ent.escEnd <+: ent.escStart := by
  decide +kernel

/- The escape sequences of a color, as a marker. -/
def ColorEsc.marker
    (ent : ColorEsc)
    (hKnown : ent ∈ knownColors) : Marker UInt8 where
  lead := 0x1b
  opening := ent.escStart
  closing := ent.escEnd
  opening_lead := (escStart_head ent hKnown).1
  closing_lead := (escStart_head ent hKnown).2
  opening_not_prefix := (escStart_sequences_differ ent hKnown).1
  closing_not_prefix := (escStart_sequences_differ ent hKnown).2

/- What is looked up is found in one of the tables. -/
theorem mem_of_lookupColor
    {name : CString}
    {ent : ColorEsc}
    (hFound : lookupColor (some name) = some ent) :
    ent ∈ knownColors := by
  simp only [lookupColor] at hFound
  split at hFound
  · exact
      List.mem_append_right _
        (List.mem_of_find?_eq_some hFound)
  · exact
      List.mem_append_left _
        (List.mem_of_find?_eq_some hFound)

end Errmark

------------------------------------------------------------
-- Colored Command Lines
------------------------------------------------------------

namespace Errmark

open Foundation

variable {arch : Arch}
variable {env : Environment}
variable {argv : List CString}
variable {ent : ColorEsc}

/- The color that an option names. -/
def CommandOption.colorName :
    CommandOption → Option CString
| .color name => some name
| _ => none

/- The marks that the options lead to are those of a color. -/
structure ColoredBy
    (argv : List CString)
    (ent : ColorEsc) : Prop where
  known : ent ∈ knownColors
  marks :
    ∀ fd edge,
      lastSetting (fun m => m.meaning.markText fd edge)
          (readLine argv).met =
        if fd = 2 then some (edge.escape ent) else none

/-
  No marks are set but those of colors, of which the last
  one is in a table.
-/
structure OnlyColors
    (argv : List CString)
    (ent : ColorEsc) : Prop where
  noMark :
    ∀ m ∈ (readLine argv).met, ∀ spec,
      m.meaning ≠ .mark spec
  color :
    ∃ name,
      lastSetting (fun m => m.meaning.colorName)
          (readLine argv).met = some name ∧
        lookupColor (some name) = some ent

/- Without `--mark`, only a color sets a mark. -/
theorem markText_of_no_color
    {x : CommandOption}
    (hNoMark : ∀ spec, x ≠ .mark spec)
    {fd : Int}
    (hNone : fd ≠ 2 ∨ x.colorName = none)
    (edge : Edge) :
    x.markText fd edge = none := by
  cases x with
  | mark spec => exact absurd rfl (hNoMark spec)
  | color name =>
      rcases hNone with hFd | hName
      · exact if_neg hFd
      · cases hName
  | help | version | verbose | debug | copy _
  | unknown _ _ => rfl

/- Where only colors set marks, the last one decides. -/
theorem OnlyColors.coloredBy
    (hOnly : OnlyColors argv ent) :
    ColoredBy argv ent := by
  rcases hOnly.color with ⟨name, hLast, hFound⟩
  refine ⟨mem_of_lookupColor hFound, ?_⟩
  intro fd edge
  by_cases hFd : fd = 2
  · rcases lastSetting_eq_some_iff.mp hLast with
      ⟨before, m, after, hSplit, hName, hAfter⟩
    rw [if_pos hFd, hFd, lastSetting_eq_some_iff]
    refine ⟨before, m, after, hSplit, ?_, ?_⟩
    · cases hMeaning : m.meaning with
      | color other =>
          rw [hMeaning] at hName
          cases hName
          simp [CommandOption.markText, hFound]
      | _ =>
          rw [hMeaning] at hName
          cases hName
    · intro j hMem
      have hNoMark :=
        hOnly.noMark j (by rw [hSplit]; simp [hMem])
      exact
        markText_of_no_color hNoMark
          (Or.inr (hAfter j hMem)) edge
  · rw [if_neg hFd, lastSetting_eq_none_iff]
    intro m hMem
    exact
      markText_of_no_color (hOnly.noMark m hMem)
        (Or.inl hFd) edge

/- The marks handed over are those of the color. -/
theorem ColoredBy.isolate
    (hColored : ColoredBy argv ent)
    {s : MainState}
    (hLeave : mainBeforeRun env argv = .leave s) :
    s.progress.marks.Isolate 2
      (ent.marker hColored.known) := by
  have hMarks := marks_of_leave hLeave
  refine ⟨?_, ?_, ?_⟩
  · rw [hMarks, hColored.marks, if_pos rfl]
    rfl
  · rw [hMarks, hColored.marks, if_pos rfl]
    rfl
  · intro fd edge hFd
    rw [hMarks, hColored.marks, if_neg hFd]

/-
  From a command line with colors to the terminal: while the
  program runs undisturbed and writes no escape, what the
  terminal has got is read back into its bytes, those to
  stderr apart from the others.
-/
theorem unmark_colored
    (env : Environment)
    (argv : List CString)
    (hColored : ColoredBy argv ent)
    {s : MainState}
    (hLeave : mainBeforeRun env argv = .leave s)
    (setup : Setup arch)
    (hMarks : setup.marks = s.progress.marks)
    (stops : List (Stop arch))
    (hUndisturbed : setup.Undisturbed stops)
    (hPlain : WritesNo 0x1b stops)
    (render : Diagnostic → List UInt8)
    (early : Nat → List (Int × Nat))
    {s' : State arch}
    (hReaches : setup.Reaches stops s') :
    (ent.marker hColored.known).unmark false 0
          (s'.onTerminal render early) =
        stops.flatMap (Stop.taggedBytes 2) ∧
      setup.Nullifies stops := by
  have hIsolate := hColored.isolate hLeave
  rw [← hMarks] at hIsolate
  constructor
  · rcases terminal_marked render early hIsolate
        hUndisturbed hReaches with ⟨k, hTerminal⟩
    rw [hTerminal,
      (ent.marker hColored.known).unmark_mark_closed false
        (hPlain.parts 2),
      taggedItems_writes]
  · exact
      nullifies_of_calls hUndisturbed.admitted
        hUndisturbed.calls

/- `errmark --color=green --color=red ls` -/
def sampleTwoColors : List CString :=
  [sampleErrmark, ⟨asciiBytes "--color=green", by decide⟩,
    sampleRedOption, sampleLs]

/- The first of the normal colors after black. -/
def sampleRedEsc : ColorEsc :=
  ⟨"red", escSequence "[0;31m", escSequence "[m"⟩

/-
  The sample sets the color of fd 2 twice; the last one
  counts.
-/
theorem sampleTwoColors_only :
    OnlyColors sampleTwoColors sampleRedEsc where
  noMark := by
    have hMet :
        (readLine sampleTwoColors).met =
          [.option Opt.color
              (some ⟨asciiBytes "green", by decide⟩),
            .option Opt.color
              (some ⟨asciiBytes "red", by decide⟩)] := by
      decide +kernel
    intro m hMem spec hMark
    rw [hMet] at hMem
    simp only [List.mem_cons, List.not_mem_nil, or_false]
      at hMem
    rcases hMem with rfl | rfl <;> cases hMark
  color :=
    ⟨⟨asciiBytes "red", by decide⟩, by decide +kernel,
      by decide +kernel⟩

/- So its marks are those of that color. -/
theorem sampleTwoColors_colored :
    ColoredBy sampleTwoColors sampleRedEsc :=
  sampleTwoColors_only.coloredBy

/- The reader finds out what went to fd 2. -/
theorem sample_unmark_colored :
    ∃ s',
      sampleRed.Reaches sampleMixed s' ∧
        (sampleRedEsc.marker
            sampleTwoColors_colored.known).unmark false 0
            (s'.onTerminal (fun _ => [])
              fun k => [(1, k)]) =
          [(false, 0x78), (true, 0x78), (true, 0x78),
            (true, 0x78)] ∧
        sampleRed.Nullifies sampleMixed := by
  have hLeave :
      mainBeforeRun sampleEnvironment sampleTwoColors =
        .leave (mainBeforeRun sampleEnvironment
          sampleTwoColors).final :=
    Outcome.eq_leave_of_leaves (by decide +kernel)
  rcases sampleMixed_reaches with ⟨s', hReaches⟩
  refine ⟨s', hReaches, ?_⟩
  rw [← sampleMixed_tagged]
  exact
    unmark_colored sampleEnvironment sampleTwoColors
      sampleTwoColors_colored hLeave sampleRed
      (by decide +kernel) sampleMixed
      sampleMixed_undisturbed sampleMixed_plain
      (fun _ => []) (fun k => [(1, k)]) hReaches

end Errmark
