import Errmark.Foundation.Escaping
import Errmark.Properties.SafeDisplay

/-
  Whether a string can be recovered from what `fshow_str`
  writes for it.

  A backslash is printable, so it is shown as itself, and a
  string may spell out what an escape looks like. Each byte
  that is not printable is thus shown like four others.

  Key definitions include:
    * `AsciiText`
    * `fshowEscaping`
    * `Recoverable`
    * `HidesNothing`

  Key theorems include:
    * `fshowStr_eq_text`
    * `eq_of_unspelt`
    * `hides_nothing_iff`
-/

------------------------------------------------------------
-- Strings Of ASCII
------------------------------------------------------------

namespace Errmark

/- A string of bytes from 0x01 to 0x7f. -/
structure AsciiText extends CString where
  ascii : ∀ b ∈ bytes, b < 0x80

/- A text is known by its bytes. -/
theorem AsciiText.eq_of_bytes
    {s t : AsciiText}
    (hBytes : s.bytes = t.bytes) :
    s = t := by
  rcases s with ⟨⟨bytes, noNul⟩, ascii⟩
  cases hBytes
  rfl

/- The bytes that may stand in such a string. -/
def InAsciiText (b : UInt8) : Prop :=
  b ≠ 0 ∧ b < 0x80

/- Its bytes are those of 7-bit texts. -/
theorem AsciiText.inUse
    (s : AsciiText)
    {b : UInt8}
    (hMem : b ∈ s.bytes) :
    InAsciiText b := by
  refine ⟨?_, s.ascii b hMem⟩
  intro hNul
  exact s.noNul (hNul ▸ hMem)

/- Graphic characters are among them. -/
theorem inAsciiText_of_isGraphic
    {b : UInt8}
    (hGraphic : isGraphic b = true) :
    InAsciiText b :=
  forall_byte_of_fin
    (fun b => isGraphic b = true → b ≠ 0 ∧ b < 0x80)
    (by decide +kernel) b hGraphic

end Errmark

------------------------------------------------------------
-- The Escapes Of fshow_str
------------------------------------------------------------

namespace Errmark

open Foundation

/- An `x` and two digits. -/
def escapeBody (b : UInt8) : List UInt8 :=
  [0x78, hexDigit (b / 16), hexDigit (b % 16)]

/- The byte that has a given body in its escape. -/
def readEscapeBody : List UInt8 → UInt8
| [_, high, low] => readDigit high * 16 + readDigit low
| _ => 0
where
  readDigit (c : UInt8) : UInt8 :=
    if c < 0x3a then c - 0x30 else c - 0x57

/- What follows a backslash tells the byte. -/
theorem readEscapeBody_escapeBody (b : UInt8) :
    readEscapeBody (escapeBody b) = b :=
  forall_byte_of_fin
    (fun b => readEscapeBody (escapeBody b) = b)
    (by decide +kernel) b

/- It is graphic, and no backslash. -/
theorem escapeBody_isGraphic
    (b : UInt8) :
    (∀ c ∈ escapeBody b, isGraphic c = true) ∧
      0x5c ∉ escapeBody b :=
  ⟨fun _ hMem =>
      forall_mem_byte_of_fin escapeBody isGraphic
        (by decide +kernel) hMem,
    forall_byte_of_fin (fun b => 0x5c ∉ escapeBody b)
      (by decide +kernel) b⟩

/- `\x..` stands for each byte that is not printable. -/
def fshowEscaping : Escaping UInt8 where
  plain := isGraphic
  mark := 0x5c
  body := escapeBody
  width := 3
  mark_plain := by decide
  body_plain := fun b => (escapeBody_isGraphic b).1
  mark_not_mem_body := fun b => (escapeBody_isGraphic b).2
  length_body := fun _ => rfl
  body_inj := fun a b hSame => by
    rw [← readEscapeBody_escapeBody a, hSame,
      readEscapeBody_escapeBody]

/- What is written for a string of ASCII is its text. -/
theorem fshowStr_eq_text (s : AsciiText) :
    fshowStr s.toCString = fshowEscaping.text s.bytes :=
  fshowStr_of_ascii s.ascii

end Errmark

------------------------------------------------------------
-- Recovering A String
------------------------------------------------------------

namespace Errmark

open Foundation

/- No other string of ASCII has the same text. -/
def Recoverable (s : AsciiText) : Prop :=
  ∀ t : AsciiText,
    fshowStr s.toCString = fshowStr t.toCString → s = t

/-
  All bytes are printable, and nowhere do they spell out
  the escape of a byte that is not.
-/
structure HidesNothing (s : AsciiText) : Prop where
  printable : ∀ b ∈ s.bytes, isGraphic b = true
  unspelt :
    ∀ b, b ≠ 0 → b < 0x80 → isGraphic b = false →
      ¬ shownAs b <:+: s.bytes

/- The escape of a byte, in the words of the library. -/
theorem escape_eq_shownAs
    {b : UInt8}
    (hEscaped : isGraphic b = false) :
    fshowEscaping.escape b = shownAs b := by
  simp [shownAs, hEscaped, Escaping.escape, fshowEscaping,
    escapeBody]

/- No byte that needs an escape is spelt out. -/
theorem spellsNone_iff (bytes : List UInt8) :
    fshowEscaping.SpellsNone InAsciiText bytes ↔
      ∀ b, b ≠ 0 → b < 0x80 → isGraphic b = false →
        ¬ shownAs b <:+: bytes := by
  constructor
  · intro hFree b hNul hAscii hEscaped
    rw [← escape_eq_shownAs hEscaped]
    exact hFree b ⟨hNul, hAscii⟩ hEscaped
  · intro hFree b hUse hEscaped
    rw [escape_eq_shownAs hEscaped]
    exact hFree b hUse.1 hUse.2 hEscaped

/-
  Two strings that spell out no escape are told apart, also
  where bytes of them are not printable.
-/
theorem eq_of_unspelt
    {s t : AsciiText}
    (hFree :
      fshowEscaping.SpellsNone InAsciiText s.bytes)
    (hFree' :
      fshowEscaping.SpellsNone InAsciiText t.bytes)
    (hText :
      fshowStr s.toCString = fshowStr t.toCString) :
    s = t := by
  rw [fshowStr_eq_text, fshowStr_eq_text] at hText
  exact AsciiText.eq_of_bytes
    (Escaping.text_inj (fun _ => s.inUse) (fun _ => t.inUse)
      hFree hFree' hText)

/-
  A string can be recovered from what is written for it
  exactly when it is printable, and spells out no escape.
-/
theorem hides_nothing_iff (s : AsciiText) :
    Recoverable s ↔ HidesNothing s := by
  have hLibrary :=
    fshowEscaping.recoverable_iff
      (fun _ => inAsciiText_of_isGraphic)
      (fun _ => s.inUse)
  rw [spellsNone_iff] at hLibrary
  constructor
  · intro hRecover
    have hBytes :
        ∀ bytes, (∀ b ∈ bytes, InAsciiText b) →
          fshowEscaping.text s.bytes =
              fshowEscaping.text bytes →
            s.bytes = bytes := by
      intro bytes hUse hText
      let t : AsciiText :=
        { bytes := bytes
          noNul := fun hMem => (hUse 0 hMem).1 rfl
          ascii := fun b hMem => (hUse b hMem).2 }
      have hSame : s = t :=
        hRecover t (by
          rw [fshowStr_eq_text, fshowStr_eq_text]
          exact hText)
      exact congrArg (fun u => u.bytes) hSame
    rcases hLibrary.mp hBytes with ⟨hPlain, hFree⟩
    exact ⟨hPlain, hFree⟩
  · intro hHides t hText
    rw [fshowStr_eq_text, fshowStr_eq_text] at hText
    exact AsciiText.eq_of_bytes
      (hLibrary.mpr ⟨hHides.printable, hHides.unspelt⟩
        t.bytes (fun _ => t.inUse) hText)

/- The byte 0x01, and the four characters of its escape. -/
def sampleControl : AsciiText where
  bytes := [0x01]
  noNul := by decide
  ascii := by simp

/- The four characters that spell out byte 1. -/
def sampleSpeltOut : AsciiText where
  bytes := [0x5c, 0x78, 0x30, 0x31]
  noNul := by decide
  ascii := by simp

/- They are different, and the same is written for both. -/
theorem sample_not_recoverable :
    fshowStr sampleControl.toCString =
        fshowStr sampleSpeltOut.toCString ∧
      ¬ ∀ s t : AsciiText,
        fshowStr s.toCString = fshowStr t.toCString →
          s = t := by
  have hText :
      fshowStr sampleControl.toCString =
        fshowStr sampleSpeltOut.toCString := by
    decide +kernel
  refine ⟨hText, ?_⟩
  intro hAll
  have hSame :=
    hAll sampleControl sampleSpeltOut hText
  have hBytes := congrArg (fun s => s.bytes) hSame
  simp [sampleControl, sampleSpeltOut] at hBytes

end Errmark
