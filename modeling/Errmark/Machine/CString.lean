import Errmark.Machine.WaitStatus

/-
  C strings, and plain `char` as gcc has it on x86.

  A string is given by its bytes before the terminating NUL.
  A pointer into it is an offset; the one past the last byte
  is the offset of the NUL, and no further one is valid.

  Key definitions include:
    * `CString`
    * `CString.char`
    * `CString.stringAt`
    * `charToInt`
    * `strndup`
-/

------------------------------------------------------------
-- Characters
------------------------------------------------------------

namespace Errmark

/- A plain `char` is signed when it becomes an `int`. -/
def charToInt (b : UInt8) : CInt :=
  b.toBitVec.signExtend 32

/- A property of all bytes is checked byte by byte. -/
theorem forall_byte_of_fin
    (P : UInt8 → Prop)
    (hAll : ∀ n : Fin 256, P (UInt8.ofFin n))
    (b : UInt8) :
    P b :=
  hAll b.toFin

/- The same for what each byte is turned into. -/
theorem forall_mem_byte_of_fin
    (f : UInt8 → List UInt8)
    (p : UInt8 → Bool)
    (hAll : ∀ n : Fin 256, (f (UInt8.ofFin n)).all p = true)
    {b c : UInt8}
    (hMem : c ∈ f b) :
    p c = true :=
  List.all_eq_true.mp (hAll b.toFin) c hMem

/- The bytes of a text in ASCII. -/
def asciiBytes (text : String) : List UInt8 :=
  text.toList.map fun c => UInt8.ofNat c.toNat

end Errmark

------------------------------------------------------------
-- Strings
------------------------------------------------------------

namespace Errmark

/- A string of C: its bytes up to the NUL. -/
structure CString where
  bytes : List UInt8
  noNul : (0 : UInt8) ∉ bytes
  deriving DecidableEq

namespace CString

/- The empty string. -/
def empty : CString :=
  ⟨[], List.not_mem_nil⟩

/- `strlen` -/
def length (str : CString) : Nat :=
  str.bytes.length

/- `*s`, which is NUL at the end. -/
def char (str : CString) (s : Nat) : UInt8 :=
  str.bytes.getD s 0

/- The NUL stands at the end. -/
theorem char_length (str : CString) :
    str.char str.length = 0 := by
  simp [char, length]

/- A string of Lean with one character for each byte. -/
def text (str : CString) : String :=
  String.ofList (str.bytes.map fun b => Char.ofNat b.toNat)

/- Every byte is one of ASCII. -/
def IsAscii (str : CString) : Prop :=
  ∀ b ∈ str.bytes, b < 0x80

instance (str : CString) : Decidable str.IsAscii :=
  List.decidableBAll (fun b => b < 0x80) str.bytes

/- The string that a pointer into another one points to. -/
def stringAt (str : CString) (s : Nat) : CString where
  bytes := str.bytes.drop s
  noNul := fun hMem =>
    str.noNul (List.mem_of_mem_drop hMem)

end CString

/-
  `strndup`, which stops at a NUL. A NULL pointer with a
  length of 0 yields an empty string.
-/
def strndup
    (str : CString)
    (ptr : Option Nat)
    (len : Nat) : CString :=
  match ptr with
  | none => ⟨[], List.not_mem_nil⟩
  | some s =>
      ⟨(str.bytes.drop s).take len,
        fun hMem => str.noNul
          (List.mem_of_mem_drop (List.mem_of_mem_take hMem))⟩

end Errmark
