import Errmark.Program.Effects

/-
  The two ways in which the bytes of a write are emitted.

  Streaming emits what could be read. Copying emits the
  whole buffer: what could be read, and after it whatever
  the allocation left there. Both agree exactly when the
  whole buffer of the program could be read.

  Key definitions include:
    * `Write.IsWhole`
    * `Write.leftOver`
    * `Write.bytes`
    * `Write.Emits`

  Key theorems include:
    * `Write.copied_eq`
    * `Write.copied_eq_streamed_iff`
    * `Write.emitted_eq_bytes`
    * `Write.emitted_eq_bytes_iff`
    * `Write.emitted_ne_nil_iff`
    * `Write.read_of_emitted`
-/

------------------------------------------------------------
-- Streamed And Copied Bytes
------------------------------------------------------------

namespace Errmark

open Foundation

variable {arch : Arch}

namespace Write

/- Reading gets to the end of the buffer. -/
def IsWhole
    (w : Write arch)
    (memory : Memory arch) : Prop :=
  w.len = 0 ∨ w.Readable memory

instance (w : Write arch) (memory : Memory arch) :
    Decidable (w.IsWhole memory) := by
  unfold IsWhole
  infer_instance

variable
  (w : Write arch)
  (memory : Memory arch)
  (block : Nat → UInt8)

/- No more is read than the program asks to write. -/
theorem length_reading_le :
    (w.reading memory).bytes.length ≤ w.len.toNat :=
  memory.length_reading_le w.addr w.len.toNat

/- All of it is read if each word can be. -/
theorem length_reading_eq_iff :
    (w.reading memory).bytes.length = w.len.toNat ↔
      w.IsWhole memory := by
  unfold IsWhole
  by_cases hZero : w.len = 0
  · have hLe := w.length_reading_le memory
    have hNat : w.len.toNat = 0 := by
      rw [hZero]
      simp
    simp only [hZero, true_or, iff_true]
    rw [← hZero]
    omega
  · have hPos : 0 < w.len.toNat := by
      apply Nat.pos_of_ne_zero
      intro hNat
      apply hZero
      apply BitVec.eq_of_toNat_eq
      simpa using hNat
    simp only [hZero, false_or]
    exact memory.length_reading_eq_iff w.addr hPos

/- What is read is streamed. -/
theorem length_streamed :
    (w.streamed memory).length =
      (w.reading memory).bytes.length := by
  simp [streamed]

/- The block is as long as the write. -/
theorem length_freshBuffer
    (block : Nat → UInt8)
    (len : Nat) :
    (freshBuffer block len).length = len := by
  simp [freshBuffer]

/- The part of the buffer that `pmem_copy` did not reach. -/
def leftOver : List OutByte :=
  ((freshBuffer block w.len.toNat).drop
    (w.reading memory).bytes.length).map fun cell =>
      ⟨w.fd, cell⟩

/- What was not read is left over in the block. -/
theorem length_leftOver :
    (w.leftOver memory block).length =
      w.len.toNat - (w.reading memory).bytes.length := by
  simp [leftOver, length_freshBuffer]

/- A copied write is the streamed one, and what is left. -/
theorem copied_eq :
    w.copied memory block =
      w.streamed memory ++ w.leftOver memory block := by
  simp [copied, memcpy, streamed, leftOver]

/- A copy is always as long as the write. -/
theorem length_copied :
    (w.copied memory block).length = w.len.toNat := by
  have hLe := w.length_reading_le memory
  rw [copied_eq, List.length_append, length_streamed,
    length_leftOver]
  omega

/- Only an empty write has an empty copy. -/
theorem copied_eq_nil_iff :
    w.copied memory block = [] ↔ w.len = 0 := by
  rw [← List.length_eq_zero_iff, length_copied]
  constructor
  · intro hNat
    apply BitVec.eq_of_toNat_eq
    simpa using hNat
  · intro hZero
    simp [hZero]

/- Nothing is left over from a write read whole. -/
theorem leftOver_eq_nil_iff :
    w.leftOver memory block = [] ↔ w.IsWhole memory := by
  have hLe := w.length_reading_le memory
  rw [← length_reading_eq_iff, ← List.length_eq_zero_iff,
    length_leftOver]
  omega

/- Then, and only then, both ways emit the same. -/
theorem copied_eq_streamed_iff :
    w.copied memory block = w.streamed memory ↔
      w.IsWhole memory := by
  rw [copied_eq, List.append_right_eq_self,
    leftOver_eq_nil_iff]

/- Every streamed byte was read from the program. -/
theorem isRead_of_mem_streamed
    {b : OutByte}
    (hMem : b ∈ w.streamed memory) :
    b.isRead = true := by
  rcases List.mem_map.mp hMem with ⟨byte, _, hByte⟩
  rw [← hByte]
  rfl

/- No byte beyond the reading was. -/
theorem isRead_of_mem_leftOver
    {b : OutByte}
    (hMem : b ∈ w.leftOver memory block) :
    b.isRead = false := by
  rcases List.mem_map.mp hMem with ⟨cell, hCell, hByte⟩
  rcases List.mem_map.mp (List.mem_of_mem_drop hCell) with
    ⟨i, _, hUnset⟩
  rw [← hByte, ← hUnset]
  rfl

/- All that is streamed was read. -/
theorem filter_isRead_streamed :
    (w.streamed memory).filter OutByte.isRead =
      w.streamed memory := by
  rw [List.filter_eq_self]
  intro b hMem
  exact w.isRead_of_mem_streamed memory hMem

/- Of a copy, what was read is the same. -/
theorem filter_isRead_copied :
    (w.copied memory block).filter OutByte.isRead =
      w.streamed memory := by
  rw [copied_eq, List.filter_append,
    filter_isRead_streamed, List.append_right_eq_self,
    List.filter_eq_nil_iff]
  intro b hMem
  rw [w.isRead_of_mem_leftOver memory block hMem]
  exact Bool.false_ne_true

/- All bytes of a write carry its descriptor. -/
theorem fd_of_mem_copied
    {b : OutByte}
    (hMem : b ∈ w.copied memory block) :
    b.fd = w.fd := by
  rcases List.mem_map.mp hMem with ⟨cell, _, hByte⟩
  rw [← hByte]

/- Streamed bytes are labelled with their descriptor. -/
theorem fd_of_mem_streamed
    {b : OutByte}
    (hMem : b ∈ w.streamed memory) :
    b.fd = w.fd := by
  rcases List.mem_map.mp hMem with ⟨byte, _, hByte⟩
  rw [← hByte]

/- The bytes a write asks the kernel to write. -/
def bytes : List OutByte :=
  (memory.region w.addr w.len.toNat).map fun b =>
    ⟨w.fd, .stored b⟩

/- A write read whole is streamed whole. -/
theorem streamed_eq_bytes
    (hWhole : w.IsWhole memory) :
    w.streamed memory = w.bytes memory := by
  have hLength := (w.length_reading_eq_iff memory).mpr hWhole
  have hRegion :
      (w.reading memory).bytes =
        memory.region w.addr (w.reading memory).bytes.length :=
    memory.reading_bytes w.addr w.len.toNat
  rw [hLength] at hRegion
  rw [streamed, bytes, hRegion]

/- Both ways emit the bytes of a buffer that is read whole. -/
theorem emitted_eq_bytes
    {copyFh : Bool}
    {t : Turn arch}
    (hWhole : w.IsWhole t.memory)
    (hRoom : w.IsCopied copyFh → t.malloc.isSome) :
    w.emitted copyFh t = w.bytes t.memory := by
  rw [← w.streamed_eq_bytes t.memory hWhole]
  unfold emitted
  split
  · next hCopy =>
      rcases Option.isSome_iff_exists.mp (hRoom hCopy) with
        ⟨block, hBlock⟩
      rw [hBlock]
      exact
        (w.copied_eq_streamed_iff t.memory block).mpr hWhole
  · rfl

/- Every byte of a write was read from the program. -/
theorem filter_isRead_bytes :
    (w.bytes memory).filter OutByte.isRead =
      w.bytes memory := by
  rw [List.filter_eq_self]
  intro b hMem
  rcases List.mem_map.mp hMem with ⟨byte, _, hByte⟩
  rw [← hByte]
  rfl

/- A write has as many bytes as its length says. -/
theorem length_bytes :
    (w.bytes memory).length = w.len.toNat := by
  rw [bytes, List.length_map, Memory.length_region]

/- All of them are for its descriptor. -/
theorem fd_of_mem_bytes
    {b : OutByte}
    (hMem : b ∈ w.bytes memory) :
    b.fd = w.fd := by
  rcases List.mem_map.mp hMem with ⟨byte, _, hByte⟩
  rw [← hByte]

/- Only a length of 0 stands for no bytes. -/
theorem bytes_eq_nil_iff :
    w.bytes memory = [] ↔ w.len = 0 := by
  rw [bytes, List.map_eq_nil_iff,
    ← List.length_eq_zero_iff, Memory.length_region]
  constructor
  · intro hNat
    apply BitVec.eq_of_toNat_eq
    simpa using hNat
  · intro hZero
    simp [hZero]

/-
  A write of some bytes emits some if it is copied and there
  is room, or else if its first word can be read.
-/
def Emits
    (copyFh : Bool)
    (t : Turn arch) : Prop :=
  w.len ≠ 0 ∧
    if w.IsCopied copyFh then t.malloc ≠ none
    else t.memory.fault w.addr = none

/-
  Nothing is streamed of an empty write, or if the first
  word is missing.
-/
theorem streamed_eq_nil_iff :
    w.streamed memory = [] ↔
      w.len = 0 ∨ memory.fault w.addr ≠ none := by
  rw [streamed, List.map_eq_nil_iff]
  by_cases hZero : w.len = 0
  · have hLe := w.length_reading_le memory
    have hNat : w.len.toNat = 0 := by
      rw [hZero]
      simp
    simp only [hZero, true_or, iff_true]
    exact List.length_eq_zero_iff.mp (by omega)
  · have hPos : 0 < w.len.toNat := by
      apply Nat.pos_of_ne_zero
      intro hNat
      apply hZero
      apply BitVec.eq_of_toNat_eq
      simpa using hNat
    simp only [hZero, false_or]
    exact memory.reading_bytes_eq_nil_iff w.addr hPos

/- When some byte of a write gets out. -/
theorem emitted_ne_nil_iff
    (copyFh : Bool)
    (t : Turn arch) :
    w.emitted copyFh t ≠ [] ↔ w.Emits copyFh t := by
  unfold emitted Emits
  by_cases hCopy : w.IsCopied copyFh
  · rw [if_pos hCopy, if_pos hCopy]
    cases t.malloc with
    | none => simp
    | some block => simp [copied_eq_nil_iff]
  · rw [if_neg hCopy, if_neg hCopy, ne_eq,
      streamed_eq_nil_iff, not_or, not_not]

/- Both ways emit all that was read, if there is room. -/
theorem read_of_emitted
    {copyFh : Bool}
    {t : Turn arch}
    (hRoom : w.IsCopied copyFh → t.malloc.isSome) :
    (w.emitted copyFh t).filter OutByte.isRead =
      w.streamed t.memory := by
  unfold emitted
  split
  · next hCopy =>
      rcases Option.isSome_iff_exists.mp (hRoom hCopy) with
        ⟨block, hBlock⟩
      rw [hBlock]
      exact w.filter_isRead_copied t.memory block
  · exact w.filter_isRead_streamed t.memory

/- What is emitted is the write exactly if it is read whole. -/
theorem emitted_eq_bytes_iff
    {copyFh : Bool}
    {t : Turn arch}
    (hRoom : w.IsCopied copyFh → t.malloc.isSome) :
    w.emitted copyFh t = w.bytes t.memory ↔
      w.IsWhole t.memory := by
  constructor
  · intro hEmitted
    have hRead := w.read_of_emitted hRoom
    rw [hEmitted, filter_isRead_bytes] at hRead
    rw [← length_reading_eq_iff, ← length_streamed, ← hRead,
      length_bytes]
  · intro hWhole
    exact w.emitted_eq_bytes hWhole hRoom

end Write

end Errmark
