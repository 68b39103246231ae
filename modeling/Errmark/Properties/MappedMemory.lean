import Errmark.Properties.ShortReads

/-
  Reading a buffer that is mapped as a whole.

  The program's memory is a set of mapped pages, and a
  request succeeds when all bytes of its word are mapped.
  Aligned words do not cross pages, but an unaligned start
  is read as a whole word, of which the last bytes may lie
  beyond the buffer and in a page that is not mapped.

  Key definitions include:
    * `PagedMemory`
    * `PagedMemory.memory`
    * `PagedMemory.Holds`
    * `CopiesWhole`
    * `WritesWhole`

  Key theorems include:
    * `PagedMemory.readable_iff`
    * `value_eq_len_iff`
    * `mapped_buffer_read_iff`
-/

------------------------------------------------------------
-- Mapped Pages
------------------------------------------------------------

namespace Errmark

open Foundation

variable {arch : Arch}

/- Pages of 4 KiB. -/
def pageSize : Nat := 4096

/- The mapped pages, by number, and what they hold. -/
structure PagedMemory (arch : Arch) where
  mapped : Nat → Bool
  byteAt : arch.Word → UInt8

namespace PagedMemory

variable (pages : PagedMemory arch)

/- The page of an address is mapped. -/
def isMapped (addr : arch.Word) : Bool :=
  pages.mapped (addr.toNat / pageSize)

/- All bytes of the word at an address are mapped. -/
def wordMapped (addr : arch.Word) : Bool :=
  (List.range arch.wordBytes).all fun i =>
    pages.isMapped (addr + BitVec.ofNat _ i)

/- How `PTRACE_PEEKDATA` answers on such a memory. -/
def memory : Memory arch where
  byteAt := pages.byteAt
  fault := fun addr =>
    if pages.wordMapped addr then none
    else some Errno.EIO

/- Every byte of a buffer is mapped. -/
def Holds (raddr : arch.Word) (len : Nat) : Prop :=
  ∀ i < len, pages.isMapped (raddr + BitVec.ofNat _ i)

variable {pages}

/- A word can be read if all its bytes are mapped. -/
theorem memory_fault_eq_none_iff {addr : arch.Word} :
    pages.memory.fault addr = none ↔
      pages.wordMapped addr := by
  by_cases hWord : pages.wordMapped addr = true
  · simp [memory, hWord]
  · simp [memory, hWord]

/- An aligned word does not reach into another page. -/
theorem page_of_aligned
    {addr : arch.Word}
    (hAligned : addr.toNat % arch.wordBytes = 0)
    {i : Nat}
    (hLt : i < arch.wordBytes) :
    (addr + BitVec.ofNat _ i).toNat / pageSize =
      addr.toNat / pageSize := by
  have hAddr := addr.isLt
  rw [BitVec.toNat_add, BitVec.toNat_ofNat, pageSize]
  cases arch with
  | i386 =>
      simp only [Arch.wordBytes] at hAligned hLt hAddr ⊢
      omega
  | x86_64 =>
      simp only [Arch.wordBytes] at hAligned hLt hAddr ⊢
      omega

/- An aligned word is within one page. -/
theorem wordMapped_of_aligned
    {addr : arch.Word}
    (hAligned : addr.toNat % arch.wordBytes = 0)
    (hMapped : pages.isMapped addr) :
    pages.wordMapped addr := by
  rw [wordMapped, List.all_eq_true]
  intro i hMem
  rw [isMapped,
    page_of_aligned hAligned (List.mem_range.mp hMem)]
  exact hMapped

/- The address of a later word of the region. -/
theorem aligned_of_phase
    {raddr : arch.Word}
    {off : Nat}
    (hOff : (phaseOf raddr + off) % arch.wordBytes = 0) :
    (raddr + BitVec.ofNat _ off).toNat % arch.wordBytes =
      0 := by
  rw [phaseOf_eq_mod] at hOff
  rw [BitVec.toNat_add, BitVec.toNat_ofNat]
  cases arch with
  | i386 =>
      simp only [Arch.wordBytes] at hOff ⊢
      omega
  | x86_64 =>
      simp only [Arch.wordBytes] at hOff ⊢
      omega

/- The start of an unaligned region is its first request. -/
theorem raddr_mem_requestAddrs
    {raddr : arch.Word}
    {len : Nat}
    (hPhase : phaseOf raddr ≠ 0) :
    raddr ∈ Memory.requestAddrs raddr len := by
  rw [Memory.requestAddrs, tiles, if_neg hPhase,
    tileOffsets]
  simp

/-
  Only the request for an unaligned start can fail on a
  buffer that is mapped.
-/
theorem readable_iff
    {raddr : arch.Word}
    {len : Nat}
    (hHolds : pages.Holds raddr len) :
    pages.memory.Readable raddr len ↔
      phaseOf raddr = 0 ∨ pages.wordMapped raddr := by
  constructor
  · intro hReadable
    by_cases hPhase : phaseOf raddr = 0
    · exact Or.inl hPhase
    · right
      exact memory_fault_eq_none_iff.mp
        (hReadable raddr (raddr_mem_requestAddrs hPhase))
  · intro hStart addr hMem
    rw [memory_fault_eq_none_iff]
    rcases List.mem_map.mp hMem with ⟨off, hOff, hAddr⟩
    rw [← hAddr]
    rcases offset_of_mem_tiles (phaseOf_lt raddr) hOff with
      ⟨hPhase, hZero⟩ | ⟨hAligned, hLt⟩
    · rcases hStart with hAtWord | hWord
      · exact absurd hAtWord hPhase
      · simpa [hZero] using hWord
    · exact wordMapped_of_aligned (aligned_of_phase hAligned)
        (hHolds off hLt)

end PagedMemory

end Errmark

------------------------------------------------------------
-- Complete Reads
------------------------------------------------------------

namespace Errmark

open Foundation

variable {arch : Arch}

/- `pmem_copy` returns `len` and fills the buffer with it. -/
def CopiesWhole
    (tracee : Memory arch)
    (raddr : arch.Word)
    (len : Nat)
    (buf : List Cell) : Prop :=
  (pmemCopy buf tracee raddr len).value = len ∧
    (pmemCopy buf tracee raddr len).buf.take len =
      (tracee.region raddr len).map Cell.stored

/- `pmem_fwrite` returns `len` and emits the region. -/
def WritesWhole
    (tracee : Memory arch)
    (raddr : arch.Word)
    (len : Nat) : Prop :=
  (pmemFwrite tracee raddr len).value = len ∧
    (pmemFwrite tracee raddr len).written =
      tracee.region raddr len

/-
  The value is the length of the region when the region is
  readable and its length is not negative as a `ssize_t`.
-/
theorem value_eq_len_iff
    (tracee : Memory arch)
    (raddr : arch.Word)
    (len : arch.Word) :
    (pmemFwrite tracee raddr len.toNat).value =
        len.toNat ↔
      tracee.Readable raddr len.toNat ∧
        2 * len.toNat < 2 ^ (8 * arch.wordBytes) := by
  constructor
  · intro hValue
    have hReadable : tracee.Readable raddr len.toNat := by
      rw [← Memory.reading_failure_eq_none_iff]
      cases hFailure :
          (tracee.reading raddr len.toNat).failure with
      | none => rfl
      | some errno =>
          have hWritten :=
            (counts_bytes tracee raddr len len.toNat
              hValue).2.1
          have hFollows :=
            pmemFwrite_follows tracee raddr len.toNat
          rw [hFollows.written] at hWritten
          rw [hFollows.value] at hValue
          have hCount :
              (tracee.reading raddr
                len.toNat).bytes.length = len.toNat := by
            rw [hWritten, Memory.length_region]
          simp only [readValue, hFailure, Nat.zero_add,
            hCount] at hValue
          have hPos : 0 < len.toNat := by
            rcases Nat.eq_zero_or_pos len.toNat with
              hZero | hPos
            · simp [hZero] at hValue
            · exact hPos
          have hComplete :=
            (Memory.reading_failure_eq_none_iff tracee
              raddr len.toNat).mpr
              ((Memory.length_reading_eq_iff tracee raddr
                hPos).mp hCount)
          rw [hFailure] at hComplete
          cases hComplete
    refine ⟨hReadable, ?_⟩
    rw [pmemFwrite_value_of_readable hReadable] at hValue
    rcases ssize_cases arch len.isLt with
      ⟨hHalf, _⟩ | ⟨_, hWrapped⟩
    · exact hHalf
    · omega
  · rintro ⟨hReadable, hHalf⟩
    rw [pmemFwrite_value_of_readable hReadable]
    rcases ssize_cases arch len.isLt with
      ⟨_, hCount⟩ | ⟨hLarge, _⟩
    · exact hCount
    · omega

/- The value alone decides about a complete read. -/
theorem writesWhole_iff
    (tracee : Memory arch)
    (raddr : arch.Word)
    (len : arch.Word) :
    WritesWhole tracee raddr len.toNat ↔
      tracee.Readable raddr len.toNat ∧
        2 * len.toNat < 2 ^ (8 * arch.wordBytes) := by
  rw [← value_eq_len_iff]
  constructor
  · exact fun hBoth => hBoth.1
  · intro hValue
    refine ⟨hValue, ?_⟩
    exact
      (counts_bytes tracee raddr len len.toNat hValue).2.1

/-
  `pmem_copy` copies a readable buffer whose length counts
  as positive.
-/
theorem copiesWhole_iff
    (tracee : Memory arch)
    (raddr : arch.Word)
    (len : arch.Word)
    {buf : List Cell}
    (hFits : len.toNat ≤ buf.length) :
    CopiesWhole tracee raddr len.toNat buf ↔
      tracee.Readable raddr len.toNat ∧
        2 * len.toNat < 2 ^ (8 * arch.wordBytes) := by
  have hAgree :=
    pmem_functions_agree tracee raddr len.toNat hFits
  rw [← value_eq_len_iff, ← hAgree.value]
  constructor
  · exact fun hBoth => hBoth.1
  · intro hValue
    refine ⟨hValue, ?_⟩
    rw [hAgree.value] at hValue
    have hWritten :=
      (counts_bytes tracee raddr len len.toNat hValue).2.1
    have hLength :
        ((tracee.region raddr len.toNat).map
          Cell.stored).length = len.toNat := by
      simp
    rw [hAgree.stored, hWritten,
      List.take_left' hLength]

/-
  A buffer that is mapped is read as a whole exactly when
  it starts at a word, or at one that is mapped as a whole,
  and its length is not negative as a `ssize_t`.
-/
theorem mapped_buffer_read_iff
    (pages : PagedMemory arch)
    (raddr : arch.Word)
    (len : arch.Word)
    (buf : List Cell)
    (hFits : len.toNat ≤ buf.length)
    (hHolds : pages.Holds raddr len.toNat) :
    (CopiesWhole pages.memory raddr len.toNat buf ∧
        WritesWhole pages.memory raddr len.toNat) ↔
      (phaseOf raddr = 0 ∨ pages.wordMapped raddr) ∧
        2 * len.toNat < 2 ^ (8 * arch.wordBytes) := by
  rw [copiesWhole_iff pages.memory raddr len hFits,
    writesWhole_iff, PagedMemory.readable_iff hHolds,
    and_self]

/- Only the second page is mapped. -/
def samplePages : PagedMemory .x86_64 where
  mapped := fun page => page = 1
  byteAt := fun _ => 0x78

/- A buffer of three bytes at the start of a page. -/
theorem sample_mapped_buffer :
    (CopiesWhole samplePages.memory 4096 3
          (List.replicate 3 (.unset 0)) ∧
        WritesWhole samplePages.memory 4096 3) ↔
      (phaseOf (4096 : Arch.Word .x86_64) = 0 ∨
          samplePages.wordMapped 4096) ∧
        2 * 3 < 2 ^ (8 * Arch.x86_64.wordBytes) :=
  mapped_buffer_read_iff samplePages 4096 3
    (List.replicate 3 (.unset 0)) (by decide)
    (by unfold PagedMemory.Holds; decide)

/- The last two bytes of a page are mapped, and not read. -/
theorem sample_mapped_buffer_not_read :
    samplePages.Holds 8190 2 ∧
      ¬ CopiesWhole samplePages.memory 8190 2
        (List.replicate 2 (.unset 0)) ∧
      ¬ WritesWhole samplePages.memory 8190 2 := by
  refine ⟨?_, ?_, ?_⟩
  · unfold PagedMemory.Holds
    decide
  · rintro ⟨hValue, _⟩
    have hFailed :
        (pmemCopy (List.replicate 2 (.unset 0))
          samplePages.memory 8190 2).value = -1 := by
      decide +kernel
    rw [hFailed] at hValue
    cases hValue
  · rintro ⟨hValue, _⟩
    have hFailed :
        (pmemFwrite samplePages.memory 8190 2).value =
          -1 := by
      decide +kernel
    rw [hFailed] at hValue
    cases hValue

end Errmark
