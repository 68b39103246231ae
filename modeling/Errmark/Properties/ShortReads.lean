import Errmark.Tracee.Stops

/-
  `pmem_copy` and `pmem_fwrite` as two versions of one
  function, and what their returned values tell.

  Both follow the same reading of the region, so they make
  the same requests, return the same value and move the same
  bytes. A value that is not negative counts these bytes. A
  value of -1 tells of a failed request, or of a region of
  SIZE_MAX bytes whose count is -1 as a `ssize_t`.

  Key definitions include:
    * `Agree`
    * `CountsBytes`
    * `TellsFailure`

  Key theorems include:
    * `pmem_functions_agree`
    * `counts_bytes`
    * `tells_failure`
    * `short_reads_exact`
-/

------------------------------------------------------------
-- Two Versions Of One Function
------------------------------------------------------------

namespace Errmark

open Foundation

variable {arch : Arch}

/-
  The same requests, the same value, and the bytes that are
  written to the stream are those stored in the buffer.
-/
structure Agree
    (w : PmemFwrite arch)
    (c : PmemCopy arch)
    (buf : List Cell) : Prop where
  requests : c.requests = w.requests
  value : c.value = w.value
  stored :
    c.buf =
      w.written.map Cell.stored ++
        buf.drop w.written.length

/- Both functions follow the reading of the region. -/
theorem pmem_functions_agree
    (tracee : Memory arch)
    (raddr : arch.Word)
    (len : Nat)
    {buf : List Cell}
    (hFits : len ≤ buf.length) :
    Agree (pmemFwrite tracee raddr len)
      (pmemCopy buf tracee raddr len) buf := by
  have hWrite := pmemFwrite_follows tracee raddr len
  have hCopy := pmemCopy_follows buf tracee raddr len hFits
  constructor
  · rw [hCopy.requests, hWrite.requests]
  · rw [hCopy.value, hWrite.value]
  · rw [hCopy.buf, hWrite.written, memcpy]
    simp

end Errmark

------------------------------------------------------------
-- What A Value Tells
------------------------------------------------------------

namespace Errmark

open Foundation

variable {arch : Arch}

/-
  A value that is not negative counts the bytes from the
  start of the region that were moved. If these are not all
  of them, the request right after them failed with EIO.
-/
def CountsBytes
    (tracee : Memory arch)
    (raddr : arch.Word)
    (len : Nat)
    (w : PmemFwrite arch) : Prop :=
  ∀ n : Nat, w.value = n →
    n ≤ len ∧ w.written = tracee.region raddr n ∧
      (n < len →
        raddr + BitVec.ofNat _ n ∈ w.requests ∧
          tracee.fault (raddr + BitVec.ofNat _ n) =
            some Errno.EIO)

/- A value of -1 is returned after a request that failed. -/
def TellsFailure
    (tracee : Memory arch)
    (w : PmemFwrite arch) : Prop :=
  w.value = -1 →
    ∃ addr ∈ w.requests, tracee.fault addr ≠ none

/- A value that is not negative is the count itself. -/
theorem count_of_ssize
    {count n : Nat}
    (hLt : count < 2 ^ (8 * arch.wordBytes))
    (hValue : ssize arch count = n) :
    count = n := by
  rcases ssize_cases arch hLt with
    ⟨_, hCount⟩ | ⟨_, hWrapped⟩
  · rw [hCount] at hValue
    exact Int.ofNat.inj hValue
  · omega

/- Only SIZE_MAX is -1 as a `ssize_t`. -/
theorem ssize_eq_neg_one
    {count : Nat}
    (hLt : count < 2 ^ (8 * arch.wordBytes))
    (hValue : ssize arch count = -1) :
    count + 1 = 2 ^ (8 * arch.wordBytes) := by
  rcases ssize_cases arch hLt with
    ⟨_, hCount⟩ | ⟨_, hWrapped⟩
  · omega
  · omega

/- What is read is shorter than the memory. -/
theorem length_reading_lt
    (tracee : Memory arch)
    (raddr : arch.Word)
    (len : arch.Word) :
    (tracee.reading raddr len.toNat).bytes.length <
      2 ^ (8 * arch.wordBytes) :=
  Nat.lt_of_le_of_lt
    (Memory.length_reading_le tracee raddr len.toNat)
    len.isLt

/- The last request of a reading that failed. -/
theorem reading_failed
    {tracee : Memory arch}
    {raddr : arch.Word}
    {len : Nat}
    {errno : Errno}
    (hFailed :
      (tracee.reading raddr len).failure = some errno) :
    raddr +
          BitVec.ofNat _
            (tracee.reading raddr len).bytes.length ∈
        (pmemFwrite tracee raddr len).requests ∧
      tracee.fault
          (raddr +
            BitVec.ofNat _
              (tracee.reading raddr len).bytes.length) =
        some errno := by
  have hFollows := pmemFwrite_follows tracee raddr len
  rcases readTiles_failed hFailed with ⟨hFault, hMem⟩
  rw [Nat.zero_add] at hFault hMem
  refine ⟨?_, hFault⟩
  rw [hFollows.requests]
  exact List.mem_map_of_mem hMem

/- `pmem_fwrite` counts the bytes it writes. -/
theorem counts_bytes
    (tracee : Memory arch)
    (raddr : arch.Word)
    (len : arch.Word) :
    CountsBytes tracee raddr len.toNat
      (pmemFwrite tracee raddr len.toNat) := by
  intro n hValue
  have hFollows :=
    pmemFwrite_follows tracee raddr len.toNat
  have hLt := length_reading_lt tracee raddr len
  have hLe :=
    Memory.length_reading_le tracee raddr len.toNat
  have hBytes :=
    Memory.reading_bytes tracee raddr len.toNat
  rw [hFollows.value] at hValue
  rw [hFollows.written]
  cases hFailure :
      (tracee.reading raddr len.toNat).failure with
  | none =>
      simp only [readValue, hFailure, Nat.zero_add]
        at hValue
      have hCount := count_of_ssize hLt hValue
      have hAll :
          (tracee.reading raddr len.toNat).bytes.length =
            len.toNat := by
        have hSum := length_readTiles_of_complete hFailure
        rwa [sum_tiles] at hSum
      rw [hCount] at hLe hBytes hAll
      exact ⟨hLe, hBytes, fun hShort => by omega⟩
  | some errno =>
      rcases reading_failed hFailure with ⟨hMem, hFault⟩
      simp only [readValue, hFailure, Nat.zero_add]
        at hValue
      split at hValue
      · next hShort =>
          have hCount := count_of_ssize hLt hValue
          rw [hCount] at hLe hBytes hMem hFault
          rw [hShort.2] at hFault
          exact ⟨hLe, hBytes, fun _ => ⟨hMem, hFault⟩⟩
      · omega

/- The other way to -1 is a count that does not fit. -/
theorem tells_failure
    (tracee : Memory arch)
    (raddr : arch.Word)
    (len : arch.Word)
    (hValue :
      (pmemFwrite tracee raddr len.toNat).value = -1) :
    (∃ addr ∈ (pmemFwrite tracee raddr len.toNat).requests,
        tracee.fault addr ≠ none) ∨
      (len = BitVec.allOnes _ ∧
        (pmemFwrite tracee raddr len.toNat).written =
          tracee.region raddr len.toNat) := by
  have hFollows :=
    pmemFwrite_follows tracee raddr len.toNat
  cases hFailure :
      (tracee.reading raddr len.toNat).failure with
  | some errno =>
      left
      rcases reading_failed hFailure with ⟨hMem, hFault⟩
      refine ⟨_, hMem, ?_⟩
      simp [hFault]
  | none =>
      right
      have hReadable :=
        (Memory.reading_failure_eq_none_iff tracee raddr
          len.toNat).mp hFailure
      have hBytes :=
        Memory.reading_bytes_of_readable hReadable
      rw [hFollows.value] at hValue
      simp only [readValue, hFailure, Nat.zero_add, hBytes,
        Memory.length_region] at hValue
      have hMax := ssize_eq_neg_one len.isLt hValue
      refine ⟨?_, by rw [hFollows.written, hBytes]⟩
      apply BitVec.eq_of_toNat_eq
      rw [BitVec.toNat_allOnes]
      omega

/-
  The functions agree, their values count the bytes they
  move, and -1 tells of a request that failed, or of a
  region of SIZE_MAX bytes that was read as a whole.
-/
theorem short_reads_exact
    (tracee : Memory arch)
    (raddr : arch.Word)
    (len : arch.Word)
    (buf : List Cell)
    (hFits : len.toNat ≤ buf.length) :
    Agree (pmemFwrite tracee raddr len.toNat)
        (pmemCopy buf tracee raddr len.toNat) buf ∧
      CountsBytes tracee raddr len.toNat
        (pmemFwrite tracee raddr len.toNat) ∧
      ((pmemFwrite tracee raddr len.toNat).value = -1 →
        (∃ addr ∈
            (pmemFwrite tracee raddr len.toNat).requests,
          tracee.fault addr ≠ none) ∨
        (len = BitVec.allOnes _ ∧
          (pmemFwrite tracee raddr len.toNat).written =
            tracee.region raddr len.toNat)) :=
  ⟨pmem_functions_agree tracee raddr len.toNat hFits,
    counts_bytes tracee raddr len,
    tells_failure tracee raddr len⟩

/- A region whose second word cannot be read. -/
def sampleTornMemory : Memory .x86_64 where
  byteAt := fun _ => 0x78
  fault := fun addr =>
    if addr = 4104 then some Errno.EIO else none

/- The second of two words cannot be read. -/
theorem sample_short_reads :
    Agree (pmemFwrite sampleTornMemory 4096 9)
        (pmemCopy (List.replicate 9 (.unset 0))
          sampleTornMemory 4096 9)
        (List.replicate 9 (.unset 0)) ∧
      CountsBytes sampleTornMemory 4096 9
        (pmemFwrite sampleTornMemory 4096 9) ∧
      ((pmemFwrite sampleTornMemory 4096 9).value = -1 →
        (∃ addr ∈
            (pmemFwrite sampleTornMemory 4096 9).requests,
          sampleTornMemory.fault addr ≠ none) ∨
        ((9 : Arch.Word .x86_64) = BitVec.allOnes _ ∧
          (pmemFwrite sampleTornMemory 4096 9).written =
            sampleTornMemory.region 4096 9)) :=
  short_reads_exact sampleTornMemory 4096 9
    (List.replicate 9 (.unset 0)) (by decide)

/- The whole address space is read, and counted as -1. -/
theorem sample_no_failure_told :
    ¬ TellsFailure (Memory.uniform 0x78 none)
      (pmemFwrite
        (Memory.uniform 0x78 none : Memory .x86_64) 0
        (BitVec.allOnes 64).toNat) := by
  intro hTells
  have hReadable :
      (Memory.uniform 0x78 none : Memory .x86_64).Readable 0
        (BitVec.allOnes 64).toNat :=
    fun _ _ => rfl
  have hCount :
      ssize .x86_64 (BitVec.allOnes 64).toNat = -1 := by
    decide
  have hValue :=
    (pmemFwrite_value_of_readable hReadable).trans hCount
  rcases hTells hValue with ⟨addr, _, hFault⟩
  exact hFault rfl

end Errmark
