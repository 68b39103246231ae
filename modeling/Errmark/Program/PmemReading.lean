import Errmark.Foundation.Tiling
import Errmark.Program.Pmem

/-
  `pmem_fwrite` and `pmem_copy` read a region tile by tile.

  `Memory.reading` is the reading of the region by words.
  Both functions make its requests in its order, return a
  value computed from it, and move its bytes: one to the
  stream, the other to the buffer.

  Main declarations:
    * `Memory.reading`
    * `readValue`
    * `pmemFwrite_follows`
    * `pmemCopy_follows`
    * `Memory.Readable` and `length_reading_eq_iff`
-/

------------------------------------------------------------
-- One Request
------------------------------------------------------------

namespace Errmark

open Foundation

variable {arch : Arch}

/- The mask leaves the offset into the word. -/
theorem phaseOf_eq_mod (raddr : arch.Word) :
    phaseOf raddr = raddr.toNat % arch.wordBytes := by
  cases arch with
  | i386 =>
      exact Nat.and_two_pow_sub_one_eq_mod raddr.toNat 2
  | x86_64 =>
      exact Nat.and_two_pow_sub_one_eq_mod raddr.toNat 3

/- The offset is within a word. -/
theorem phaseOf_lt (raddr : arch.Word) :
    phaseOf raddr < arch.wordBytes := by
  rw [phaseOf_eq_mod]
  exact Nat.mod_lt _ arch.wordBytes_pos

/- An error is known by its number. -/
theorem Errno.number_eq_iff (a b : Errno) :
    a.number = b.number ↔ a = b := by
  cases a
  cases b
  simp

/- From half of the `size_t` on a count turns negative. -/
theorem ssize_cases
    (arch : Arch)
    {count : Nat}
    (hLt : count < 2 ^ (8 * arch.wordBytes)) :
    (2 * count < 2 ^ (8 * arch.wordBytes) ∧
        ssize arch count = count) ∨
      (2 ^ (8 * arch.wordBytes) ≤ 2 * count ∧
        ssize arch count =
          count - (2 ^ (8 * arch.wordBytes) : Nat)) := by
  rw [ssize, BitVec.toInt_eq_toNat_cond, BitVec.toNat_ofNat,
    Nat.mod_eq_of_lt hLt]
  split
  · next hHalf => exact Or.inl ⟨hHalf, rfl⟩
  · next hHalf =>
      exact Or.inr ⟨Nat.le_of_not_lt hHalf, rfl⟩

/- A failed request is told apart from a word of ones. -/
theorem readWord_of_fault
    {tracee : Memory arch}
    {raddr : arch.Word}
    {errno : Errno}
    (hFault : tracee.fault raddr = some errno)
    (bytesRead : Nat) :
    readWord tracee raddr bytesRead =
      .error
        (if bytesRead ≠ 0 ∧ errno = Errno.EIO then
          ssize arch bytesRead
        else
          -1) := by
  have hOnes :
      isMinusOne (List.replicate arch.wordBytes 0xff) =
        true := by
    simp [isMinusOne]
  have hNe := errno.ne_zero
  simp only [readWord, Memory.peekData, hFault, hOnes,
    ne_eq, hNe, not_false_eq_true, and_self, if_true,
    Errno.number_eq_iff]
  split <;> rfl

/- A word that was read is used even when it is -1. -/
theorem readWord_of_none
    {tracee : Memory arch}
    {raddr : arch.Word}
    (hFault : tracee.fault raddr = none)
    (bytesRead : Nat) :
    readWord tracee raddr bytesRead =
      .ok (tracee.wordAt raddr) := by
  simp [readWord, Memory.peekData, hFault]

end Errmark

------------------------------------------------------------
-- The Reading Of A Region
------------------------------------------------------------

namespace Errmark

open Foundation

variable {arch : Arch}

namespace Memory

/- The byte at an offset from an address. -/
def regionByte
    (memory : Memory arch)
    (raddr : arch.Word)
    (off : Nat) : UInt8 :=
  memory.byteAt (raddr + BitVec.ofNat _ off)

/- How a request at an offset from an address fails. -/
def regionFault
    (memory : Memory arch)
    (raddr : arch.Word)
    (off : Nat) : Option Errno :=
  memory.fault (raddr + BitVec.ofNat _ off)

/- The reading, in words, of `len` bytes at an address. -/
def reading
    (memory : Memory arch)
    (raddr : arch.Word)
    (len : Nat) : Reading UInt8 Errno :=
  readTiles (memory.regionByte raddr)
    (memory.regionFault raddr) 0
    (tiles arch.wordBytes (phaseOf raddr) len)

/- The addresses at which a region is requested. -/
def requestAddrs
    (raddr : arch.Word)
    (len : Nat) : List arch.Word :=
  (tileOffsets 0
    (tiles arch.wordBytes (phaseOf raddr) len)).map
      fun off => raddr + BitVec.ofNat _ off

/- The words requested: all, or up to the first fault. -/
def requestedWords
    (memory : Memory arch)
    (raddr : arch.Word)
    (len : Nat) : List arch.Word :=
  requested memory.fault (requestAddrs raddr len)

/- A reading requests the words up to the first fault. -/
theorem reading_requests
    (memory : Memory arch)
    (raddr : arch.Word)
    (len : Nat) :
    (memory.reading raddr len).requests.map
        (fun off => raddr + BitVec.ofNat _ off) =
      memory.requestedWords raddr len := by
  rw [reading, readTiles_requests]
  exact
    map_requested (fun off => raddr + BitVec.ofNat _ off)
      memory.fault _

/- Every request that a region needs succeeds. -/
def Readable
    (memory : Memory arch)
    (raddr : arch.Word)
    (len : Nat) : Prop :=
  ∀ addr ∈ requestAddrs raddr len,
    memory.fault addr = none

instance
    (memory : Memory arch)
    (raddr : arch.Word)
    (len : Nat) :
    Decidable (memory.Readable raddr len) :=
  -- Not the instance that goes through all addresses.
  List.decidableBAll (fun addr => memory.fault addr = none)
    (requestAddrs raddr len)

/- The bytes of the region, whether readable or not. -/
def region
    (memory : Memory arch)
    (raddr : arch.Word)
    (len : Nat) : List UInt8 :=
  (List.range' 0 len).map (memory.regionByte raddr)

/- A region is as long as asked. -/
@[simp] theorem length_region
    (memory : Memory arch)
    (raddr : arch.Word)
    (len : Nat) :
    (memory.region raddr len).length = len := by
  simp [region]

/- Offsets add up, also around the end of memory. -/
theorem addr_add_add
    (raddr : arch.Word)
    (off size : Nat) :
    raddr + BitVec.ofNat _ off + BitVec.ofNat _ size =
      raddr + BitVec.ofNat _ (off + size) := by
  rw [BitVec.ofNat_add, BitVec.add_assoc]

/- The start of a word is the region at its offset. -/
theorem take_wordAt
    (memory : Memory arch)
    (raddr : arch.Word)
    (off : Nat)
    {size : Nat}
    (hSize : size ≤ arch.wordBytes) :
    (memory.wordAt
        (raddr + BitVec.ofNat _ off)).take size =
      (List.range' off size).map
        (memory.regionByte raddr) := by
  rw [wordAt, ← List.map_take, List.take_range,
    Nat.min_eq_left hSize, List.range'_eq_map_range,
    List.map_map]
  apply List.map_congr_left
  intro i _
  rw [Function.comp_apply, regionByte, addr_add_add]

/- What is read is the beginning of the region. -/
theorem reading_bytes
    (memory : Memory arch)
    (raddr : arch.Word)
    (len : Nat) :
    (memory.reading raddr len).bytes =
      memory.region raddr
        (memory.reading raddr len).bytes.length :=
  readTiles_bytes _ _ _ _

/- No more is read than asked. -/
theorem length_reading_le
    (memory : Memory arch)
    (raddr : arch.Word)
    (len : Nat) :
    (memory.reading raddr len).bytes.length ≤ len := by
  have hLe :=
    length_readTiles_le (memory.regionByte raddr)
      (memory.regionFault raddr) 0
      (tiles arch.wordBytes (phaseOf raddr) len)
  rwa [sum_tiles] at hLe

/- No request fails if the whole region can be read. -/
theorem reading_failure_eq_none_iff
    (memory : Memory arch)
    (raddr : arch.Word)
    (len : Nat) :
    (memory.reading raddr len).failure = none ↔
      memory.Readable raddr len := by
  rw [reading, readTiles_failure_eq_none_iff, Readable,
    requestAddrs]
  simp [regionFault]

/- A region is read whole exactly when it is readable. -/
theorem length_reading_eq_iff
    (memory : Memory arch)
    (raddr : arch.Word)
    {len : Nat}
    (hLen : 0 < len) :
    (memory.reading raddr len).bytes.length = len ↔
      memory.Readable raddr len := by
  rw [← reading_failure_eq_none_iff]
  exact
    length_readTiles_tiles_eq_iff _ _ _
      (phaseOf_lt raddr) hLen

/- Nothing is read when the first request fails. -/
theorem reading_bytes_eq_nil_iff
    (memory : Memory arch)
    (raddr : arch.Word)
    {len : Nat}
    (hLen : 0 < len) :
    (memory.reading raddr len).bytes = [] ↔
      memory.fault raddr ≠ none := by
  have hFirst : memory.regionFault raddr 0 =
      memory.fault raddr := by
    simp [regionFault]
  rw [reading, ← hFirst]
  exact
    readTiles_tiles_bytes_eq_nil_iff _ _ 0
      (phaseOf_lt raddr) hLen

/- A readable region is read byte for byte. -/
theorem reading_bytes_of_readable
    {memory : Memory arch}
    {raddr : arch.Word}
    {len : Nat}
    (hReadable : memory.Readable raddr len) :
    (memory.reading raddr len).bytes =
      memory.region raddr len := by
  rw [reading_bytes]
  rcases Nat.eq_zero_or_pos len with hZero | hPos
  · have hLe := length_reading_le memory raddr len
    rw [hZero] at hLe ⊢
    rw [Nat.le_zero.mp hLe]
  · rw [(length_reading_eq_iff memory raddr hPos).mpr
      hReadable]

end Memory

/-
  The value returned after a reading, when `before` bytes
  had been counted before it.
-/
def readValue
    (arch : Arch)
    (before : Nat)
    (reading : Reading UInt8 Errno) : Int :=
  let count := before + reading.bytes.length
  match reading.failure with
  | none => ssize arch count
  | some errno =>
      if count ≠ 0 ∧ errno = Errno.EIO then
        ssize arch count
      else
        -1

end Errmark

------------------------------------------------------------
-- The Words Of A Length
------------------------------------------------------------

namespace Errmark

/- A loop over whole words takes one word, and then the rest. -/
theorem words_of_succ
    {size words len : Nat}
    (hSize : 0 < size)
    (hWords : words + 1 = len / size) :
    size ≤ len ∧ words = (len - size) / size := by
  have hLe : size ≤ len := by
    by_contra hLt
    rw [Nat.div_eq_of_lt (Nat.lt_of_not_le hLt)] at hWords
    omega
  refine ⟨hLe, ?_⟩
  rw [Nat.div_eq_sub_div hSize hLe] at hWords
  omega

/- The source compares where a minimum is meant. -/
theorem clipped_eq_min (len room : Nat) :
    (if len > room then room else len) = min len room := by
  split <;> omega

end Errmark

------------------------------------------------------------
-- pmem_fwrite Follows The Reading
------------------------------------------------------------

namespace Errmark

open Foundation

variable {arch : Arch}

namespace PmemFwrite

/-
  The value, the requests and the bytes of a reading, and
  the buffer, which is flushed unless the reading failed.
-/
structure Follows
    (w : PmemFwrite arch)
    (before : Nat)
    (raddr : arch.Word)
    (reading : Reading UInt8 Errno) : Prop where
  value : w.value = readValue arch before reading
  requests :
    w.requests =
      reading.requests.map fun off =>
        raddr + BitVec.ofNat _ off
  written : w.written = reading.bytes
  held :
    ∀ buf,
      w.held buf =
        if reading.failure = none then []
        else buf ++ reading.bytes

end PmemFwrite

variable
  {tracee : Memory arch}
  {raddr : arch.Word}
  {off before : Nat}

/- A request that fails ends the function there. -/
theorem PmemFwrite.follows_of_fault
    (before : Nat)
    {errno : Errno}
    (hFault :
      tracee.fault (raddr + BitVec.ofNat _ off) =
        some errno)
    (size : Nat)
    (sizes : List Nat) :
    PmemFwrite.Follows
      ⟨if before ≠ 0 ∧ errno = Errno.EIO then
          ssize arch before
        else
          -1,
        [.peekData (raddr + BitVec.ofNat _ off)]⟩
      before raddr
      (readTiles (tracee.regionByte raddr)
        (tracee.regionFault raddr) off
        (size :: sizes)) := by
  rw [readTiles_cons_of_fault hFault]
  constructor
  · simp [readValue]
  · simp [requests]
  · simp [written]
  · intro buf
    simp [held, PmemCall.hold]

/- A word that was read is followed by the next tile. -/
theorem PmemFwrite.follows_after
    {size : Nat}
    {sizes : List Nat}
    {rest : PmemFwrite arch}
    (hSize : size ≤ arch.wordBytes)
    (hNone :
      tracee.fault (raddr + BitVec.ofNat _ off) = none)
    (hRest :
      rest.Follows (before + size) raddr
        (readTiles (tracee.regionByte raddr)
          (tracee.regionFault raddr) (off + size)
          sizes)) :
    PmemFwrite.Follows
      (.after
        [.peekData (raddr + BitVec.ofNat _ off),
          .fwrite
            ((tracee.wordAt
              (raddr + BitVec.ofNat _ off)).take size)]
        rest)
      before raddr
      (readTiles (tracee.regionByte raddr)
        (tracee.regionFault raddr) off
        (size :: sizes)) := by
  rw [readTiles_cons_of_none hNone]
  constructor
  · rw [after, hRest.value]
    simp [readValue, Nat.add_assoc]
  · have hRequests := hRest.requests
    simp only [requests] at hRequests
    simp [requests, after, hRequests]
  · have hWritten := hRest.written
    simp only [written] at hWritten
    rw [written, after, List.flatMap_append, hWritten,
      Memory.take_wordAt tracee raddr off hSize]
    simp
  · intro buf
    have hHeld :=
      hRest.held
        (buf ++
          (tracee.wordAt
            (raddr + BitVec.ofNat _ off)).take size)
    rw [Memory.take_wordAt tracee raddr off hSize,
      List.append_assoc] at hHeld
    simp only [held] at hHeld
    rw [held, after, List.foldl_append,
      Memory.take_wordAt tracee raddr off hSize]
    exact hHeld

/- The runt word is the last tile, if there is one. -/
theorem fwriteRunt_follows
    {len : Nat}
    (hLt : len < arch.wordBytes) :
    (fwriteRunt tracee (raddr + BitVec.ofNat _ off) len
      before).Follows before raddr
      (readTiles (tracee.regionByte raddr)
        (tracee.regionFault raddr) off
        (wordTiles arch.wordBytes len)) := by
  rw [wordTiles_of_lt hLt, fwriteRunt]
  by_cases hZero : len = 0
  · subst hZero
    constructor <;>
      simp [readValue, PmemFwrite.requests,
        PmemFwrite.written, PmemFwrite.held, PmemCall.hold]
  · rw [if_neg hZero, if_pos (Nat.pos_of_ne_zero hZero)]
    cases hFault :
        tracee.fault (raddr + BitVec.ofNat _ off) with
    | some errno =>
        rw [readWord_of_fault hFault]
        exact PmemFwrite.follows_of_fault _ hFault len []
    | none =>
        rw [readWord_of_none hFault]
        have hEnd :
            (⟨ssize arch (before + len), [.fflush]⟩ :
              PmemFwrite arch).Follows (before + len) raddr
              (readTiles (tracee.regionByte raddr)
                (tracee.regionFault raddr) (off + len)
                []) := by
          constructor <;>
            simp [readValue, PmemFwrite.requests,
              PmemFwrite.written, PmemFwrite.held,
              PmemCall.hold]
        exact
          PmemFwrite.follows_after (Nat.le_of_lt hLt)
            hFault hEnd

/- The loop reads one whole word after the other. -/
theorem fwriteWords_follows
    (tracee : Memory arch)
    (raddr : arch.Word)
    (off before : Nat)
    {words : Nat}
    (len : Nat)
    (hWords : words = len / arch.wordBytes) :
    (fwriteWords tracee words
      (raddr + BitVec.ofNat _ off) len before).Follows
      before raddr
      (readTiles (tracee.regionByte raddr)
        (tracee.regionFault raddr) off
        (wordTiles arch.wordBytes len)) := by
  have hPos := arch.wordBytes_pos
  induction words generalizing off before len with
  | zero =>
      apply fwriteRunt_follows
      exact
        (Nat.div_eq_zero_iff_lt hPos).mp hWords.symm
  | succ words ih =>
      rcases words_of_succ hPos hWords with
        ⟨hLe, hRestWords⟩
      rw [fwriteWords, if_pos hLe,
        wordTiles_of_le hPos hLe]
      cases hFault :
          tracee.fault (raddr + BitVec.ofNat _ off) with
      | some errno =>
          rw [readWord_of_fault hFault]
          exact PmemFwrite.follows_of_fault _ hFault _ _
      | none =>
          rw [readWord_of_none hFault]
          simp only [Memory.addr_add_add]
          exact
            PmemFwrite.follows_after (Nat.le_refl _)
              hFault (ih _ _ _ hRestWords)

/- `pmem_fwrite` returns and writes what it reads. -/
theorem pmemFwrite_follows
    (tracee : Memory arch)
    (raddr : arch.Word)
    (len : Nat) :
    (pmemFwrite tracee raddr len).Follows 0 raddr
      (tracee.reading raddr len) := by
  have hLt := phaseOf_lt raddr
  have hBase : raddr + BitVec.ofNat _ 0 = raddr := by
    simp
  rw [pmemFwrite, Memory.reading, tiles]
  by_cases hPhase : phaseOf raddr = 0
  · rw [if_pos hPhase, if_neg (not_not.mpr hPhase)]
    have hWords :=
      fwriteWords_follows tracee raddr 0 0 len rfl
    rwa [hBase] at hWords
  · rw [if_neg hPhase, if_pos hPhase]
    simp only [clipped_eq_min]
    have hSize :
        min len (arch.wordBytes - phaseOf raddr) ≤
          arch.wordBytes := by
      omega
    generalize min len (arch.wordBytes - phaseOf raddr) =
      size at hSize ⊢
    cases hFault : tracee.fault raddr with
    | some errno =>
        rw [readWord_of_fault hFault]
        rw [← hBase] at hFault
        have hFollows :=
          PmemFwrite.follows_of_fault 0 hFault size
            (wordTiles arch.wordBytes (len - size))
        rwa [hBase] at hFollows
    | none =>
        rw [readWord_of_none hFault]
        rw [← hBase] at hFault
        have hRest :=
          fwriteWords_follows tracee raddr (0 + size)
            (0 + size) (len - size) rfl
        have hFollows :=
          PmemFwrite.follows_after hSize hFault hRest
        rw [hBase, Nat.zero_add] at hFollows
        exact hFollows

/- A readable region is counted and written as a whole. -/
theorem pmemFwrite_value_of_readable
    {tracee : Memory arch}
    {raddr : arch.Word}
    {len : Nat}
    (hReadable : tracee.Readable raddr len) :
    (pmemFwrite tracee raddr len).value =
      ssize arch len := by
  have hComplete :=
    (Memory.reading_failure_eq_none_iff tracee raddr
      len).mpr hReadable
  rw [(pmemFwrite_follows tracee raddr len).value]
  simp only [readValue, hComplete, Nat.zero_add,
    Memory.reading_bytes_of_readable hReadable,
    Memory.length_region]

end Errmark

------------------------------------------------------------
-- pmem_copy Follows The Reading
------------------------------------------------------------

namespace Errmark

open Foundation

variable {arch : Arch}

/- Copying nothing changes nothing. -/
@[simp] theorem memcpy_nil
    (buf : List Cell)
    (off : Nat) :
    memcpy buf off [] = buf := by
  simp [memcpy]

/- A copy that fits keeps the length of the buffer. -/
theorem length_memcpy
    {buf : List Cell}
    {off : Nat}
    {src : List UInt8}
    (hFits : off + src.length ≤ buf.length) :
    (memcpy buf off src).length = buf.length := by
  simp only [memcpy, List.length_append, List.length_take,
    List.length_map, List.length_drop]
  omega

/- Two copies in a row are one copy. -/
theorem memcpy_memcpy
    {buf : List Cell}
    {off : Nat}
    (hOff : off ≤ buf.length)
    (src rest : List UInt8) :
    memcpy (memcpy buf off src) (off + src.length) rest =
      memcpy buf off (src ++ rest) := by
  have hHead :
      (buf.take off ++ src.map Cell.stored).length =
        off + src.length := by
    simp [hOff]
  have hTake :
      (memcpy buf off src).take (off + src.length) =
        buf.take off ++ src.map Cell.stored := by
    rw [memcpy, ← hHead, List.take_left]
  have hDrop :
      (memcpy buf off src).drop
          (off + src.length + rest.length) =
        buf.drop (off + (src ++ rest).length) := by
    rw [memcpy, ← List.drop_drop, ← hHead,
      List.drop_left, List.drop_drop, hHead,
      List.length_append, Nat.add_assoc]
  rw [memcpy, hTake, hDrop]
  simp [memcpy]

/- The value, the requests and the buffer of a reading. -/
structure PmemCopy.Follows
    (c : PmemCopy arch)
    (buf : List Cell)
    (off before : Nat)
    (raddr : arch.Word)
    (reading : Reading UInt8 Errno) : Prop where
  value : c.value = readValue arch before reading
  requests :
    c.requests =
      reading.requests.map fun o =>
        raddr + BitVec.ofNat _ o
  buf : c.buf = memcpy buf off reading.bytes

variable
  {tracee : Memory arch}
  {raddr : arch.Word}
  {off : Nat}

/- A request that fails ends the copying there. -/
theorem PmemCopy.follows_of_fault
    (buf : List Cell)
    (before : Nat)
    {errno : Errno}
    (hFault :
      tracee.fault (raddr + BitVec.ofNat _ off) =
        some errno)
    (size : Nat)
    (sizes : List Nat) :
    PmemCopy.Follows
      ⟨if before ≠ 0 ∧ errno = Errno.EIO then
          ssize arch before
        else
          -1,
        [raddr + BitVec.ofNat _ off], buf⟩
      buf off before raddr
      (readTiles (tracee.regionByte raddr)
        (tracee.regionFault raddr) off
        (size :: sizes)) := by
  rw [readTiles_cons_of_fault hFault]
  constructor
  · simp [readValue]
  · simp
  · simp

/- A word is copied, and the rest behind it. -/
theorem PmemCopy.follows_after
    {buf : List Cell}
    {before size : Nat}
    {sizes : List Nat}
    {rest : PmemCopy arch}
    (hOff : off ≤ buf.length)
    (hSize : size ≤ arch.wordBytes)
    (hNone :
      tracee.fault (raddr + BitVec.ofNat _ off) = none)
    (hRest :
      rest.Follows
        (memcpy buf off
          ((tracee.wordAt
            (raddr + BitVec.ofNat _ off)).take size))
        (off + size) (before + size) raddr
        (readTiles (tracee.regionByte raddr)
          (tracee.regionFault raddr) (off + size)
          sizes)) :
    PmemCopy.Follows
      (.after (raddr + BitVec.ofNat _ off) rest)
      buf off before raddr
      (readTiles (tracee.regionByte raddr)
        (tracee.regionFault raddr) off
        (size :: sizes)) := by
  rw [Memory.take_wordAt tracee raddr off hSize] at hRest
  rw [readTiles_cons_of_none hNone]
  constructor
  · rw [after, hRest.value]
    simp [readValue, Nat.add_assoc]
  · simp [after, hRest.requests]
  · have hLength :
        ((List.range' off size).map
          (tracee.regionByte raddr)).length = size := by
      simp
    have hBuf := hRest.buf
    nth_rewrite 2 [← hLength] at hBuf
    rw [memcpy_memcpy hOff] at hBuf
    exact hBuf

/- The runt word is copied like a tile. -/
theorem copyRunt_follows
    (buf : List Cell)
    (off before : Nat)
    {len : Nat}
    (hFits : off + len ≤ buf.length)
    (hLt : len < arch.wordBytes) :
    (copyRunt buf off tracee
      (raddr + BitVec.ofNat _ off) len before).Follows
      buf off before raddr
      (readTiles (tracee.regionByte raddr)
        (tracee.regionFault raddr) off
        (wordTiles arch.wordBytes len)) := by
  rw [wordTiles_of_lt hLt, copyRunt]
  by_cases hZero : len = 0
  · subst hZero
    constructor <;> simp [readValue]
  · rw [if_neg hZero, if_pos (Nat.pos_of_ne_zero hZero)]
    cases hFault :
        tracee.fault (raddr + BitVec.ofNat _ off) with
    | some errno =>
        rw [readWord_of_fault hFault]
        exact
          PmemCopy.follows_of_fault buf _ hFault len []
    | none =>
        rw [readWord_of_none hFault]
        have hEnd :
            PmemCopy.Follows
              ⟨ssize arch (before + len), [],
                memcpy buf off
                  ((tracee.wordAt
                    (raddr + BitVec.ofNat _ off)).take
                      len)⟩
              (memcpy buf off
                ((tracee.wordAt
                  (raddr + BitVec.ofNat _ off)).take len))
              (off + len) (before + len) raddr
              (readTiles (tracee.regionByte raddr)
                (tracee.regionFault raddr) (off + len)
                []) := by
          constructor <;> simp [readValue]
        exact
          PmemCopy.follows_after (by omega)
            (Nat.le_of_lt hLt) hFault hEnd

/- So are the whole words, by induction on their number. -/
theorem copyWords_follows
    (tracee : Memory arch)
    (raddr : arch.Word)
    (buf : List Cell)
    (off before : Nat)
    {words : Nat}
    (len : Nat)
    (hFits : off + len ≤ buf.length)
    (hWords : words = len / arch.wordBytes) :
    (copyWords tracee words buf off
      (raddr + BitVec.ofNat _ off) len before).Follows
      buf off before raddr
      (readTiles (tracee.regionByte raddr)
        (tracee.regionFault raddr) off
        (wordTiles arch.wordBytes len)) := by
  have hPos := arch.wordBytes_pos
  induction words generalizing buf off before len with
  | zero =>
      apply copyRunt_follows buf off before hFits
      exact
        (Nat.div_eq_zero_iff_lt hPos).mp hWords.symm
  | succ words ih =>
      rcases words_of_succ hPos hWords with
        ⟨hLe, hRestWords⟩
      rw [copyWords, if_pos hLe,
        wordTiles_of_le hPos hLe]
      cases hFault :
          tracee.fault (raddr + BitVec.ofNat _ off) with
      | some errno =>
          rw [readWord_of_fault hFault]
          exact
            PmemCopy.follows_of_fault buf _ hFault _ _
      | none =>
          rw [readWord_of_none hFault]
          simp only [Memory.addr_add_add]
          have hLength :
              ((tracee.wordAt
                (raddr + BitVec.ofNat _ off)).take
                  arch.wordBytes).length =
                arch.wordBytes := by
            simp [Memory.wordAt]
          have hCopied :
              (memcpy buf off
                ((tracee.wordAt
                  (raddr + BitVec.ofNat _ off)).take
                    arch.wordBytes)).length =
                buf.length := by
            apply length_memcpy
            omega
          exact
            PmemCopy.follows_after (by omega)
              (Nat.le_refl _) hFault
              (ih _ _ _ _ (by omega) hRestWords)

/- `pmem_copy` returns and stores what it reads. -/
theorem pmemCopy_follows
    (buf : List Cell)
    (tracee : Memory arch)
    (raddr : arch.Word)
    (len : Nat)
    (hFits : len ≤ buf.length) :
    (pmemCopy buf tracee raddr len).Follows buf 0 0 raddr
      (tracee.reading raddr len) := by
  have hLt := phaseOf_lt raddr
  have hBase : raddr + BitVec.ofNat _ 0 = raddr := by
    simp
  rw [pmemCopy, Memory.reading, tiles]
  by_cases hPhase : phaseOf raddr = 0
  · rw [if_pos hPhase, if_neg (not_not.mpr hPhase)]
    have hWords :=
      copyWords_follows tracee raddr buf 0 0 len
        (by omega) rfl
    rwa [hBase] at hWords
  · rw [if_neg hPhase, if_pos hPhase]
    simp only [clipped_eq_min]
    have hSize :
        min len (arch.wordBytes - phaseOf raddr) ≤
          arch.wordBytes := by
      omega
    have hLen :
        min len (arch.wordBytes - phaseOf raddr) ≤
          len := by
      omega
    generalize min len (arch.wordBytes - phaseOf raddr) =
      size at hSize hLen ⊢
    cases hFault : tracee.fault raddr with
    | some errno =>
        rw [readWord_of_fault hFault]
        rw [← hBase] at hFault
        have hFollows :=
          PmemCopy.follows_of_fault buf 0 hFault size
            (wordTiles arch.wordBytes (len - size))
        rwa [hBase] at hFollows
    | none =>
        rw [readWord_of_none hFault]
        rw [← hBase] at hFault
        have hLength :
            ((tracee.wordAt
              (raddr + BitVec.ofNat _ 0)).take
                size).length = size := by
          simp [Memory.wordAt, hSize]
        have hCopied :
            (memcpy buf 0
              ((tracee.wordAt
                (raddr + BitVec.ofNat _ 0)).take
                  size)).length = buf.length := by
          apply length_memcpy
          omega
        have hRest :=
          copyWords_follows tracee raddr
            (memcpy buf 0
              ((tracee.wordAt
                (raddr + BitVec.ofNat _ 0)).take size))
            (0 + size) (0 + size) (len - size)
            (by omega) rfl
        have hFollows :=
          PmemCopy.follows_after (Nat.zero_le _) hSize
            hFault hRest
        rw [hBase, Nat.zero_add] at hFollows
        exact hFollows

end Errmark
