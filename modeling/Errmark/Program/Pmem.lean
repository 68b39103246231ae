import Errmark.Machine.Memory

/-
  `pmem-fwrite.c` and `pmem-copy.c`: moving a region of the
  traced program's memory to a stream or to a buffer.

  Both functions have the same three phases: the unaligned
  start, whole words, and a runt word. Lengths and counts
  are at most a `size_t`, so they are kept as `Nat`; an
  address wraps around as a machine word does.

  Key definitions include:
    * `readWord`
    * `pmemFwrite`
    * `pmemCopy`
-/

------------------------------------------------------------
-- Shared Pieces
------------------------------------------------------------

namespace Errmark

variable {arch : Arch}

/- A count returned as `ssize_t`. -/
def ssize (arch : Arch) (count : Nat) : Int :=
  (BitVec.ofNat (8 * arch.wordBytes) count).toInt

/- `(uintptr_t)raddr & (sizeof (data) - 1)` -/
def phaseOf (raddr : arch.Word) : Nat :=
  (raddr &&& BitVec.ofNat _ (arch.wordBytes - 1)).toNat

/- `data.iword == -1` -/
def isMinusOne (data : List UInt8) : Bool :=
  data.all fun byte => byte = 0xff

/-
  The request made in each phase: the bytes of the union,
  or what the function returns when the request failed.
-/
def readWord
    (tracee : Memory arch)
    (raddr : arch.Word)
    (bytesRead : Nat) : Except Int (List UInt8) :=
  let (data, errno) := tracee.peekData raddr
  if isMinusOne data ∧ errno ≠ 0 then
    if bytesRead ≠ 0 ∧ errno = Errno.EIO.number then
      .error (ssize arch bytesRead)
    else
      .error (-1)
  else
    .ok data

end Errmark

------------------------------------------------------------
-- pmem_fwrite
------------------------------------------------------------

namespace Errmark

variable {arch : Arch}

/- The calls `pmem_fwrite` makes. -/
inductive PmemCall (arch : Arch) where
  | peekData (addr : arch.Word)
  | fwrite (bytes : List UInt8)
  | fflush

/- What a call leaves in the buffer of its stream. -/
def PmemCall.hold
    (held : List UInt8) : PmemCall arch → List UInt8
| .peekData _ => held
| .fwrite bytes => held ++ bytes
| .fflush => []

/- The returned value and the calls made on the way. -/
structure PmemFwrite (arch : Arch) where
  value : Int
  calls : List (PmemCall arch)

namespace PmemFwrite

/- Put calls in front of those of the rest of the code. -/
def after
    (calls : List (PmemCall arch))
    (rest : PmemFwrite arch) : PmemFwrite arch :=
  { rest with calls := calls ++ rest.calls }

/- The addresses `pmem_fwrite` requested. -/
def requests (w : PmemFwrite arch) : List arch.Word :=
  w.calls.filterMap fun
    | .peekData addr => some addr
    | _ => none

/- The bytes `pmem_fwrite` handed to its stream. -/
def written (w : PmemFwrite arch) : List UInt8 :=
  w.calls.flatMap fun
    | .fwrite bytes => bytes
    | _ => []

/- What is still held in the buffer of the stream. -/
def held
    (w : PmemFwrite arch)
    (buf : List UInt8) : List UInt8 :=
  w.calls.foldl PmemCall.hold buf

end PmemFwrite

/- Any runt word at the end, and the final `fflush`. -/
def fwriteRunt
    (tracee : Memory arch)
    (raddr : arch.Word)
    (len bytesRead : Nat) : PmemFwrite arch :=
  if len > 0 then
    match readWord tracee raddr bytesRead with
    | .error value => ⟨value, [.peekData raddr]⟩
    | .ok data =>
        ⟨ssize arch (bytesRead + len),
          [.peekData raddr, .fwrite (data.take len),
            .fflush]⟩
  else
    ⟨ssize arch bytesRead, [.fflush]⟩

/-
  `while (len >= sizeof (data))`. The first argument counts
  the whole words in `len`, so the loop has ended when it
  runs out.
-/
def fwriteWords
    (tracee : Memory arch) :
    Nat → arch.Word → Nat → Nat → PmemFwrite arch
| 0, raddr, len, bytesRead =>
    fwriteRunt tracee raddr len bytesRead
| words + 1, raddr, len, bytesRead =>
    if len ≥ arch.wordBytes then
      match readWord tracee raddr bytesRead with
      | .error value => ⟨value, [.peekData raddr]⟩
      | .ok data =>
          .after
            [.peekData raddr,
              .fwrite (data.take arch.wordBytes)]
            (fwriteWords tracee words
              (raddr + BitVec.ofNat _ arch.wordBytes)
              (len - arch.wordBytes)
              (bytesRead + arch.wordBytes))
    else
      fwriteRunt tracee raddr len bytesRead

/- `pmem_fwrite` -/
def pmemFwrite
    (tracee : Memory arch)
    (raddr : arch.Word)
    (len : Nat) : PmemFwrite arch :=
  let phase := phaseOf raddr
  if phase ≠ 0 then
    let remsz := arch.wordBytes - phase
    let sz := if len > remsz then remsz else len
    match readWord tracee raddr 0 with
    | .error value => ⟨value, [.peekData raddr]⟩
    | .ok data =>
        .after [.peekData raddr, .fwrite (data.take sz)]
          (fwriteWords tracee
            ((len - sz) / arch.wordBytes)
            (raddr + BitVec.ofNat _ sz) (len - sz) sz)
  else
    fwriteWords tracee (len / arch.wordBytes) raddr len 0

end Errmark

------------------------------------------------------------
-- pmem_copy
------------------------------------------------------------

namespace Errmark

variable {arch : Arch}

/-
  A byte of a buffer from `malloc`: either what the
  allocation left there, or stored since by `memcpy`.
-/
inductive Cell where
  | unset (value : UInt8)
  | stored (value : UInt8)
  deriving DecidableEq, Repr

namespace Cell

/- The byte itself. -/
def value : Cell → UInt8
| .unset value => value
| .stored value => value

/- Whether the byte was stored by `memcpy`. -/
def isStored : Cell → Bool
| .unset _ => false
| .stored _ => true

end Cell

/- `memcpy` of `src` to the buffer at an offset. -/
def memcpy
    (buf : List Cell)
    (off : Nat)
    (src : List UInt8) : List Cell :=
  buf.take off ++ src.map .stored ++
    buf.drop (off + src.length)

/- The returned value, the requests, and the buffer. -/
structure PmemCopy (arch : Arch) where
  value : Int
  requests : List arch.Word
  buf : List Cell

namespace PmemCopy

/- Put a request in front of those of the rest. -/
def after
    (raddr : arch.Word)
    (rest : PmemCopy arch) : PmemCopy arch :=
  { rest with requests := raddr :: rest.requests }

end PmemCopy

/- Any runt word at the end; `off` is how far `buf` moved. -/
def copyRunt
    (buf : List Cell)
    (off : Nat)
    (tracee : Memory arch)
    (raddr : arch.Word)
    (len bytesRead : Nat) : PmemCopy arch :=
  if len > 0 then
    match readWord tracee raddr bytesRead with
    | .error value => ⟨value, [raddr], buf⟩
    | .ok data =>
        ⟨ssize arch (bytesRead + len), [raddr],
          memcpy buf off (data.take len)⟩
  else
    ⟨ssize arch bytesRead, [], buf⟩

/- `while (len >= sizeof (data))`, as in `fwriteWords`. -/
def copyWords
    (tracee : Memory arch) :
    Nat → List Cell → Nat → arch.Word → Nat → Nat →
      PmemCopy arch
| 0, buf, off, raddr, len, bytesRead =>
    copyRunt buf off tracee raddr len bytesRead
| words + 1, buf, off, raddr, len, bytesRead =>
    if len ≥ arch.wordBytes then
      match readWord tracee raddr bytesRead with
      | .error value => ⟨value, [raddr], buf⟩
      | .ok data =>
          .after raddr
            (copyWords tracee words
              (memcpy buf off (data.take arch.wordBytes))
              (off + arch.wordBytes)
              (raddr + BitVec.ofNat _ arch.wordBytes)
              (len - arch.wordBytes)
              (bytesRead + arch.wordBytes))
    else
      copyRunt buf off tracee raddr len bytesRead

/- `pmem_copy` -/
def pmemCopy
    (buf : List Cell)
    (tracee : Memory arch)
    (raddr : arch.Word)
    (len : Nat) : PmemCopy arch :=
  let phase := phaseOf raddr
  if phase ≠ 0 then
    let remsz := arch.wordBytes - phase
    let sz := if len > remsz then remsz else len
    match readWord tracee raddr 0 with
    | .error value => ⟨value, [raddr], buf⟩
    | .ok data =>
        .after raddr
          (copyWords tracee
            ((len - sz) / arch.wordBytes)
            (memcpy buf 0 (data.take sz)) sz
            (raddr + BitVec.ofNat _ sz) (len - sz) sz)
  else
    copyWords tracee (len / arch.wordBytes) buf 0 raddr
      len 0

end Errmark
