import Mathlib.Algebra.Ring.Nat
import Mathlib.Data.List.Basic

/-
  Reading a region of memory in words.

  A region of `len` units that starts `phase` units into a
  word of `W` units is covered by tiles: the rest of the
  first word, whole words, and a last part of a word. A
  reader requests the word at the offset of each tile in
  turn and stops at the first request that fails.

  Key definitions include:
    * `wordTiles`
    * `tiles`
    * `tileOffsets`
    * `Reading`
    * `readTiles`
    * `requested`

  Key theorems include:
    * `sum_tiles`
    * `offset_of_mem_tiles`
    * `readTiles_bytes`
    * `length_readTiles_le`
    * `readTiles_failure_eq_none_iff`
    * `readTiles_failed`
    * `length_readTiles_eq_iff`
-/

------------------------------------------------------------
-- Tiles
------------------------------------------------------------

namespace Foundation

/- Tiles of an aligned region: whole words, then the rest. -/
def wordTiles (W len : Nat) : List Nat :=
  List.replicate (len / W) W ++
    if len % W = 0 then [] else [len % W]

/- Tiles of a region that starts `phase` into a word. -/
def tiles (W phase len : Nat) : List Nat :=
  if phase = 0 then
    wordTiles W len
  else
    min len (W - phase) ::
      wordTiles W (len - min len (W - phase))

/- A region of a word or more begins with a whole word. -/
theorem wordTiles_of_le
    {W len : Nat}
    (hPos : 0 < W)
    (hLe : W ≤ len) :
    wordTiles W len = W :: wordTiles W (len - W) := by
  rw [wordTiles, wordTiles,
    Nat.div_eq_sub_div hPos hLe,
    Nat.mod_eq_sub_mod hLe, List.replicate_succ,
    List.cons_append]

/- A region of less than a word is one runt, or nothing. -/
theorem wordTiles_of_lt
    {W len : Nat}
    (hLt : len < W) :
    wordTiles W len = if len = 0 then [] else [len] := by
  rw [wordTiles, Nat.div_eq_of_lt hLt,
    Nat.mod_eq_of_lt hLt, List.replicate_zero,
    List.nil_append]

/- The words and the runt cover the length. -/
theorem sum_wordTiles (W len : Nat) :
    (wordTiles W len).sum = len := by
  have hDivMod : W * (len / W) + len % W = len :=
    Nat.div_add_mod len W
  rw [wordTiles, List.sum_append, List.sum_replicate_nat]
  split
  · rw [List.sum_nil, Nat.mul_comm]
    omega
  · rw [List.sum_singleton, Nat.mul_comm]
    omega

/- The tiles cover the region exactly. -/
theorem sum_tiles (W phase len : Nat) :
    (tiles W phase len).sum = len := by
  rw [tiles]
  split
  · exact sum_wordTiles W len
  · rw [List.sum_cons, sum_wordTiles]
    omega

/- No tile is empty. -/
theorem pos_of_mem_wordTiles
    {W len size : Nat}
    (hMem : size ∈ wordTiles W len) :
    0 < size := by
  rw [wordTiles, List.mem_append] at hMem
  rcases hMem with hWord | hRunt
  · have hDiv : len / W ≠ 0 := by
      intro hZero
      simp [hZero] at hWord
    have hSize := List.eq_of_mem_replicate hWord
    rcases Nat.eq_zero_or_pos W with hW | hW
    · simp [hW] at hDiv
    · rwa [hSize]
  · split at hRunt
    · simp at hRunt
    · simp only [List.mem_singleton] at hRunt
      omega

/- Only an empty region can have an empty tile. -/
theorem pos_of_mem_tiles
    {W phase len size : Nat}
    (hPhase : phase < W)
    (hLen : 0 < len)
    (hMem : size ∈ tiles W phase len) :
    0 < size := by
  rw [tiles] at hMem
  split at hMem
  · exact pos_of_mem_wordTiles hMem
  · rcases List.mem_cons.mp hMem with hHead | hTail
    · omega
    · exact pos_of_mem_wordTiles hTail

end Foundation

------------------------------------------------------------
-- Reading Tile By Tile
------------------------------------------------------------

namespace Foundation

variable {β ε : Type}

/- The offsets at which the tiles are requested. -/
def tileOffsets : Nat → List Nat → List Nat
| _, [] => []
| off, size :: sizes =>
    off :: tileOffsets (off + size) sizes

/- The words of an aligned region are requested in turn. -/
theorem offset_of_mem_wordTiles
    {W off len o : Nat}
    (hPos : 0 < W)
    (hMem : o ∈ tileOffsets off (wordTiles W len)) :
    ∃ k, o = off + W * k ∧ W * k < len := by
  induction len using Nat.strongRecOn generalizing off with
  | ind len ih =>
      rcases Nat.lt_or_ge len W with hLt | hLe
      · rw [wordTiles_of_lt hLt] at hMem
        split at hMem
        · simp [tileOffsets] at hMem
        · next hLen =>
            simp only [tileOffsets,
              List.mem_singleton] at hMem
            exact ⟨0, by rw [hMem]; rfl,
              Nat.pos_of_ne_zero hLen⟩
      · rw [wordTiles_of_le hPos hLe, tileOffsets] at hMem
        rcases List.mem_cons.mp hMem with hHead | hTail
        · exact ⟨0, by rw [hHead]; rfl, by omega⟩
        · rcases ih (len - W) (by omega) hTail with
            ⟨k, hEq, hLtRest⟩
          refine ⟨k + 1, ?_, ?_⟩
          · rw [hEq, Nat.mul_succ]
            omega
          · rw [Nat.mul_succ]
            omega

/-
  All requests but the one for an unaligned start are at
  the beginning of a word that holds a unit of the region.
-/
theorem offset_of_mem_tiles
    {W phase len o : Nat}
    (hPhase : phase < W)
    (hMem : o ∈ tileOffsets 0 (tiles W phase len)) :
    (phase ≠ 0 ∧ o = 0) ∨
      ((phase + o) % W = 0 ∧ o < len) := by
  have hPos : 0 < W := Nat.zero_lt_of_lt hPhase
  rw [tiles] at hMem
  split at hMem
  · next hZero =>
      right
      rcases offset_of_mem_wordTiles hPos hMem with
        ⟨k, hEq, hLt⟩
      rw [hEq, hZero, Nat.zero_add, Nat.zero_add,
        Nat.mul_mod_right]
      exact ⟨rfl, hLt⟩
  · next hUnaligned =>
      rw [tileOffsets] at hMem
      rcases List.mem_cons.mp hMem with hHead | hTail
      · exact Or.inl ⟨hUnaligned, hHead⟩
      · right
        rcases offset_of_mem_wordTiles hPos hTail with
          ⟨k, hEq, hLt⟩
        have hSize : min len (W - phase) = W - phase := by
          omega
        rw [hSize] at hEq hLt
        have hWord : phase + o = W + W * k := by
          omega
        rw [hWord, Nat.add_mul_mod_self_left, Nat.mod_self]
        exact ⟨rfl, by omega⟩

/- What a reader requested, got, and failed on. -/
structure Reading (β ε : Type) where
  requests : List Nat
  bytes : List β
  failure : Option ε

/- Request one tile after the other until one fails. -/
def readTiles
    (content : Nat → β)
    (fault : Nat → Option ε) :
    Nat → List Nat → Reading β ε
| _, [] => ⟨[], [], none⟩
| off, size :: sizes =>
    match fault off with
    | some e => ⟨[off], [], some e⟩
    | none =>
        let rest :=
          readTiles content fault (off + size) sizes
        ⟨off :: rest.requests,
          (List.range' off size).map content ++ rest.bytes,
          rest.failure⟩

/- Nothing is requested for no tiles. -/
@[simp] theorem readTiles_nil
    (content : Nat → β)
    (fault : Nat → Option ε)
    (off : Nat) :
    readTiles content fault off [] = ⟨[], [], none⟩ := rfl

/- A request that fails is the last one. -/
theorem readTiles_cons_of_fault
    {content : Nat → β}
    {fault : Nat → Option ε}
    {off : Nat}
    {e : ε}
    (hFault : fault off = some e)
    (size : Nat)
    (sizes : List Nat) :
    readTiles content fault off (size :: sizes) =
      ⟨[off], [], some e⟩ := by
  simp [readTiles, hFault]

/- After a request that succeeds comes the next one. -/
theorem readTiles_cons_of_none
    {content : Nat → β}
    {fault : Nat → Option ε}
    {off : Nat}
    (hFault : fault off = none)
    (size : Nat)
    (sizes : List Nat) :
    readTiles content fault off (size :: sizes) =
      ⟨off ::
          (readTiles content fault (off + size)
            sizes).requests,
        (List.range' off size).map content ++
          (readTiles content fault (off + size)
            sizes).bytes,
        (readTiles content fault (off + size)
          sizes).failure⟩ := by
  simp [readTiles, hFault]

/- The items requested in turn, up to the first that fails. -/
def requested
    {α : Type}
    (fault : α → Option ε) : List α → List α
| [] => []
| x :: xs =>
    x :: if (fault x).isSome then [] else requested fault xs

/- The requests of renamed items are renamed requests. -/
theorem map_requested
    {α α' : Type}
    (rename : α → α')
    (fault : α' → Option ε)
    (xs : List α) :
    (requested (fun x => fault (rename x)) xs).map rename =
      requested fault (xs.map rename) := by
  induction xs with
  | nil => rfl
  | cons x xs ih =>
      simp only [requested, List.map_cons]
      split
      · rfl
      · rw [ih]

/- A reader requests each tile until one fails. -/
theorem readTiles_requests
    (content : Nat → β)
    (fault : Nat → Option ε)
    (off : Nat)
    (sizes : List Nat) :
    (readTiles content fault off sizes).requests =
      requested fault (tileOffsets off sizes) := by
  induction sizes generalizing off with
  | nil => rfl
  | cons size sizes ih =>
      cases hFault : fault off with
      | some e =>
          rw [readTiles_cons_of_fault hFault]
          simp [tileOffsets, requested, hFault]
      | none =>
          rw [readTiles_cons_of_none hFault]
          simp [tileOffsets, requested, hFault,
            ih (off + size)]

/-
  The bytes read are the content from the start of the
  region on: tiles that follow each other leave no gap.
-/
theorem readTiles_bytes
    (content : Nat → β)
    (fault : Nat → Option ε)
    (off : Nat)
    (sizes : List Nat) :
    (readTiles content fault off sizes).bytes =
      (List.range' off
        (readTiles content fault off
          sizes).bytes.length).map content := by
  induction sizes generalizing off with
  | nil => rfl
  | cons size sizes ih =>
      cases hFault : fault off with
      | some e =>
          rw [readTiles_cons_of_fault hFault]
          rfl
      | none =>
          rw [readTiles_cons_of_none hFault]
          simp only [List.length_append, List.length_map,
            List.length_range']
          rw [← List.range'_append_1, List.map_append,
            ← ih (off + size)]

/- No reading is longer than its tiles. -/
theorem length_readTiles_le
    (content : Nat → β)
    (fault : Nat → Option ε)
    (off : Nat)
    (sizes : List Nat) :
    (readTiles content fault off sizes).bytes.length ≤
      sizes.sum := by
  induction sizes generalizing off with
  | nil => simp
  | cons size sizes ih =>
      cases hFault : fault off with
      | some e =>
          simp [readTiles_cons_of_fault hFault]
      | none =>
          have hRest := ih (off + size)
          simp only [readTiles_cons_of_none hFault,
            List.length_append, List.length_map,
            List.length_range', List.sum_cons]
          omega

/- A reading is complete when no tile it requests fails. -/
theorem readTiles_failure_eq_none_iff
    (content : Nat → β)
    (fault : Nat → Option ε)
    (off : Nat)
    (sizes : List Nat) :
    (readTiles content fault off sizes).failure = none ↔
      ∀ o ∈ tileOffsets off sizes, fault o = none := by
  induction sizes generalizing off with
  | nil => simp [tileOffsets]
  | cons size sizes ih =>
      cases hFault : fault off with
      | some e =>
          simp [readTiles_cons_of_fault hFault,
            tileOffsets, hFault]
      | none =>
          simp [readTiles_cons_of_none hFault,
            tileOffsets, hFault, ih (off + size)]

/- A reading that failed did so right after its bytes. -/
theorem readTiles_failed
    {content : Nat → β}
    {fault : Nat → Option ε}
    {off : Nat}
    {sizes : List Nat}
    {e : ε}
    (hFailed :
      (readTiles content fault off sizes).failure =
        some e) :
    fault (off +
        (readTiles content fault off
          sizes).bytes.length) = some e ∧
      off +
          (readTiles content fault off
            sizes).bytes.length ∈
        (readTiles content fault off sizes).requests := by
  induction sizes generalizing off with
  | nil => simp at hFailed
  | cons size sizes ih =>
      cases hFault : fault off with
      | some cause =>
          rw [readTiles_cons_of_fault hFault] at hFailed ⊢
          simp only [Option.some.injEq] at hFailed
          rw [← hFailed]
          exact ⟨hFault, List.mem_singleton_self off⟩
      | none =>
          rw [readTiles_cons_of_none hFault] at hFailed ⊢
          rcases ih hFailed with ⟨hLast, hMem⟩
          simp only [List.length_append, List.length_map,
            List.length_range', ← Nat.add_assoc]
          exact ⟨hLast, List.mem_cons_of_mem off hMem⟩

/- A reading that did not fail got every tile. -/
theorem length_readTiles_of_complete
    {content : Nat → β}
    {fault : Nat → Option ε}
    {off : Nat}
    {sizes : List Nat}
    (hComplete :
      (readTiles content fault off sizes).failure =
        none) :
    (readTiles content fault off sizes).bytes.length =
      sizes.sum := by
  induction sizes generalizing off with
  | nil => rfl
  | cons size sizes ih =>
      cases hFault : fault off with
      | some cause =>
          rw [readTiles_cons_of_fault hFault] at hComplete
          cases hComplete
      | none =>
          rw [readTiles_cons_of_none hFault] at hComplete ⊢
          simp only [List.length_append, List.length_map,
            List.length_range', List.sum_cons, ih hComplete]

/-
  With tiles that are not empty, a reading has the length
  of its region exactly when nothing failed.
-/
theorem length_readTiles_eq_iff
    (content : Nat → β)
    (fault : Nat → Option ε)
    (off : Nat)
    {sizes : List Nat}
    (hPos : ∀ size ∈ sizes, 0 < size) :
    (readTiles content fault off sizes).bytes.length =
        sizes.sum ↔
      (readTiles content fault off sizes).failure =
        none := by
  induction sizes generalizing off with
  | nil => simp
  | cons size sizes ih =>
      have hSize : 0 < size := hPos size (by simp)
      have hTail : ∀ s ∈ sizes, 0 < s :=
        fun s hs => hPos s (by simp [hs])
      cases hFault : fault off with
      | some e =>
          simp only [readTiles_cons_of_fault hFault,
            List.length_nil, List.sum_cons,
            reduceCtorEq, iff_false]
          omega
      | none =>
          simp only [readTiles_cons_of_none hFault,
            List.length_append, List.length_map,
            List.length_range', List.sum_cons]
          rw [← ih (off + size) hTail]
          omega

/- A region is not read at all when its first tile fails. -/
theorem readTiles_tiles_bytes_eq_nil_iff
    (content : Nat → β)
    (fault : Nat → Option ε)
    (off : Nat)
    {W phase len : Nat}
    (hPhase : phase < W)
    (hLen : 0 < len) :
    (readTiles content fault off
        (tiles W phase len)).bytes = [] ↔
      fault off ≠ none := by
  have hPos : ∀ size ∈ tiles W phase len, 0 < size :=
    fun _ hMem => pos_of_mem_tiles hPhase hLen hMem
  have hSum := sum_tiles W phase len
  cases hTiles : tiles W phase len with
  | nil =>
      rw [hTiles, List.sum_nil] at hSum
      omega
  | cons size sizes =>
      have hSize : 0 < size := hPos size (by simp [hTiles])
      cases hFault : fault off with
      | some e => simp [readTiles_cons_of_fault hFault]
      | none =>
          simp [readTiles_cons_of_none hFault,
            Nat.pos_iff_ne_zero.mp hSize]

/- The region that tiles cover is read whole or in part. -/
theorem length_readTiles_tiles_eq_iff
    (content : Nat → β)
    (fault : Nat → Option ε)
    (off : Nat)
    {W phase len : Nat}
    (hPhase : phase < W)
    (hLen : 0 < len) :
    (readTiles content fault off
        (tiles W phase len)).bytes.length = len ↔
      (readTiles content fault off
        (tiles W phase len)).failure = none := by
  have hPos : ∀ size ∈ tiles W phase len, 0 < size :=
    fun _ hMem => pos_of_mem_tiles hPhase hLen hMem
  have hIff :=
    length_readTiles_eq_iff content fault off hPos
  rwa [sum_tiles] at hIff

end Foundation
