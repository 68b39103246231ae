import Errmark.Program.Emission
import Errmark.Tracee.Stops

/-
  The output with and without `--copy`.

  Two runs over the same stops, one with a copy and one
  without, take the same turns. Their output is the same as
  long as the whole buffer of each write to fd 2 can be
  read; a shorter reading makes the output with a copy
  longer, for good.

  Key definitions include:
    * `Lockstep`
    * `ReadsWhole`
    * `CopyTransparent`

  Key theorems include:
    * `Lockstep.step`
    * `Lockstep.adds`
    * `Lockstep.run`
    * `copy_transparent_iff`
-/

------------------------------------------------------------
-- Two Runs Side By Side
------------------------------------------------------------

namespace Errmark

open Foundation

variable {arch : Arch}
variable {s₁ s₂ s₁' s₂' : State arch}
variable {stop : Stop arch}

/- The states of two runs, the first one with a copy. -/
structure Lockstep (s₁ s₂ : State arch) : Prop where
  toggle : s₁.toggle = s₂.toggle
  copy : s₁.cmd.copyFh = true
  plain : s₂.cmd.copyFh = false

/- A write to fd 2 that is intercepted here is read whole. -/
def ReadsWhole
    (s : State arch)
    (stop : Stop arch) : Prop :=
  ∀ w, s.intercepted stop.turn = some w → w.fd = 2 →
    w.IsWhole stop.memory

/- The outputs agree, and the copy is what went to fd 2. -/
structure Agrees (s₁ s₂ : State arch) : Prop where
  stdoutBytes : s₁.stdoutBytes = s₂.stdoutBytes
  copyBytes :
    s₁.copyBytes =
      s₁.stdoutBytes.filter fun b => b.fd = 2
  isRead : ∀ b ∈ s₁.copyBytes, b.isRead = true

namespace Lockstep

/- Runs in lockstep intercept the same writes. -/
theorem intercepted
    (hLock : Lockstep s₁ s₂)
    (stop : Stop arch) :
    s₁.intercepted stop.turn = s₂.intercepted stop.turn :=
  intercepted_stop_congr hLock.toggle stop

/- They stay in lockstep. -/
theorem step
    (hLock : Lockstep s₁ s₂)
    (hFirst : iteration s₁ stop.turn = .next s₁')
    (hSecond : iteration s₂ stop.turn = .next s₂') :
    Lockstep s₁' s₂' := by
  have hStep₁ := steps_of_iteration hFirst
  have hStep₂ := steps_of_iteration hSecond
  refine ⟨?_, ?_, ?_⟩
  · rw [hStep₁.toggle, hStep₂.toggle, seen_of_next hFirst,
      seen_of_next hSecond, hLock.toggle]
  · rw [hStep₁.sameOptions.copyFh, hLock.copy]
  · rw [hStep₂.sameOptions.copyFh, hLock.plain]

/-
  What one turn adds to the outputs: the same bytes, and in
  the first run some more, when a copied write is not read
  whole. The copy gets the bytes of fd 2.
-/
theorem adds
    (hLock : Lockstep s₁ s₂)
    (hMalloc : stop.malloc.isSome)
    (hFirst : iteration s₁ stop.turn = .next s₁')
    (hSecond : iteration s₂ stop.turn = .next s₂') :
    ∃ added extra,
      s₂'.stdoutBytes = s₂.stdoutBytes ++ added ∧
        s₁'.stdoutBytes =
          s₁.stdoutBytes ++ (added ++ extra) ∧
        s₁'.copyBytes =
          s₁.copyBytes ++
            (added ++ extra).filter (fun b => b.fd = 2) ∧
        (∀ b ∈ added, b.isRead = true) ∧
        (extra = [] ↔ ReadsWhole s₁ stop) := by
  have hStep₁ := steps_of_iteration hFirst
  have hOut₁ := hStep₁.stdoutBytes
  have hOut₂ := (steps_of_iteration hSecond).stdoutBytes
  have hCopy := hStep₁.copyBytes
  rw [← hLock.intercepted stop] at hOut₂
  unfold ReadsWhole
  cases hWrite : s₁.intercepted stop.turn with
  | none =>
      simp only [hWrite] at hOut₁ hOut₂ hCopy
      exact ⟨[], [], hOut₂, hOut₁, hCopy, by simp, by simp⟩
  | some w =>
      have hPlain :
          w.emitted s₂.cmd.copyFh stop.turn =
            w.streamed stop.memory := by
        simp [Write.emitted, Write.IsCopied, hLock.plain,
          Stop.turn]
      have hRead :
          ∀ b ∈ w.streamed stop.memory,
            b.isRead = true :=
        fun b hMem => w.isRead_of_mem_streamed stop.memory hMem
      simp only [hWrite] at hOut₁ hOut₂ hCopy
      rw [hPlain] at hOut₂
      by_cases hFd : w.fd = 2
      · rcases Option.isSome_iff_exists.mp hMalloc with
          ⟨block, hBlock⟩
        have hCopied : w.IsCopied s₁.cmd.copyFh :=
          ⟨hFd, hLock.copy⟩
        have hEmitted :
            w.emitted s₁.cmd.copyFh stop.turn =
              w.copied stop.memory block := by
          rw [Write.emitted, if_pos hCopied]
          simp only [Stop.turn, hBlock]
        have hFilter :
            (w.copied stop.memory block).filter
                (fun b => b.fd = 2) =
              w.copied stop.memory block := by
          rw [List.filter_eq_self]
          intro b hMem
          have hByte :=
            w.fd_of_mem_copied stop.memory block hMem
          simp [hByte, hFd]
        rw [Write.copyEmitted, if_pos hCopied, hEmitted,
          ← hFilter, w.copied_eq] at hCopy
        rw [hEmitted, w.copied_eq] at hOut₁
        refine
          ⟨w.streamed stop.memory,
            w.leftOver stop.memory block, hOut₂, hOut₁,
            hCopy, hRead, ?_⟩
        rw [w.leftOver_eq_nil_iff]
        simp [hFd]
      · have hCopied : ¬ w.IsCopied s₁.cmd.copyFh :=
          fun hBoth => hFd hBoth.1
        have hFilter :
            (w.streamed stop.memory).filter
              (fun b => b.fd = 2) = [] := by
          rw [List.filter_eq_nil_iff]
          intro b hMem
          have hByte := w.fd_of_mem_streamed stop.memory hMem
          simp [hByte, hFd]
        rw [Write.copyEmitted, if_neg hCopied] at hCopy
        rw [Write.emitted, if_neg hCopied] at hOut₁
        refine
          ⟨w.streamed stop.memory, [], hOut₂, ?_, ?_, hRead,
            ?_⟩
        · rw [List.append_nil]
          exact hOut₁
        · rw [List.append_nil, hFilter]
          exact hCopy
        · simp [hFd]

/- One turn of each run keeps them in agreement. -/
theorem agrees
    (hLock : Lockstep s₁ s₂)
    (hAgrees : Agrees s₁ s₂)
    (hMalloc : stop.malloc.isSome)
    (hWhole : ReadsWhole s₁ stop)
    (hFirst : iteration s₁ stop.turn = .next s₁')
    (hSecond : iteration s₂ stop.turn = .next s₂') :
    Agrees s₁' s₂' := by
  rcases hLock.adds hMalloc hFirst hSecond with
    ⟨added, extra, hOut₂, hOut₁, hCopy, hRead, hExtra⟩
  rw [hExtra.mpr hWhole, List.append_nil] at hOut₁ hCopy
  refine ⟨?_, ?_, ?_⟩
  · rw [hOut₁, hOut₂, hAgrees.stdoutBytes]
  · rw [hCopy, hOut₁, List.filter_append, hAgrees.copyBytes]
  · intro b hMem
    rw [hCopy] at hMem
    rcases List.mem_append.mp hMem with hOld | hNew
    · exact hAgrees.isRead b hOld
    · exact hRead b (List.mem_of_mem_filter hNew)

/- One turn never shortens the lead of the first run. -/
theorem length_le
    (hLock : Lockstep s₁ s₂)
    (hMalloc : stop.malloc.isSome)
    (hFirst : iteration s₁ stop.turn = .next s₁')
    (hSecond : iteration s₂ stop.turn = .next s₂') :
    ∃ lead,
      s₁'.stdoutBytes.length + s₂.stdoutBytes.length =
          s₁.stdoutBytes.length + s₂'.stdoutBytes.length +
            lead ∧
        (¬ ReadsWhole s₁ stop → 0 < lead) := by
  rcases hLock.adds hMalloc hFirst hSecond with
    ⟨added, extra, hOut₂, hOut₁, _, _, hExtra⟩
  refine ⟨extra.length, ?_, ?_⟩
  · rw [hOut₁, hOut₂]
    simp only [List.length_append]
    omega
  · intro hNot
    apply List.length_pos_of_ne_nil
    intro hNil
    exact hNot (hExtra.mp hNil)

/-
  Over whole runs: the outputs stay in agreement as long as
  all is read, and the first run leads for good once it is
  not.
-/
theorem run
    {stops : List (Stop arch)}
    (hLock : Lockstep s₁ s₂)
    (hMalloc : ∀ stop ∈ stops, stop.malloc.isSome)
    (hFirst :
      Foundation.run iteration s₁ (stops.map Stop.turn) =
        .next s₁')
    (hSecond :
      Foundation.run iteration s₂ (stops.map Stop.turn) =
        .next s₂') :
    (Everywhere (fun s stop => iteration s (Stop.turn stop))
        ReadsWhole s₁ stops →
      Agrees s₁ s₂ → Agrees s₁' s₂') ∧
    ∃ lead,
      s₁'.stdoutBytes.length + s₂.stdoutBytes.length =
          s₁.stdoutBytes.length + s₂'.stdoutBytes.length +
            lead ∧
        (¬ Everywhere
            (fun s stop => iteration s (Stop.turn stop))
            ReadsWhole s₁ stops → 0 < lead) := by
  induction stops generalizing s₁ s₂ with
  | nil =>
      cases hFirst
      cases hSecond
      refine ⟨fun _ hAgrees => hAgrees, 0, by omega, ?_⟩
      intro hNot
      exact absurd trivial hNot
  | cons stop stops ih =>
      rw [List.map_cons, run_cons,
        Outcome.andThen_eq_next_iff] at hFirst hSecond
      rcases hFirst with ⟨mid₁, hHead₁, hTail₁⟩
      rcases hSecond with ⟨mid₂, hHead₂, hTail₂⟩
      have hRoom : stop.malloc.isSome :=
        hMalloc stop (by simp)
      have hRest :=
        ih (hLock.step hHead₁ hHead₂)
          (fun other hMem =>
            hMalloc other (List.mem_cons_of_mem stop hMem))
          hTail₁ hTail₂
      rcases hRest with ⟨hAgree, lead, hLength, hLead⟩
      rcases hLock.length_le hRoom hHead₁ hHead₂ with
        ⟨first, hFirstLength, hFirstLead⟩
      refine ⟨?_, first + lead, by omega, ?_⟩
      · rintro ⟨hWhole, hAll⟩ hAgrees
        apply hAgree (hAll mid₁ hHead₁)
        exact
          hLock.agrees hAgrees hRoom hWhole hHead₁ hHead₂
      · intro hNot
        by_cases hWhole : ReadsWhole s₁ stop
        · have hLater := hLead (by
            intro hAll
            apply hNot
            refine ⟨hWhole, ?_⟩
            intro other hNext
            have hSame := hHead₁.symm.trans hNext
            cases hSame
            exact hAll)
          omega
        · have hNow := hFirstLead hWhole
          omega

end Lockstep

end Errmark

------------------------------------------------------------
-- Transparency Of The Copy
------------------------------------------------------------

namespace Errmark

open Foundation

variable {arch : Arch}

/-
  The first state, with a copy, and the second one, without,
  have the same output, and the copy holds the bytes of it
  that the program wrote to fd 2, all of them read from the
  program, and no text of errmark itself.
-/
structure CopyTransparent (s₁ s₂ : State arch) : Prop where
  values :
    s₁.stdoutBytes.map OutByte.value =
      s₂.stdoutBytes.map OutByte.value
  copyBytes :
    s₁.copyBytes =
      s₁.stdoutBytes.filter fun b => b.fd = 2
  isRead : ∀ b ∈ s₁.copyBytes, b.isRead = true
  noText : s₁.textTo .copyFh = []

/-
  The copy does not change the output exactly when the whole
  buffer of every write to fd 2 could be read.
-/
theorem copy_transparent_iff
    (setup : Setup arch)
    (stops : List (Stop arch))
    (s₁ s₂ : State arch)
    (hMalloc : ∀ stop ∈ stops, stop.malloc.isSome)
    (hCopy : (setup.withCopy true).Reaches stops s₁)
    (hPlain : (setup.withCopy false).Reaches stops s₂) :
    CopyTransparent s₁ s₂ ↔
      Everywhere (fun s stop => iteration s (Stop.turn stop))
        ReadsWhole (setup.withCopy true).begin stops := by
  rcases hCopy.bytes with ⟨mid₁, hRun₁, hOut₁, hCopied⟩
  rcases hPlain.bytes with ⟨mid₂, hRun₂, hOut₂, _⟩
  have hLock :
      Lockstep (setup.withCopy true).begin
        (setup.withCopy false).begin := ⟨rfl, rfl, rfl⟩
  have hNoBytes :
      ∀ copyFh,
        (setup.withCopy copyFh).begin.stdoutBytes = [] ∧
          (setup.withCopy copyFh).begin.copyBytes = [] := by
    intro copyFh
    unfold Setup.begin startTracing State.stdoutBytes
      State.copyBytes
    dsimp only
    refine ⟨?_, ?_⟩ <;> split <;> rfl
  rcases hLock.run hMalloc hRun₁ hRun₂ with
    ⟨hAgree, lead, hLength, hLead⟩
  rw [(hNoBytes true).1, (hNoBytes false).1] at hLength
  constructor
  · intro hTransparent
    by_contra hNot
    have hPos := hLead hNot
    have hValues := congrArg List.length hTransparent.values
    rw [hOut₁, hOut₂, List.length_map,
      List.length_map] at hValues
    simp only [List.length_nil] at hLength
    omega
  · intro hAll
    have hStart :
        Agrees (setup.withCopy true).begin
          (setup.withCopy false).begin := by
      refine ⟨?_, ?_, ?_⟩
      · rw [(hNoBytes true).1, (hNoBytes false).1]
      · rw [(hNoBytes true).1, (hNoBytes true).2]
        rfl
      · rw [(hNoBytes true).2]
        intro b hMem
        cases hMem
    have hAgrees := hAgree hAll hStart
    refine ⟨?_, ?_, ?_, hCopy.copyText⟩
    · rw [hOut₁, hOut₂, hAgrees.stdoutBytes]
    · rw [hCopied, hOut₁, hAgrees.copyBytes]
    · rw [hCopied]
      exact hAgrees.isRead

/- A program that reports an error from unreadable memory. -/
def sampleFaultStops
    (fault : Option Errno) : List (Stop .x86_64) :=
  [{ sampleExec with malloc := some fun _ => 0 },
    sampleWrite .entry 2 3 (-38) fault]

/- With a copy 3 bytes come out that were never read. -/
theorem sample_copy_not_transparent :
    ∃ s₁ s₂,
      ((sampleSetup false).withCopy true).Reaches
          (sampleFaultStops (some Errno.EIO)) s₁ ∧
        ((sampleSetup false).withCopy false).Reaches
          (sampleFaultStops (some Errno.EIO)) s₂ ∧
        ¬ CopyTransparent s₁ s₂ := by
  refine
    ⟨_, _,
      ⟨_, Outcome.eq_next_of_goesOn (by decide +kernel),
        Or.inl rfl⟩,
      ⟨_, Outcome.eq_next_of_goesOn (by decide +kernel),
        Or.inl rfl⟩, ?_⟩
  intro hTransparent
  have hValues := hTransparent.values
  revert hValues
  decide +kernel

/- The same program, with readable memory. -/
theorem sample_copy_transparent_iff :
    CopyTransparent
        (run iteration ((sampleSetup false).withCopy
          true).begin ((sampleFaultStops none).map
            Stop.turn)).final
        (run iteration ((sampleSetup false).withCopy
          false).begin ((sampleFaultStops none).map
            Stop.turn)).final ↔
      Everywhere (fun s stop => iteration s (Stop.turn stop))
        ReadsWhole ((sampleSetup false).withCopy true).begin
        (sampleFaultStops none) :=
  copy_transparent_iff (sampleSetup false)
    (sampleFaultStops none) _ _ (by decide +kernel)
    ⟨_, Outcome.eq_next_of_goesOn (by decide +kernel),
      Or.inl rfl⟩
    ⟨_, Outcome.eq_next_of_goesOn (by decide +kernel),
      Or.inl rfl⟩

end Errmark
