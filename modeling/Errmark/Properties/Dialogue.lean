import Errmark.Program.Halting

/-
  The requests errmark makes, as a dialogue.

  Between two reports of `wait` there is one round: the
  registers are read, perhaps written back, and the child is
  resumed. The registers of the stop and the toggle decide
  which round it is. Memory is read only in a round that has
  just told the kernel to write nothing. A run is a list of
  rounds; one that ends may break off within a round.

  Key definitions include:
    * `Write.peeks`
    * `State.round`
    * `State.rounds`

  Key theorems include:
    * `Steps.round`
    * `broken_off_of_halts`
    * `errmark_dialogue`
-/

------------------------------------------------------------
-- Rounds
------------------------------------------------------------

namespace Errmark

open Foundation

variable {arch : Arch}

/-
  The requests for the buffer of a write: its words in turn,
  up to the first one that cannot be read.
-/
def Write.peeks
    (w : Write arch)
    (memory : Memory arch) : List (Request arch × Reply) :=
  peekRequests memory
    (memory.requestedWords w.addr w.len.toNat)

namespace State

/- The round of a stop, the answers included. -/
def round
    (s : State arch)
    (t : Turn arch) : List (Request arch × Reply) :=
  match s.seen t with
  | none =>
      -- The loop does not get past its first request.
      [(.getRegs, t.getRegs)]
  | some regs =>
      (.getRegs, t.getRegs) ::
        ((if ¬ regs.ShowsWrite then
          []
        else if s.toggle = 0 then
          if regs.write.Watched then
            (.setRegs (regs.set arch.regArg3 0),
                t.setRegs) ::
              regs.write.peeks t.memory
          else
            []
        else if s.wfd = 1 ∨ s.wfd = 2 then
          [(.setRegs (regs.set arch.regRetn s.wlen),
            t.setRegs)]
        else
          [(.setRegs regs, t.setRegs)]) ++
        [(.syscall 0, t.resume)])

/- The rounds of the turns a run goes on from, in order. -/
def rounds
    (s : State arch) :
    List (Turn arch) → List (List (Request arch × Reply))
| [] => []
| t :: turns =>
    match iteration s t with
    | .next s' => s.round t :: s'.rounds turns
    | _ => []

end State

/- `pmem_fwrite` asks for the words of its region. -/
theorem pmemFwrite_requests
    (memory : Memory arch)
    (raddr : arch.Word)
    (len : Nat) :
    (pmemFwrite memory raddr len).requests =
      memory.requestedWords raddr len := by
  rw [(pmemFwrite_follows memory raddr len).requests,
    Memory.reading_requests]

/- `pmem_copy` asks for the same words. -/
theorem pmemCopy_requests
    (block : Nat → UInt8)
    (memory : Memory arch)
    (raddr : arch.Word)
    (len : Nat) :
    (pmemCopy (freshBuffer block len) memory raddr
        len).requests =
      memory.requestedWords raddr len := by
  have hFits : len ≤ (freshBuffer block len).length := by
    simp [freshBuffer]
  have hFollows :=
    pmemCopy_follows (freshBuffer block len) memory raddr
      len hFits
  rw [hFollows.requests, Memory.reading_requests]

end Errmark

------------------------------------------------------------
-- The Round Of An Iteration
------------------------------------------------------------

namespace Errmark

open Foundation

variable {arch : Arch}

/- An iteration that goes on makes the round of its stop. -/
theorem Steps.round
    {s s' : State arch}
    {t : Turn arch}
    (hNullify : s.cmd.nullify = true)
    (hStep : Steps s t s') :
    s'.requests = s.requests ++ s.round t := by
  cases hStep with
  | idle regs hSeen hCall =>
      simp [State.round, hSeen, hCall, resumed]
  | skipped regs hSeen hCall hToggle hFd =>
      simp [State.round, hSeen, hCall, hToggle, hFd,
        resumed, noteDone]
  | streamed regs hSeen hCall hToggle hFd hCopy =>
      have hWrite := entered_write hSeen
      simp [State.round, hSeen, hCall, hToggle, hFd,
        resumed, noteDone, streamWrite, Write.peeks,
        pmemFwrite_requests, entered_regs hSeen, hNullify,
        hWrite]
  | copied regs hSeen hCall hToggle hFd hCopy block hBlock =>
      have hWrite := entered_write hSeen
      simp [State.round, hSeen, hCall, hToggle, hFd,
        resumed, noteDone, copyWrite, Write.peeks,
        pmemCopy_requests, entered_regs hSeen, hNullify,
        hWrite]
  | left regs hSeen hCall hToggle =>
      by_cases hFd : s.wfd = 1 ∨ s.wfd = 2 <;>
        simp [State.round, hSeen, hCall, hToggle, hFd,
          resumed, noteDone, noteSysWrite,
          fetched_regs hSeen, hNullify]

/- An iteration goes on from registers only. -/
theorem Steps.seen_eq_some
    {s s' : State arch}
    {t : Turn arch}
    (hStep : Steps s t s') :
    ∃ regs, s.seen t = some regs := by
  cases hStep with
  | idle regs hSeen hCall => exact ⟨regs, hSeen⟩
  | skipped regs hSeen hCall hToggle hFd =>
      exact ⟨regs, hSeen⟩
  | streamed regs hSeen hCall hToggle hFd hCopy =>
      exact ⟨regs, hSeen⟩
  | copied regs hSeen hCall hToggle hFd hCopy block hBlock =>
      exact ⟨regs, hSeen⟩
  | left regs hSeen hCall hToggle => exact ⟨regs, hSeen⟩

/- The round of a stop does not depend on the last answer. -/
theorem State.round_resumable
    {s : State arch}
    {t : Turn arch}
    {regs : Regs arch}
    (hSeen : s.seen t = some regs) :
    ∃ init,
      s.round t = init ++ [(.syscall 0, t.resume)] ∧
        s.round t.resumable =
          init ++ [(.syscall 0, .ok)] := by
  have hSame : s.seen t.resumable = some regs := hSeen
  unfold State.round
  rw [hSeen, hSame]
  simp only [← List.cons_append]
  exact ⟨_, rfl, rfl⟩

/- The requests up to an abort. -/
theorem requests_aborted
    (s : State arch)
    (request : Request arch)
    (errno : Errno) :
    (aborted s request errno).requests =
      s.requests ++ [(request, .failed errno)] := by
  simp [aborted]

/-
  An iteration that halts has made the beginning of the round
  of its stop, and at least one request of it.
-/
theorem broken_off_of_halts
    {s s' : State arch}
    {t : Turn arch}
    {cause : Halt}
    (hNullify : s.cmd.nullify = true)
    (hHalts : Halts s t cause s') :
    ∃ rest, rest <+: s.round t ∧ rest ≠ [] ∧
      s'.requests = s.requests ++ rest := by
  cases hHalts with
  | unread errno hEnds hReply hErrno =>
      have hSeen : s.seen t = none := by
        simp [State.seen, hEnds, hReply, Reply.isGone,
          hErrno]
      refine
        ⟨[(.getRegs, .failed errno)], ?_, by simp,
          requests_aborted _ _ _⟩
      simp [State.round, hSeen, hReply]
  | unarmed w errno hWrite hReply hErrno =>
      rcases State.intercepted_eq_some_iff.mp hWrite with
        ⟨regs, hSeen, hCall, hToggle, hFd, _⟩
      refine
        ⟨[(.getRegs, t.getRegs),
            (.setRegs (regs.set arch.regArg3 0),
              .failed errno)], ?_, by simp, ?_⟩
      · simp [State.round, hSeen, hCall, hToggle, hFd,
          hReply]
      · rw [requests_aborted]
        simp [marked, nullifyWrite_eq, beforeWrite_eq,
          openMarks_eq, entered_regs hSeen, hNullify]
  | outOfMemory w hWrite hCopy hSetRegs hBlock =>
      rcases State.intercepted_eq_some_iff.mp hWrite with
        ⟨regs, hSeen, hCall, hToggle, hFd, _⟩
      refine
        ⟨[(.getRegs, t.getRegs),
            (.setRegs (regs.set arch.regArg3 0),
              t.setRegs)], ?_, by simp, ?_⟩
      · simp [State.round, hSeen, hCall, hToggle, hFd]
      · simp [outOfMemory, entered_regs hSeen, hNullify]
  | unfaked regs errno hSeen hCall hToggle hReply hErrno =>
      by_cases hFd : s.wfd = 1 ∨ s.wfd = 2
      · refine
          ⟨[(.getRegs, t.getRegs),
              (.setRegs (regs.set arch.regRetn s.wlen),
                .failed errno)], ?_, by simp, ?_⟩
        · simp [State.round, hSeen, hCall, hToggle, hFd,
            hReply]
        · rw [requests_aborted]
          simp [fakeReturn_eq, noteSysWrite,
            fetched_regs hSeen, hNullify, hFd]
      · refine
          ⟨[(.getRegs, t.getRegs),
              (.setRegs regs, .failed errno)], ?_,
            by simp, ?_⟩
        · simp [State.round, hSeen, hCall, hToggle, hFd,
            hReply]
        · rw [requests_aborted]
          simp [fakeReturn_eq, noteSysWrite,
            fetched_regs hSeen, hNullify, hFd]
  | unresumed mid errno hStep hReply hErrno =>
      -- Only the answer to the last request is another one.
      have hRequests := hStep.round hNullify
      rcases hStep.seen_eq_some with ⟨regs, hResumed⟩
      have hSeen : s.seen t = some regs := hResumed
      rcases State.round_resumable hSeen with
        ⟨init, hRound, hResumable⟩
      rw [answered_requests, hResumable,
        ← List.append_assoc] at hRequests
      have hInit := List.append_inj_left' hRequests rfl
      refine ⟨s.round t, List.prefix_rfl, ?_, ?_⟩
      · simp [hRound]
      · rw [requests_aborted, hInit, hRound, hReply,
          List.append_assoc]

/-
  An iteration that leaves asks for registers at most, and
  for none when the report ends the tracing.
-/
theorem broken_off_of_leave
    {s s' : State arch}
    {t : Turn arch}
    (hLeave : iteration s t = .leave s') :
    ∃ rest, rest <+: s.round t ∧
      (rest = [] ↔ endsTracing t.status = true) ∧
      s'.requests = s.requests ++ rest := by
  have hSeen := seen_of_leave hLeave
  rcases leave_cases hLeave with
    ⟨hEnds, hLast⟩ | ⟨hGoesOn, _, _, hLast⟩
  · refine ⟨[], List.nil_prefix, by simp [hEnds], ?_⟩
    rw [hLast, childEnded_eq]
    simp [waitForChild]
  · refine
      ⟨[(.getRegs, t.getRegs)], ?_, by simp [hGoesOn], ?_⟩
    · simp [State.round, hSeen]
    · rw [hLast, fetched_requests]

end Errmark

------------------------------------------------------------
-- Answers
------------------------------------------------------------

namespace Errmark

open Foundation

variable {arch : Arch}

namespace State

/- No request through `guard_ptrace` has failed for good. -/
def Answered (s : State arch) : Prop :=
  ∀ reply ∈ guardRepliesOf s.requests, reply.Benign

/- Without new requests, all answers stay benign. -/
theorem Answered.of_requests
    {s s' : State arch}
    (hAnswered : s.Answered)
    (hSame : s'.requests = s.requests) :
    s'.Answered := by
  unfold Answered
  rw [hSame]
  exact hAnswered

end State

/- `guard_ptrace` returns from benign answers only. -/
theorem answered_of_guardPtrace
    {s s' : State arch}
    {request : Request arch}
    {reply : Reply}
    (hAnswered : s.Answered)
    (hNext : guardPtrace s request reply = .next s') :
    s'.Answered := by
  rcases guardPtrace_eq_next_iff.mp hNext with
    ⟨hBenign, rfl⟩
  intro other hMem
  rw [answered_requests, guardRepliesOf_append,
    List.mem_append] at hMem
  rcases hMem with hOld | hNew
  · exact hAnswered other hOld
  · cases request <;> simp_all [guardRepliesOf]

/- The requests for a write have benign answers. -/
theorem answered_of_interceptWrite
    {s s' : State arch}
    {t : Turn arch}
    (hAnswered : s.Answered)
    (hNext : interceptWrite s t = .next s') :
    s'.Answered := by
  unfold interceptWrite at hNext
  rcases Outcome.andThen_eq_next_iff.mp hNext with
    ⟨mid, hGuard, hEmit⟩
  have hMid : mid.Answered := by
    apply answered_of_guardPtrace _ hGuard
    apply hAnswered.of_requests
    simp [nullifyWrite_eq, beforeWrite_eq, openMarks_eq]
  rcases emitWrite_cases hEmit with
    ⟨_, block, _, rfl⟩ | ⟨_, rfl⟩
  · intro reply hMem
    simp only [copyWrite, State.record_requests,
      State.request_requests, guardRepliesOf_append,
      guardRepliesOf_peekRequests, List.append_nil]
      at hMem
    exact hMid reply hMem
  · intro reply hMem
    simp only [streamWrite, State.record_requests,
      State.request_requests, guardRepliesOf_append,
      guardRepliesOf_peekRequests, List.append_nil]
      at hMem
    exact hMid reply hMem

/- So have those at either end of a write. -/
theorem answered_of_onSysWrite
    {s s' : State arch}
    {t : Turn arch}
    (hAnswered : s.Answered)
    (hNext : onSysWrite s t = .next s') :
    s'.Answered := by
  rw [onSysWrite_eq] at hNext
  rcases Outcome.andThen_eq_next_iff.mp hNext with
    ⟨mid, hBranch, hDone⟩
  cases hDone
  have hMid : mid.Answered := by
    split at hBranch
    · unfold writeEntry at hBranch
      dsimp only at hBranch
      have hTaken :
          (takeArguments (noteSysWrite s)).Answered :=
        hAnswered.of_requests rfl
      split at hBranch
      · exact answered_of_interceptWrite hTaken hBranch
      · cases hBranch
        exact hTaken
    · unfold writeExit at hBranch
      rcases Outcome.andThen_eq_next_iff.mp hBranch with
        ⟨last, hGuard, hRest⟩
      cases hRest
      have hFaked :
          (fakeReturn (noteSysWrite s)).Answered := by
        apply hAnswered.of_requests
        simp [fakeReturn_eq, noteSysWrite]
      have hLast := answered_of_guardPtrace hFaked hGuard
      exact hLast.of_requests rfl
  exact hMid.of_requests rfl

/- Registers are seen after a benign answer only. -/
theorem benign_of_seen
    {s : State arch}
    {t : Turn arch}
    {regs : Regs arch}
    (hSeen : s.seen t = some regs) :
    t.getRegs.Benign := by
  unfold State.seen at hSeen
  split at hSeen
  · cases hSeen
  · split at hSeen
    · next hOk => exact Or.inl hOk
    · split at hSeen
      · next hGone =>
          right
          simpa [Reply.isGone] using hGone.1
      · cases hSeen

/- What goes on has got no other answers. -/
theorem answered_of_iteration
    {s s' : State arch}
    {t : Turn arch}
    (hAnswered : s.Answered)
    (hNext : iteration s t = .next s') :
    s'.Answered := by
  cases hSeen : s.seen t with
  | none =>
      have hStep := steps_of_iteration hNext
      cases hStep <;> simp_all
  | some regs =>
      have hFetched : (fetched s t).Answered := by
        have hGuard :=
          guardPtrace_of_benign (waitForChild s t) .getRegs
            (benign_of_seen hSeen)
        have hWaited : (waitForChild s t).Answered :=
          hAnswered.of_requests rfl
        exact answered_of_guardPtrace hWaited hGuard
      rw [iteration_of_seen hSeen,
        actOnStop_eq (fetched_regs hSeen)] at hNext
      rcases Outcome.andThen_eq_next_iff.mp hNext with
        ⟨mid, hAct, hResume⟩
      apply answered_of_guardPtrace _ hResume
      split at hAct
      · exact answered_of_onSysWrite hFetched hAct
      · cases hAct
        exact hFetched

end Errmark

------------------------------------------------------------
-- The Dialogue Of A Run
------------------------------------------------------------

namespace Errmark

open Foundation

variable {arch : Arch}

/- A run that is still in the loop has made whole rounds. -/
theorem rounds_of_run
    {s s' : State arch}
    {turns : List (Turn arch)}
    (hNullify : s.cmd.nullify = true)
    (hRun : run iteration s turns = .next s') :
    (s.rounds turns).length = turns.length ∧
      s'.requests = s.requests ++ (s.rounds turns).flatten := by
  induction turns generalizing s with
  | nil =>
      cases hRun
      simp [State.rounds]
  | cons t turns ih =>
      rw [run_cons, Outcome.andThen_eq_next_iff] at hRun
      rcases hRun with ⟨mid, hFirst, hRest⟩
      have hStep := steps_of_iteration hFirst
      have hMid : mid.cmd.nullify = true :=
        hStep.sameOptions.nullify.trans hNullify
      rcases ih hMid hRest with ⟨hLength, hRequests⟩
      have hRounds :
          s.rounds (t :: turns) =
            s.round t :: mid.rounds turns := by
        simp [State.rounds, hFirst]
      rw [hRounds]
      constructor
      · rw [List.length_cons, List.length_cons, hLength]
      · rw [hRequests, hStep.round hNullify,
          List.flatten_cons, List.append_assoc]

/- No request is made before the loop. -/
theorem requests_begin (setup : Setup arch) :
    setup.begin.requests = [] := by
  unfold Setup.begin startTracing
  dsimp only
  split <;> rfl

/- A run goes on through benign answers only. -/
theorem answered_of_run
    {setup : Setup arch}
    {turns : List (Turn arch)}
    {s : State arch}
    (hRun : run iteration setup.begin turns = .next s) :
    s.Answered := by
  apply invariant_of_run (fun mid : State arch => mid.Answered)
    _ _ hRun
  · intro mid t mid' hMid hNext
    exact answered_of_iteration hMid hNext
  · intro reply hMem
    rw [requests_begin] at hMem
    cases hMem

/- What errmark does after its loop makes no requests. -/
theorem requests_afterTracing (s : State arch) :
    (afterTracing (afterLoop s)).requests = s.requests := by
  rw [afterTracing_eq, afterLoop_eq]
  rfl

/- A run in the loop has made its rounds, all answered. -/
theorem dialogue_of_run
    {setup : Setup arch}
    {turns : List (Turn arch)}
    {s : State arch}
    (hRun : run iteration setup.begin turns = .next s) :
    (setup.begin.rounds turns).length = turns.length ∧
      s.requests = (setup.begin.rounds turns).flatten ∧
      ∀ reply ∈
          guardRepliesOf (setup.begin.rounds turns).flatten,
        reply.Benign := by
  rcases rounds_of_run rfl hRun with ⟨hLength, hRequests⟩
  rw [requests_begin, List.nil_append] at hRequests
  have hAnswered := answered_of_run hRun
  rw [State.Answered, hRequests] at hAnswered
  exact ⟨hLength, hRequests, hAnswered⟩

/-
  However the turns go, the requests of errmark are the
  rounds of the turns it went on from, one for each, and
  then the beginning of the round of the turn at which it
  left or halted. In the whole rounds no request was answered
  by anything but success or `ESRCH`.
-/
theorem errmark_dialogue
    (setup : Setup arch)
    (turns : List (Turn arch)) :
    ∃ (pre : List (Turn arch))
        (s : State arch)
        (rest : List (Request arch × Reply)),
      run iteration setup.begin pre = .next s ∧
        (setup.errmark turns).final.requests =
          (setup.begin.rounds pre).flatten ++ rest ∧
        (setup.begin.rounds pre).length = pre.length ∧
        (∀ reply ∈
            guardRepliesOf (setup.begin.rounds pre).flatten,
          reply.Benign) ∧
        ((setup.errmark turns).goesOn = true →
          pre = turns ∧ rest = []) ∧
        ((setup.errmark turns).goesOn = false →
          ∃ t post,
            turns = pre ++ t :: post ∧
              rest <+: s.round t ∧
              (rest = [] ↔ endsTracing t.status = true)) := by
  cases hErrmark : setup.errmark turns with
  | next s =>
      have hRun : run iteration setup.begin turns = .next s := by
        rw [Setup.errmark_eq, Outcome.onLeave_eq_next_iff,
          Outcome.onLeave_eq_next_iff] at hErrmark
        exact hErrmark
      rcases dialogue_of_run hRun with
        ⟨hLength, hRequests, hBenign⟩
      refine
        ⟨turns, s, [], hRun, ?_, hLength, hBenign,
          fun _ => ⟨rfl, rfl⟩, by simp [Outcome.goesOn]⟩
      rw [Outcome.final, hRequests, List.append_nil]
  | leave s' =>
      rcases Setup.errmark_leave hErrmark with
        ⟨pre, t, post, mid, last, hSplit, hPre, hLeave, hAfter⟩
      rcases dialogue_of_run hPre with
        ⟨hLength, hRequests, hBenign⟩
      rcases broken_off_of_leave hLeave with
        ⟨rest, hBegun, hEmpty, hRest⟩
      refine
        ⟨pre, mid, rest, hPre, ?_, hLength, hBenign,
          by simp [Outcome.goesOn],
          fun _ => ⟨t, post, hSplit, hBegun, hEmpty⟩⟩
      rw [Outcome.final, hAfter, requests_afterTracing,
        hRest, hRequests]
  | halt cause s' =>
      rcases Setup.errmark_halt hErrmark with
        ⟨pre, t, post, mid, hSplit, hPre, hHalt⟩
      rcases dialogue_of_run hPre with
        ⟨hLength, hRequests, hBenign⟩
      have hNullify : mid.cmd.nullify = true :=
        (sameOptions_of_run hPre).nullify
      rcases broken_off_of_halts hNullify
          (halts_of_iteration hHalt) with
        ⟨rest, hBegun, hSome, hRest⟩
      have hGoesOn : endsTracing t.status ≠ true := by
        intro hEnds
        rw [iteration_of_ends mid hEnds] at hHalt
        cases hHalt
      refine
        ⟨pre, mid, rest, hPre, ?_, hLength, hBenign,
          by simp [Outcome.goesOn],
          fun _ =>
            ⟨t, post, hSplit, hBegun,
              iff_of_false hSome hGoesOn⟩⟩
      rw [Outcome.final, hRest, hRequests]

end Errmark
