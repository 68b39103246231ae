import Mathlib.Data.List.Basic

/-
  Buffered streams over descriptors.

  What is put on a stream waits in its buffer until it is
  flushed, or goes out earlier on its own; a direct write
  overtakes the buffer. A sink is a set of descriptors that
  lead to the same place, one of which has the only stream
  that is put on. As long as every direct write to the sink
  finds that buffer empty, nothing is reordered.

  Key definitions include:
    * `StreamOp`
    * `Channels`
    * `Channels.execAll`
    * `Channels.contents`
    * `Guarded`

  Key theorems include:
    * `Channels.contents_drain`
    * `Guarded.append`
    * `Channels.exec_of_guarded`
    * `Channels.contents_execAll`
    * `Channels.pending_execAll_suffix`
-/

------------------------------------------------------------
-- Channels
------------------------------------------------------------

namespace Foundation

variable {δ α : Type}

/- What a program does with its streams. -/
inductive StreamOp (δ α : Type) where
  | put (d : δ) (xs : List α)
  | flush (d : δ)
  | direct (d : δ) (xs : List α)

/- What an operation makes of the buffer of `d`. -/
def StreamOp.buffer
    [DecidableEq δ]
    (d : δ)
    (buf : List α) : StreamOp δ α → List α
| .put e xs => if e = d then buf ++ xs else buf
| .flush e => if e = d then [] else buf
| .direct _ _ => buf

/- What arrived where, and what waits in each buffer. -/
structure Channels (δ α : Type) where
  delivered : List (δ × α)
  pending : δ → List α

namespace Channels

variable [DecidableEq δ]

/- Nothing has arrived, and nothing is pending. -/
def empty : Channels δ α where
  delivered := []
  pending := fun _ => []

/- The first `n` items of a buffer go out. -/
def drain
    (c : Channels δ α)
    (d : δ)
    (n : Nat) : Channels δ α where
  delivered :=
    c.delivered ++ ((c.pending d).take n).map fun x => (d, x)
  pending := fun e =>
    if e = d then (c.pending d).drop n else c.pending e

/- What an operation does to the streams. -/
def exec (c : Channels δ α) : StreamOp δ α → Channels δ α
| .put d xs =>
    { c with
      pending := fun e =>
        if e = d then c.pending d ++ xs else c.pending e }
| .flush d => c.drain d (c.pending d).length
| .direct d xs =>
    { c with
      delivered := c.delivered ++ xs.map fun x => (d, x) }

/- Some buffers go out in part without being flushed. -/
def drains
    (c : Channels δ α)
    (amounts : List (δ × Nat)) : Channels δ α :=
  amounts.foldl (fun c amount => c.drain amount.1 amount.2) c

/- Operations, with what goes out early after each of them. -/
def execAll
    (early : Nat → List (δ × Nat)) :
    Nat → Channels δ α → List (StreamOp δ α) →
      Channels δ α
| _, c, [] => c
| k, c, op :: ops =>
    execAll early (k + 1) ((c.exec op).drains (early k)) ops

/-
  More operations find what the first ones left, and the
  clock that goes with it.
-/
theorem execAll_append
    (early : Nat → List (δ × Nat))
    (k : Nat)
    (c : Channels δ α)
    (xs ys : List (StreamOp δ α)) :
    execAll early k c (xs ++ ys) =
      execAll early (k + xs.length)
        (execAll early k c xs) ys := by
  induction xs generalizing k c with
  | nil => rfl
  | cons op xs ih =>
      rw [List.cons_append, execAll, execAll, ih,
        List.length_cons]
      congr 1
      omega

/- What arrived at one descriptor. -/
def arrived
    (c : Channels δ α)
    (d : δ) : List α :=
  (c.delivered.filter fun item => item.1 = d).map Prod.snd

/-
  What arrived at a sink, and what waits in the buffer of
  its stream.
-/
def contents
    (sink : δ → Bool)
    (main : δ)
    (c : Channels δ α) : List α :=
  (c.delivered.filter fun item => sink item.1).map
    Prod.snd ++ c.pending main

/- The sink behind one descriptor only. -/
def single (d e : δ) : Bool :=
  e = d

/- Nothing waits in the other buffers of the sink. -/
def Clean
    (sink : δ → Bool)
    (main : δ)
    (c : Channels δ α) : Prop :=
  ∀ d, sink d = true → d ≠ main → c.pending d = []

end Channels

end Foundation

------------------------------------------------------------
-- Single Operations
------------------------------------------------------------

namespace Foundation

namespace Channels

variable {δ α : Type} [DecidableEq δ]
variable {sink : δ → Bool}
variable {main : δ}
variable {c : Channels δ α}

/- A sink takes all of a stream or nothing of it. -/
omit [DecidableEq δ] in
theorem filter_tagged
    (sink : δ → Bool)
    (d : δ)
    (xs : List α) :
    (((xs.map fun x => (d, x)).filter fun item =>
        sink item.1).map Prod.snd) =
      if sink d = true then xs else [] := by
  induction xs with
  | nil => simp
  | cons x xs ih =>
      by_cases hSink : sink d = true
      · simp only [hSink, if_true] at ih
        simp [hSink, ih]
      · simp only [hSink] at ih
        simp [hSink]

/- What goes out early was next in line anyway. -/
theorem contents_drain
    (hMain : sink main = true)
    (hClean : c.Clean sink main)
    (d : δ)
    (n : Nat) :
    (c.drain d n).contents sink main =
      c.contents sink main := by
  unfold contents drain
  simp only [List.filter_append, List.map_append,
    filter_tagged]
  by_cases hSame : main = d
  · subst hSame
    rw [if_pos hMain, if_pos rfl, List.append_assoc,
      List.take_append_drop]
  · rw [if_neg hSame]
    by_cases hSink : sink d = true
    · have hNone := hClean d hSink (Ne.symm hSame)
      simp [hNone]
    · simp [hSink]

/- Draining a stream keeps the sink clean. -/
theorem Clean.drain
    (hClean : c.Clean sink main)
    (d : δ)
    (n : Nat) :
    (c.drain d n).Clean sink main := by
  intro e hSink hOther
  have hNone := hClean e hSink hOther
  by_cases hSame : e = d
  · subst hSame
    simp [Channels.drain, hNone]
  · simp [Channels.drain, hSame, hNone]

/- An empty buffer stays empty. -/
theorem pending_drain_eq_nil
    {e : δ}
    (hNone : c.pending e = [])
    (d : δ)
    (n : Nat) :
    (c.drain d n).pending e = [] := by
  by_cases hSame : e = d
  · subst hSame
    simp [drain, hNone]
  · simp [drain, hSame, hNone]

/- Nothing can be drained from an empty buffer. -/
theorem pending_drains_eq_nil
    {e : δ}
    (hNone : c.pending e = [])
    (amounts : List (δ × Nat)) :
    (c.drains amounts).pending e = [] := by
  induction amounts generalizing c with
  | nil => exact hNone
  | cons amount amounts ih =>
      apply ih
      exact pending_drain_eq_nil hNone amount.1 amount.2

/- The same facts, for whatever goes out early. -/
theorem drains_facts
    (hMain : sink main = true)
    (hClean : c.Clean sink main)
    (amounts : List (δ × Nat)) :
    (c.drains amounts).contents sink main =
        c.contents sink main ∧
      (c.drains amounts).Clean sink main := by
  induction amounts generalizing c with
  | nil => exact ⟨rfl, hClean⟩
  | cons amount amounts ih =>
      have hNext := hClean.drain amount.1 amount.2
      rcases ih hNext with ⟨hSame, hStill⟩
      refine ⟨?_, hStill⟩
      rw [← contents_drain hMain hClean amount.1 amount.2]
      exact hSame

/- Items put on the main stream are last in line. -/
theorem contents_put
    (hMain : sink main = true)
    {d : δ}
    (hOnly : sink d = true → d = main)
    (xs : List α) :
    (c.exec (.put d xs)).contents sink main =
      c.contents sink main ++
        if sink d = true then xs else [] := by
  unfold contents exec
  by_cases hSink : sink d = true
  · rw [hOnly hSink]
    simp [hMain]
  · have hOther : main ≠ d := by
      intro hSame
      rw [hSame] at hMain
      exact hSink hMain
    simp [hSink, hOther]

/- A buffer of the main stream may fill. -/
theorem Clean.put
    (hClean : c.Clean sink main)
    {d : δ}
    (hOnly : sink d = true → d = main)
    (xs : List α) :
    (c.exec (.put d xs)).Clean sink main := by
  intro e hSink hOther
  have hNone := hClean e hSink hOther
  by_cases hSame : e = d
  · subst hSame
    exact absurd (hOnly hSink) hOther
  · simp [exec, hSame, hNone]

/- Items written directly pass an empty buffer. -/
theorem contents_direct
    {d : δ}
    (hNone : sink d = true → c.pending main = [])
    (xs : List α) :
    (c.exec (.direct d xs)).contents sink main =
      c.contents sink main ++
        if sink d = true then xs else [] := by
  unfold contents exec
  simp only [List.filter_append, List.map_append,
    filter_tagged]
  by_cases hSink : sink d = true
  · simp [hSink, hNone hSink]
  · simp [hSink]

end Channels

end Foundation

------------------------------------------------------------
-- Guarded Sequences
------------------------------------------------------------

namespace Foundation

variable {δ α : Type} [DecidableEq δ]

namespace StreamOp

/- What an operation adds to a sink. -/
def payload (sink : δ → Bool) : StreamOp δ α → List α
| .put d xs => if sink d then xs else []
| .flush _ => []
| .direct d xs => if sink d then xs else []

end StreamOp

/-
  Only the main stream of the sink is put on, and direct
  writes to the sink come while its buffer is empty. The
  flag says whether it is known to be empty.
-/
def Guarded
    (sink : δ → Bool)
    (main : δ) :
    Bool → List (StreamOp δ α) → Prop
| _, [] => True
| known, .put d _ :: ops =>
    (sink d = true → d = main) ∧
      Guarded sink main (known && d ≠ main) ops
| known, .flush d :: ops =>
    Guarded sink main (known || d = main) ops
| known, .direct d _ :: ops =>
    (sink d = true → known = true) ∧
      Guarded sink main known ops

variable {sink : δ → Bool}
variable {main : δ}

/- Knowing the buffer to be empty does no harm. -/
theorem Guarded.mono
    {ops : List (StreamOp δ α)}
    {known : Bool}
    (hGuarded : Guarded sink main false ops) :
    Guarded sink main known ops := by
  cases known with
  | false => exact hGuarded
  | true =>
      induction ops with
      | nil => trivial
      | cons op ops ih =>
          cases op with
          | put d xs =>
              refine ⟨hGuarded.1, ?_⟩
              cases hOther : decide (d ≠ main) with
              | false => exact hGuarded.2
              | true => exact ih hGuarded.2
          | flush d =>
              by_cases hMain : d = main
              · have hSame := hGuarded
                simp only [Guarded, hMain, decide_true,
                  Bool.or_true] at hSame ⊢
                exact hSame
              · have hRest := hGuarded
                simp only [Guarded, hMain, decide_false,
                  Bool.or_false] at hRest ⊢
                exact ih hRest
          | direct d xs =>
              exact ⟨fun _ => rfl, ih hGuarded.2⟩

/- Guarded operations follow one another. -/
theorem Guarded.append
    {known : Bool}
    {xs ys : List (StreamOp δ α)}
    (hFirst : Guarded sink main known xs)
    (hSecond : Guarded sink main false ys) :
    Guarded sink main known (xs ++ ys) := by
  induction xs generalizing known with
  | nil => exact hSecond.mono
  | cons op xs ih =>
      cases op with
      | put d zs => exact ⟨hFirst.1, ih hFirst.2⟩
      | flush d => exact ih hFirst
      | direct d zs => exact ⟨hFirst.1, ih hFirst.2⟩

namespace Channels

/-
  One guarded operation adds its payload to the sink, and
  what follows it is still guarded.
-/
theorem exec_of_guarded
    (hMain : sink main = true)
    {c : Channels δ α}
    {op : StreamOp δ α}
    {ops : List (StreamOp δ α)}
    {known : Bool}
    (hGuarded : Guarded sink main known (op :: ops))
    (hClean : c.Clean sink main)
    (hKnown : known = true → c.pending main = []) :
    (c.exec op).contents sink main =
        c.contents sink main ++ op.payload sink ∧
      (c.exec op).Clean sink main ∧
      ∃ next,
        Guarded sink main next ops ∧
          (next = true →
            (c.exec op).pending main = []) := by
  cases op with
  | put d xs =>
      refine
        ⟨contents_put hMain hGuarded.1 xs,
          hClean.put hGuarded.1 xs, _, hGuarded.2, ?_⟩
      intro hBoth
      rw [Bool.and_eq_true, decide_eq_true_eq] at hBoth
      have hNone := hKnown hBoth.1
      simp [exec, hNone, Ne.symm hBoth.2]
  | flush d =>
      have hContents :=
        contents_drain hMain hClean d (c.pending d).length
      refine ⟨?_, hClean.drain d _, _, hGuarded, ?_⟩
      · rw [StreamOp.payload, List.append_nil]
        exact hContents
      · intro hEither
        rw [Bool.or_eq_true, decide_eq_true_eq] at hEither
        rcases hEither with hFlag | hSame
        · exact pending_drain_eq_nil (hKnown hFlag) d _
        · subst hSame
          simp [exec, drain]
  | direct d xs =>
      exact
        ⟨contents_direct
            (fun hSink => hKnown (hGuarded.1 hSink)) xs,
          hClean, known, hGuarded.2, hKnown⟩

/-
  Guarded operations reach the sink in the order in which
  they are made, whatever goes out early.
-/
theorem contents_execAll
    (hMain : sink main = true)
    (early : Nat → List (δ × Nat))
    (k : Nat)
    {c : Channels δ α}
    {ops : List (StreamOp δ α)}
    {known : Bool}
    (hGuarded : Guarded sink main known ops)
    (hClean : c.Clean sink main)
    (hKnown : known = true → c.pending main = []) :
    (execAll early k c ops).contents sink main =
        c.contents sink main ++
          ops.flatMap (StreamOp.payload sink) ∧
      (execAll early k c ops).Clean sink main := by
  induction ops generalizing k c known with
  | nil =>
      refine ⟨?_, hClean⟩
      simp [execAll]
  | cons op ops ih =>
      rw [execAll, List.flatMap_cons, ← List.append_assoc]
      rcases exec_of_guarded hMain hGuarded hClean hKnown
        with ⟨hContents, hNext, next, hRest, hStill⟩
      rcases drains_facts hMain hNext (early k) with
        ⟨hSame, hCleanNext⟩
      rcases ih (k + 1) hRest hCleanNext
          (fun hFlag =>
            pending_drains_eq_nil (hStill hFlag) _) with
        ⟨hAll, hCleanAll⟩
      refine ⟨?_, hCleanAll⟩
      rw [hAll, hSame, hContents]

/- A buffer that is flushed last of all is empty. -/
theorem pending_execAll_flushes
    (early : Nat → List (δ × Nat))
    (k : Nat)
    (c : Channels δ α)
    {d : δ}
    {ds : List δ}
    (hFlushed : d ∈ ds ∨ c.pending d = []) :
    (execAll early k c
      (ds.map StreamOp.flush)).pending d = [] := by
  induction ds generalizing k c with
  | nil =>
      rcases hFlushed with hMem | hNone
      · cases hMem
      · exact hNone
  | cons e ds ih =>
      rw [List.map_cons, execAll]
      apply ih
      by_cases hSame : e = d
      · right
        apply pending_drains_eq_nil
        subst hSame
        simp [exec, drain]
      · rcases hFlushed with hMem | hNone
        · left
          rcases List.mem_cons.mp hMem with hHead | hTail
          · exact absurd hHead.symm hSame
          · exact hTail
        · right
          apply pending_drains_eq_nil
          exact pending_drain_eq_nil hNone e _

/-
  What goes out early leaves less in a buffer than flushing
  alone does, and nothing else.
-/
theorem pending_drains_suffix
    {c : Channels δ α}
    {d : δ}
    {buf : List α}
    (hSuffix : c.pending d <:+ buf)
    (amounts : List (δ × Nat)) :
    (c.drains amounts).pending d <:+ buf := by
  induction amounts generalizing c with
  | nil => exact hSuffix
  | cons amount amounts ih =>
      apply ih
      by_cases hSame : d = amount.1
      · subst hSame
        simp only [drain, if_pos]
        exact (List.drop_suffix _ _).trans hSuffix
      · simpa [drain, hSame] using hSuffix

/- A buffer changes as the operation says. -/
theorem pending_exec
    (c : Channels δ α)
    (d : δ)
    (op : StreamOp δ α) :
    (c.exec op).pending d = op.buffer d (c.pending d) := by
  cases op with
  | put e xs =>
      by_cases hSame : e = d
      · subst hSame
        simp [exec, StreamOp.buffer]
      · simp [exec, StreamOp.buffer, hSame, Ne.symm hSame]
  | flush e =>
      by_cases hSame : e = d
      · subst hSame
        simp [exec, drain, StreamOp.buffer]
      · simp [exec, drain, StreamOp.buffer, hSame,
          Ne.symm hSame]
  | direct e xs => rfl

/- A shorter buffer stays shorter. -/
theorem buffer_suffix
    {d : δ}
    {xs ys : List α}
    (hSuffix : xs <:+ ys)
    (op : StreamOp δ α) :
    op.buffer d xs <:+ op.buffer d ys := by
  cases op with
  | put e zs =>
      by_cases hSame : e = d
      · rcases hSuffix with ⟨front, hFront⟩
        refine ⟨front, ?_⟩
        simp [StreamOp.buffer, hSame, ← hFront]
      · simpa [StreamOp.buffer, hSame] using hSuffix
  | flush e =>
      by_cases hSame : e = d
      · simp [StreamOp.buffer, hSame]
      · simpa [StreamOp.buffer, hSame] using hSuffix
  | direct e zs => exact hSuffix

/-
  Whatever goes out early, what is pending is the end of
  what would be.
-/
theorem pending_execAll_suffix
    (early : Nat → List (δ × Nat))
    (k : Nat)
    {c : Channels δ α}
    {d : δ}
    {buf : List α}
    (hSuffix : c.pending d <:+ buf)
    (ops : List (StreamOp δ α)) :
    (execAll early k c ops).pending d <:+
      ops.foldl (fun buf op => op.buffer d buf) buf := by
  induction ops generalizing k c buf with
  | nil => exact hSuffix
  | cons op ops ih =>
      rw [execAll, List.foldl_cons]
      apply ih
      apply pending_drains_suffix
      rw [pending_exec]
      exact buffer_suffix hSuffix op

/- Without early output a buffer holds all it may. -/
theorem pending_execAll_eq
    (k : Nat)
    (c : Channels δ α)
    (d : δ)
    (ops : List (StreamOp δ α)) :
    (execAll (fun _ => []) k c ops).pending d =
      ops.foldl (fun buf op => op.buffer d buf)
        (c.pending d) := by
  induction ops generalizing k c with
  | nil => rfl
  | cons op ops ih =>
      rw [execAll, List.foldl_cons, ih, ← pending_exec]
      rfl

/- With an empty buffer all of a descriptor has arrived. -/
theorem arrived_of_pending_nil
    {c : Channels δ α}
    {d : δ}
    (hNone : c.pending d = []) :
    c.arrived d = c.contents (single d) d := by
  simp [arrived, contents, single, hNone]

end Channels

end Foundation
