import Mathlib.Data.List.Basic
import Mathlib.Data.List.Flatten

/-
  Words made of groups that do not nest.

  A group of a key `d` is an opening symbol `op d` followed
  by a closing symbol `cl d`. A word is bracketed when it is
  one group after the other; it is partly bracketed when one
  more group may have been opened at its end. A log that
  holds such symbols and other items labels each item with
  the group it stands in.

  Key definitions include:
    * `groups`
    * `Bracketed`
    * `PartlyBracketed`
    * `labelled`

  Key theorems include:
    * `PartlyBracketed.switch`
    * `PartlyBracketed.close`
    * `PartlyBracketed.not_close_twice`
    * `labelled_append`
    * `labelled_of_still`
-/

------------------------------------------------------------
-- Bracketed Words
------------------------------------------------------------

namespace Foundation

variable {α δ : Type}

/- One group for each key, in order. -/
def groups (op cl : δ → α) (keys : List δ) : List α :=
  keys.flatMap fun d => [op d, cl d]

/- The word is one group after the other. -/
def Bracketed
    (op cl : δ → α)
    (Known : δ → Prop)
    (word : List α) : Prop :=
  ∃ keys,
    (∀ d ∈ keys, Known d) ∧ word = groups op cl keys

/- The word is bracketed up to a group that is still open. -/
def PartlyBracketed
    (op cl : δ → α)
    (Known : δ → Prop)
    (current : Option δ)
    (word : List α) : Prop :=
  ∃ keys,
    (∀ d ∈ keys, Known d) ∧
      word = groups op cl keys ++ current.toList.map op

section Counting

variable {op cl : δ → α}
variable {isOp : α → Bool}

/- The groups of two lists follow one another. -/
theorem groups_append
    (op cl : δ → α)
    (xs ys : List δ) :
    groups op cl (xs ++ ys) =
      groups op cl xs ++ groups op cl ys :=
  List.flatMap_append

/- Each key gives a mark at both ends of its group. -/
theorem length_groups
    (op cl : δ → α)
    (keys : List δ) :
    (groups op cl keys).length = 2 * keys.length := by
  induction keys with
  | nil => rfl
  | cons d keys ih =>
      rw [groups, List.flatMap_cons, List.length_append,
        ← groups, ih]
      simp only [List.length_cons, List.length_nil]
      omega

/- Half of the symbols of the groups open one. -/
theorem countP_groups
    (hOp : ∀ d, isOp (op d) = true)
    (hCl : ∀ d, isOp (cl d) = false)
    (keys : List δ) :
    (groups op cl keys).countP isOp = keys.length := by
  induction keys with
  | nil => rfl
  | cons d keys ih =>
      rw [groups, List.flatMap_cons, List.countP_append,
        ← groups, ih]
      simp only [List.countP_cons, List.countP_nil, hOp,
        hCl, List.length_cons]
      simp only [if_true, Bool.false_eq_true, if_false]
      omega

end Counting

end Foundation

------------------------------------------------------------
-- Words Under Construction
------------------------------------------------------------

namespace Foundation

variable {α δ : Type}
variable {op cl : δ → α}
variable {Known : δ → Prop}
variable {word : List α}

/- Nothing written yet, and no group is open. -/
theorem partlyBracketed_nil :
    PartlyBracketed op cl Known none [] :=
  ⟨[], by simp, rfl⟩

/- Without an open group, words are bracketed as a whole. -/
theorem partlyBracketed_none_iff :
    PartlyBracketed op cl Known none word ↔
      Bracketed op cl Known word := by
  simp [PartlyBracketed, Bracketed]

/- Closing the open group completes the word. -/
theorem PartlyBracketed.close
    {d : δ}
    (hKnown : Known d)
    (hWord : PartlyBracketed op cl Known (some d) word) :
    Bracketed op cl Known (word ++ [cl d]) := by
  rcases hWord with ⟨keys, hKeys, hEq⟩
  refine ⟨keys ++ [d], ?_, ?_⟩
  · intro c hMem
    rcases List.mem_append.mp hMem with hOld | hNew
    · exact hKeys c hOld
    · rw [List.mem_singleton.mp hNew]
      exact hKnown
  · rw [hEq, groups_append]
    simp [groups]

/- The open group is closed before another one is opened. -/
theorem PartlyBracketed.switch
    {current : Option δ}
    (hKnown : ∀ c, current = some c → Known c)
    (hWord : PartlyBracketed op cl Known current word)
    (d : δ) :
    PartlyBracketed op cl Known (some d)
      (word ++ current.toList.map cl ++ [op d]) := by
  have hClosed :
      Bracketed op cl Known
        (word ++ current.toList.map cl) := by
    cases current with
    | none =>
        rw [Option.toList_none, List.map_nil,
          List.append_nil]
        exact partlyBracketed_none_iff.mp hWord
    | some c => exact hWord.close (hKnown c rfl)
  rcases hClosed with ⟨keys, hKeys, hEq⟩
  refine ⟨keys, hKeys, ?_⟩
  rw [hEq]
  rfl

/-
  A group that is closed more than once breaks the word: it
  then has more closing than opening symbols.
-/
theorem PartlyBracketed.not_close_twice
    (isOp : α → Bool)
    (hOp : ∀ d, isOp (op d) = true)
    (hCl : ∀ d, isOp (cl d) = false)
    {d : δ}
    (hWord : PartlyBracketed op cl Known (some d) word)
    {times : Nat}
    (hTimes : 2 ≤ times) :
    ¬ Bracketed op cl Known
      (word ++ List.replicate times (cl d)) := by
  rintro ⟨keys, _, hEq⟩
  rcases hWord with ⟨closed, _, hWord⟩
  have hLength := congrArg List.length hEq
  have hCount := congrArg (List.countP isOp) hEq
  rw [hWord] at hLength hCount
  simp only [List.length_append, length_groups,
    List.length_replicate, Option.toList_some,
    List.map_cons, List.map_nil, List.length_cons,
    List.length_nil] at hLength
  simp only [List.countP_append, countP_groups hOp hCl,
    List.countP_replicate, hCl, Option.toList_some,
    List.map_cons, List.map_nil, List.countP_cons, hOp,
    List.countP_nil, Bool.false_eq_true, if_false,
    if_true] at hCount
  omega

/- A word with an open group is not complete. -/
theorem PartlyBracketed.not_bracketed
    {d : δ}
    (hWord : PartlyBracketed op cl Known (some d) word) :
    ¬ Bracketed op cl Known word := by
  rintro ⟨keys, _, hEq⟩
  rcases hWord with ⟨closed, _, hWord⟩
  have hLength := congrArg List.length hEq
  rw [hWord, List.length_append, length_groups,
    length_groups] at hLength
  simp only [Option.toList_some, List.map_cons,
    List.map_nil, List.length_cons, List.length_nil]
    at hLength
  omega

end Foundation

------------------------------------------------------------
-- Items Within Groups
------------------------------------------------------------

namespace Foundation

variable {α β γ : Type}

/- The items of each entry, with the label before it. -/
def labelled
    (next : γ → α → γ)
    (items : α → List β)
    (label : γ) :
    List α → List (γ × β)
| [] => []
| a :: as =>
    (items a).map (fun b => (label, b)) ++
      labelled next items (next label a) as

variable
  (next : γ → α → γ)
  (items : α → List β)

/- What comes later is labelled by what it finds. -/
theorem labelled_append
    (label : γ)
    (xs ys : List α) :
    labelled next items label (xs ++ ys) =
      labelled next items label xs ++
        labelled next items (xs.foldl next label) ys := by
  induction xs generalizing label with
  | nil => rfl
  | cons x xs ih =>
      rw [List.cons_append, labelled, labelled, ih,
        List.append_assoc, List.foldl_cons]

/- Entries without items have nothing to label. -/
theorem labelled_of_no_items
    (label : γ)
    {xs : List α}
    (hItems : xs.flatMap items = []) :
    labelled next items label xs = [] := by
  induction xs generalizing label with
  | nil => rfl
  | cons x xs ih =>
      rw [List.flatMap_cons, List.append_eq_nil_iff]
        at hItems
      rw [labelled, hItems.1, ih _ hItems.2]
      rfl

/- Entries that keep the label give it to all their items. -/
theorem labelled_of_still
    (label : γ)
    {xs : List α}
    (hStill : ∀ x ∈ xs, next label x = label) :
    labelled next items label xs =
        (xs.flatMap items).map (fun b => (label, b)) ∧
      xs.foldl next label = label := by
  induction xs with
  | nil => exact ⟨rfl, rfl⟩
  | cons x xs ih =>
      have hHead := hStill x (by simp)
      rcases ih fun y hMem => hStill y (by simp [hMem]) with
        ⟨hItems, hLabel⟩
      rw [labelled, List.foldl_cons, hHead, hItems, hLabel,
        List.flatMap_cons, List.map_append]
      exact ⟨rfl, rfl⟩

/- Entries that neither have items nor change the label. -/
theorem labelled_filter
    {keep : α → Bool}
    (hItems : ∀ x, keep x = false → items x = [])
    (hStill :
      ∀ x, keep x = false → ∀ label, next label x = label)
    (label : γ)
    (xs : List α) :
    labelled next items label (xs.filter keep) =
        labelled next items label xs ∧
      (xs.filter keep).foldl next label =
        xs.foldl next label := by
  induction xs generalizing label with
  | nil => exact ⟨rfl, rfl⟩
  | cons x xs ih =>
      cases hKeep : keep x with
      | true =>
          rcases ih (next label x) with ⟨hRest, hLabel⟩
          rw [List.filter_cons_of_pos hKeep, labelled,
            labelled, List.foldl_cons, List.foldl_cons,
            hRest, hLabel]
          exact ⟨rfl, rfl⟩
      | false =>
          have hDrop : ¬ keep x = true := by simp [hKeep]
          rcases ih label with ⟨hRest, hLabel⟩
          rw [List.filter_cons_of_neg hDrop, labelled,
            List.foldl_cons, hItems x hKeep,
            hStill x hKeep label, hRest, hLabel]
          exact ⟨rfl, rfl⟩

end Foundation
