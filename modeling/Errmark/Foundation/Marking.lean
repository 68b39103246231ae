import Mathlib.Data.List.Basic

/-
  Words put around the marked parts of a stream.

  A stream of tagged parts is written with an opening word
  before each group of marked parts and a closing word after
  it. If both words begin with a symbol that no part holds,
  and neither is the beginning of the other, the parts can
  be told apart again, even if the last closing word comes
  more than once.

  Key definitions include:
    * `Marker`
    * `Marker.mark`
    * `Marker.unmark`

  Key theorems include:
    * `Marker.unmark_mark`
    * `Marker.unmark_mark_closed`
-/

------------------------------------------------------------
-- Markers
------------------------------------------------------------

namespace Foundation

variable {α : Type}

/- Two words that begin alike and can be told apart. -/
structure Marker (α : Type) where
  lead : α
  opening : List α
  closing : List α
  opening_lead : opening.head? = some lead
  closing_lead : closing.head? = some lead
  opening_not_prefix : ¬ opening <+: closing
  closing_not_prefix : ¬ closing <+: opening

/- The items of some tagged parts, each with its tag. -/
def taggedItems {κ : Type} (parts : List (κ × List α)) :
    List (κ × α) :=
  parts.flatMap fun part =>
    part.2.map fun x => (part.1, x)

namespace Marker

/- The word between a part and the next one, if any. -/
def switch
    (m : Marker α)
    (marked tag : Bool) : List α :=
  if tag = marked then []
  else if tag then m.opening
  else m.closing

/- Some parts, written after a marked part or another. -/
def mark
    (m : Marker α) :
    Bool → List (Bool × List α) → List α
| _, [] => []
| marked, part :: parts =>
    m.switch marked part.1 ++ part.2 ++ m.mark part.1 parts

/- The tag of the last part. -/
def lastTag
    (marked : Bool)
    (parts : List (Bool × List α)) : Bool :=
  parts.foldl (fun _ part => part.1) marked

/-
  Reading a marked stream, some symbols of which are still
  to be skipped. A closing word where nothing is marked is
  passed over.
-/
def unmark
    [DecidableEq α]
    (m : Marker α) :
    Bool → Nat → List α → List (Bool × α)
| _, _, [] => []
| marked, skip + 1, _ :: xs => m.unmark marked skip xs
| marked, 0, x :: xs =>
    if x = m.lead then
      if ¬ marked ∧ m.opening <+: x :: xs then
        m.unmark true (m.opening.length - 1) xs
      else
        m.unmark false (m.closing.length - 1) xs
    else
      (marked, x) :: m.unmark marked 0 xs

end Marker

end Foundation

------------------------------------------------------------
-- Reading Words And Parts
------------------------------------------------------------

namespace Foundation

variable {α : Type}

namespace Marker

/- No opening word stands where a closing one does. -/
theorem opening_not_prefix_append
    (m : Marker α)
    (ys : List α) :
    ¬ m.opening <+: m.closing ++ ys := by
  intro hOpening
  have hClosing : m.closing <+: m.closing ++ ys :=
    List.prefix_append _ _
  rcases List.prefix_or_prefix_of_prefix hOpening hClosing
    with hPrefix | hPrefix
  · exact m.opening_not_prefix hPrefix
  · exact m.closing_not_prefix hPrefix

variable [DecidableEq α]
variable (m : Marker α)

/- What is to be skipped is skipped. -/
theorem unmark_skip
    (marked : Bool)
    (xs ys : List α) :
    m.unmark marked xs.length (xs ++ ys) =
      m.unmark marked 0 ys := by
  induction xs with
  | nil => rfl
  | cons x xs ih =>
      rw [List.length_cons, List.cons_append, unmark, ih]

/- A part without the leading symbol is read as it is. -/
theorem unmark_part
    (marked : Bool)
    {xs : List α}
    (hLead : m.lead ∉ xs)
    (ys : List α) :
    m.unmark marked 0 (xs ++ ys) =
      xs.map (fun x => (marked, x)) ++
        m.unmark marked 0 ys := by
  induction xs with
  | nil => rfl
  | cons x xs ih =>
      rw [List.mem_cons, not_or] at hLead
      rw [List.cons_append, unmark,
        if_neg (Ne.symm hLead.1), ih hLead.2]
      rfl

/- The opening mark turns the reader to the marked side. -/
theorem unmark_opening (ys : List α) :
    m.unmark false 0 (m.opening ++ ys) =
      m.unmark true 0 ys := by
  rcases List.head?_eq_some_iff.mp m.opening_lead with
    ⟨rest, hOpening⟩
  have hPrefix :
      m.opening <+: m.lead :: (rest ++ ys) :=
    ⟨ys, by rw [hOpening]; rfl⟩
  have hLength : m.opening.length - 1 = rest.length := by
    rw [hOpening]
    rfl
  rw [hOpening, List.cons_append, unmark, if_pos rfl,
    if_pos ⟨Bool.false_ne_true, hPrefix⟩, hLength,
    unmark_skip]

/- A closing word is passed over, marked or not. -/
theorem unmark_closing
    (marked : Bool)
    (ys : List α) :
    m.unmark marked 0 (m.closing ++ ys) =
      m.unmark false 0 ys := by
  rcases List.head?_eq_some_iff.mp m.closing_lead with
    ⟨rest, hClosing⟩
  have hOther := m.opening_not_prefix_append ys
  have hLength : m.closing.length - 1 = rest.length := by
    rw [hClosing]
    rfl
  rw [hClosing, List.cons_append] at hOther ⊢
  rw [unmark, if_pos rfl, if_neg (fun hBoth => hOther hBoth.2),
    hLength, unmark_skip]

/- The words between two parts set the tag. -/
theorem unmark_switch
    (marked tag : Bool)
    (ys : List α) :
    m.unmark marked 0 (m.switch marked tag ++ ys) =
      m.unmark tag 0 ys := by
  unfold switch
  cases marked <;> cases tag
  · rfl
  · exact m.unmark_opening ys
  · exact m.unmark_closing true ys
  · rfl

/- Any number of closing words. -/
theorem unmark_closings
    (marked : Bool)
    (n : Nat) :
    m.unmark marked 0
        (List.replicate n m.closing).flatten = [] := by
  induction n generalizing marked with
  | zero => rfl
  | succ n ih =>
      rw [List.replicate_succ, List.flatten_cons,
        unmark_closing, ih]

end Marker

end Foundation

------------------------------------------------------------
-- Round Trips
------------------------------------------------------------

namespace Foundation

variable {α : Type}

namespace Marker

variable [DecidableEq α]
variable (m : Marker α)

/- Marked parts are read back, whatever comes after them. -/
theorem unmark_mark
    (marked : Bool)
    {parts : List (Bool × List α)}
    (hLead : ∀ part ∈ parts, m.lead ∉ part.2)
    (ys : List α) :
    m.unmark marked 0 (m.mark marked parts ++ ys) =
      taggedItems parts ++
        m.unmark (lastTag marked parts) 0 ys := by
  induction parts generalizing marked with
  | nil => rfl
  | cons part parts ih =>
      rw [List.forall_mem_cons] at hLead
      rw [mark, List.append_assoc, List.append_assoc,
        unmark_switch, unmark_part m part.1 hLead.1,
        ih part.1 hLead.2, ← List.append_assoc]
      rfl

/- The last group may be closed any number of times. -/
theorem unmark_mark_closed
    (marked : Bool)
    {parts : List (Bool × List α)}
    (hLead : ∀ part ∈ parts, m.lead ∉ part.2)
    (n : Nat) :
    m.unmark marked 0
        (m.mark marked parts ++
          (List.replicate n m.closing).flatten) =
      taggedItems parts := by
  rw [m.unmark_mark marked hLead, unmark_closings,
    List.append_nil]

end Marker

end Foundation
