import Mathlib.Data.List.Basic
import Mathlib.Data.List.Infix

/-
  Texts in which some letters are replaced by escapes.

  A plain letter is shown as it is, and any other one by an
  escape: a mark and a body of plain letters without a mark,
  of one length for all letters. As the mark may be plain
  itself, a string may spell out what an escape looks like.

  Key definitions include:
    * `Escaping`
    * `Escaping.text`
    * `Escaping.SpellsNone`

  Key theorems include:
    * `Escaping.text_of_plain`
    * `Escaping.text_inj`
    * `Escaping.recoverable_iff`
-/

------------------------------------------------------------
-- Escapings
------------------------------------------------------------

namespace Foundation

variable {α : Type}

/-
  Letters that stand for themselves, and escapes, all of
  whose letters do, for the others.
-/
structure Escaping (α : Type) where
  plain : α → Bool
  mark : α
  body : α → List α
  width : Nat
  mark_plain : plain mark = true
  body_plain : ∀ a, ∀ c ∈ body a, plain c = true
  mark_not_mem_body : ∀ a, mark ∉ body a
  length_body : ∀ a, (body a).length = width
  body_inj : ∀ a b, body a = body b → a = b

namespace Escaping

variable (e : Escaping α)

/- The escape of a letter: its lead, and the body. -/
def escape (a : α) : List α :=
  e.mark :: e.body a

/- What is shown for a letter, and for a string. -/
def letter (a : α) : List α :=
  if e.plain a then [a] else e.escape a

/- A string is shown letter by letter. -/
def text (s : List α) : List α :=
  s.flatMap e.letter

/- No escape of a letter in use is spelt out. -/
def SpellsNone
    (inUse : α → Prop)
    (s : List α) : Prop :=
  ∀ a, inUse a → e.plain a = false → ¬ e.escape a <:+: s

end Escaping

end Foundation

------------------------------------------------------------
-- Texts
------------------------------------------------------------

namespace Foundation

namespace Escaping

variable {α : Type}
variable (e : Escaping α)

/- Nothing is shown as nothing. -/
@[simp] theorem text_nil : e.text [] = [] := rfl

/- The first letter is shown first. -/
theorem text_cons (a : α) (s : List α) :
    e.text (a :: s) = e.letter a ++ e.text s := rfl

/- Strings are shown one after the other. -/
theorem text_append (s t : List α) :
    e.text (s ++ t) = e.text s ++ e.text t := by
  simp [text]

/- A plain letter stands for itself. -/
theorem letter_of_plain
    {a : α}
    (hPlain : e.plain a = true) :
    e.letter a = [a] := by
  simp [letter, hPlain]

/- Any other letter is spelt out. -/
theorem letter_of_escaped
    {a : α}
    (hEscaped : e.plain a = false) :
    e.letter a = e.escape a := by
  simp [letter, hEscaped]

/- The letters of an escape need no escape. -/
theorem plain_of_mem_escape
    {a c : α}
    (hMem : c ∈ e.escape a) :
    e.plain c = true := by
  rcases List.mem_cons.mp hMem with hMark | hBody
  · rw [hMark]
    exact e.mark_plain
  · exact e.body_plain a c hBody

/- A string of plain letters is its own text. -/
theorem text_of_plain
    {s : List α}
    (hPlain : ∀ a ∈ s, e.plain a = true) :
    e.text s = s := by
  induction s with
  | nil => rfl
  | cons a s ih =>
      rw [List.forall_mem_cons] at hPlain
      rw [text_cons, e.letter_of_plain hPlain.1,
        ih hPlain.2, List.singleton_append]

/- Showing an escape once more changes nothing. -/
theorem text_escape (a : α) :
    e.text (e.escape a) = e.escape a :=
  e.text_of_plain fun _ hMem => e.plain_of_mem_escape hMem

/- An escaped letter and its escape have the same text. -/
theorem text_spelt_out
    {a : α}
    (hEscaped : e.plain a = false)
    (before after : List α) :
    e.text (before ++ a :: after) =
      e.text (before ++ (e.escape a ++ after)) := by
  rw [text_append, text_append, text_append, text_escape,
    text_cons, e.letter_of_escaped hEscaped]

/- They are different strings all the same. -/
theorem spelt_out_ne
    {a : α}
    (hEscaped : e.plain a = false)
    (before after : List α) :
    before ++ a :: after ≠
      before ++ (e.escape a ++ after) := by
  intro hSame
  have hTails : [a] ++ after = e.escape a ++ after :=
    List.append_cancel_left hSame
  have hEscape : [a] = e.escape a :=
    List.append_cancel_right hTails
  have hPlain : e.plain a = true :=
    e.plain_of_mem_escape (a := a) (by simp [← hEscape])
  rw [hEscaped] at hPlain
  cases hPlain

end Escaping

end Foundation

------------------------------------------------------------
-- Strings Told Apart
------------------------------------------------------------

namespace Foundation

namespace Escaping

variable {α : Type}
variable {e : Escaping α}

/-
  A text starts with plain letters that are no marks only
  where the string does.
-/
theorem prefix_of_text
    {w s r : List α}
    (hMark : e.mark ∉ w)
    (hText : e.text s = w ++ r) :
    ∃ rest, s = w ++ rest := by
  induction w generalizing s with
  | nil => exact ⟨s, rfl⟩
  | cons c w ih =>
      simp only [List.mem_cons, not_or] at hMark
      cases s with
      | nil => cases hText
      | cons a s =>
          rw [text_cons] at hText
          cases hPlain : e.plain a with
          | true =>
              rw [e.letter_of_plain hPlain] at hText
              simp only [List.cons_append,
                List.cons.injEq] at hText
              rcases ih hMark.2 hText.2 with ⟨rest, hSplit⟩
              refine ⟨rest, ?_⟩
              rw [hText.1, hSplit, List.cons_append]
          | false =>
              rw [e.letter_of_escaped hPlain, escape]
                at hText
              simp only [List.cons_append,
                List.cons.injEq] at hText
              exact absurd hText.1 hMark.1

/- An escape in a text is one in the string, or spelt out. -/
theorem head_of_escape
    {inUse : α → Prop}
    {a : α}
    {t r : List α}
    (hUse : inUse a)
    (hEscaped : e.plain a = false)
    (hFree : e.SpellsNone inUse t)
    (hText : e.text t = e.escape a ++ r) :
    ∃ rest, t = a :: rest ∧ e.text rest = r := by
  cases t with
  | nil => cases hText
  | cons b t =>
      rw [text_cons, escape] at hText
      cases hPlain : e.plain b with
      | true =>
          rw [e.letter_of_plain hPlain] at hText
          simp only [List.cons_append,
            List.cons.injEq] at hText
          rcases prefix_of_text (e.mark_not_mem_body a)
            hText.2 with ⟨rest, hSplit⟩
          refine absurd ?_ (hFree a hUse hEscaped)
          refine ⟨[], rest, ?_⟩
          rw [escape, hSplit, hText.1, List.nil_append,
            List.cons_append]
      | false =>
          rw [e.letter_of_escaped hPlain, escape] at hText
          simp only [List.cons_append, List.cons.injEq,
            true_and] at hText
          have hBodies :=
            List.append_inj hText
              ((e.length_body b).trans
                (e.length_body a).symm)
          exact ⟨t, by rw [e.body_inj b a hBodies.1],
            hBodies.2⟩

/- A shorter string spells out no more escapes. -/
theorem SpellsNone.tail
    {inUse : α → Prop}
    {a : α}
    {s : List α}
    (hFree : e.SpellsNone inUse (a :: s)) :
    e.SpellsNone inUse s := by
  intro b hUse hEscaped hInfix
  exact hFree b hUse hEscaped (List.infix_cons hInfix)

/-
  Strings that spell out no escape have different texts
  unless they are equal.
-/
theorem text_inj
    {inUse : α → Prop}
    {s t : List α}
    (hUse : ∀ a ∈ s, inUse a)
    (hUse' : ∀ a ∈ t, inUse a)
    (hFree : e.SpellsNone inUse s)
    (hFree' : e.SpellsNone inUse t)
    (hText : e.text s = e.text t) :
    s = t := by
  induction s generalizing t with
  | nil =>
      cases t with
      | nil => rfl
      | cons b t =>
          rw [text_nil, text_cons] at hText
          cases hPlain : e.plain b with
          | true =>
              rw [e.letter_of_plain hPlain] at hText
              cases hText
          | false =>
              rw [e.letter_of_escaped hPlain] at hText
              cases hText
  | cons a s ih =>
      rw [List.forall_mem_cons] at hUse
      cases hPlain : e.plain a with
      | false =>
          have hHead : e.text t = e.escape a ++ e.text s := by
            rw [← hText, text_cons,
              e.letter_of_escaped hPlain]
          rcases head_of_escape hUse.1 hPlain hFree' hHead
            with ⟨rest, rfl, hRest⟩
          rw [ih hUse.2 (fun b hMem => hUse' b (by simp [hMem]))
            hFree.tail hFree'.tail hRest.symm]
      | true =>
          rw [text_cons, e.letter_of_plain hPlain] at hText
          cases t with
          | nil => cases hText
          | cons b t =>
              rw [List.forall_mem_cons] at hUse'
              cases hOther : e.plain b with
              | true =>
                  rw [text_cons, e.letter_of_plain hOther]
                    at hText
                  simp only [List.cons_append,
                    List.nil_append, List.cons.injEq] at hText
                  rw [hText.1, ih hUse.2 hUse'.2 hFree.tail
                    hFree'.tail hText.2]
              | false =>
                  have hHead :
                      e.text (a :: s) =
                        e.escape b ++ e.text t := by
                    rw [text_cons, e.letter_of_plain hPlain,
                      hText, text_cons,
                      e.letter_of_escaped hOther]
                  rcases head_of_escape hUse'.1 hOther hFree
                    hHead with ⟨rest, hSame, _⟩
                  cases hSame
                  rw [hPlain] at hOther
                  cases hOther

end Escaping

end Foundation

------------------------------------------------------------
-- Strings Recovered
------------------------------------------------------------

namespace Foundation

namespace Escaping

variable {α : Type}
variable (e : Escaping α)

/-
  A string can be recovered from its text exactly when it is
  plain, and spells out no escape.
-/
theorem recoverable_iff
    {inUse : α → Prop}
    {s : List α}
    (hPlainUse : ∀ a, e.plain a = true → inUse a)
    (hUse : ∀ a ∈ s, inUse a) :
    (∀ t, (∀ a ∈ t, inUse a) →
        e.text s = e.text t → s = t) ↔
      (∀ a ∈ s, e.plain a = true) ∧
        e.SpellsNone inUse s := by
  constructor
  · intro hRecover
    constructor
    · intro a hMem
      by_contra hNot
      have hEscaped : e.plain a = false := by
        simpa using hNot
      rcases List.append_of_mem hMem with
        ⟨before, after, rfl⟩
      apply e.spelt_out_ne hEscaped before after
      refine hRecover _ ?_
        (e.text_spelt_out hEscaped before after)
      intro c hIn
      rcases List.mem_append.mp hIn with hBefore | hRest
      · exact hUse c (by simp [hBefore])
      · rcases List.mem_append.mp hRest with
          hEscape | hAfter
        · exact hPlainUse c (e.plain_of_mem_escape hEscape)
        · exact hUse c (by simp [hAfter])
    · rintro a hInUse hEscaped ⟨before, after, hSplit⟩
      rw [List.append_assoc] at hSplit
      apply e.spelt_out_ne hEscaped before after
      rw [hSplit]
      refine (hRecover _ ?_ ?_).symm
      · intro c hIn
        rcases List.mem_append.mp hIn with hBefore | hRest
        · exact hUse c (by simp [← hSplit, hBefore])
        · rcases List.mem_cons.mp hRest with hSame | hAfter
          · rw [hSame]
            exact hInUse
          · exact hUse c (by simp [← hSplit, hAfter])
      · rw [← hSplit]
        exact (e.text_spelt_out hEscaped before after).symm
  · rintro ⟨hPlain, hFree⟩ t hUse' hText
    rw [e.text_of_plain hPlain] at hText
    have hOther : ∀ a ∈ t, e.plain a = true := by
      intro a hMem
      by_contra hNot
      have hEscaped : e.plain a = false := by
        simpa using hNot
      rcases List.append_of_mem hMem with
        ⟨before, after, rfl⟩
      apply hFree a (hUse' a hMem) hEscaped
      refine ⟨e.text before, e.text after, ?_⟩
      rw [hText, text_append, text_cons,
        e.letter_of_escaped hEscaped, List.append_assoc]
    rw [hText, e.text_of_plain hOther]

end Escaping

end Foundation
