import Errmark.Machine.Getopt
import Mathlib.Algebra.Ring.Nat

/-
  What a command line says, apart from how it is scanned.

  A word with one dash has an option for each letter, one
  with two dashes is a long option, and may have the next
  word as its argument. The words from the first one that is
  no option on, or after `--`, are the operands.

  `getoptLong` goes through such a reading option by option:
  this is what the rest of the development knows of it.

  Key definitions include:
    * `Met`
    * `CommandLine`
    * `readWords`
    * `Getopt.At`
    * `Getopt.Yields`

  Key theorems include:
    * `Getopt.At.yields`
    * `forall_met`
    * `inTable_of_mem_met`
    * `length_met_le`
-/

------------------------------------------------------------
-- Readings
------------------------------------------------------------

namespace Errmark

/-
  An option of the table with its argument, or one that is
  refused, with what `optopt` says and the word it is in.
-/
inductive Met where
  | option (val : CInt) (arg : Option CString)
  | refused (optopt : CInt) (word : CString)
  deriving DecidableEq

/- The options met, and the words that remain. -/
structure CommandLine where
  met : List Met
  operands : List CString

namespace CommandLine

/- An option that was met before the others. -/
def prepend
    (first : List Met)
    (r : CommandLine) : CommandLine :=
  ⟨first ++ r.met, r.operands⟩

end CommandLine

/- One letter of a word with one dash. -/
def readShort
    (table : OptionTable)
    (word : CString)
    (c : UInt8) : Met :=
  if table.isShort c then .option (charToInt c) none
  else .refused (charToInt c) word

/-
  A word with two dashes, and whether it takes the next word
  as its argument.
-/
def readLong
    (table : OptionTable)
    (word : CString)
    (next : Option CString) : Met × Bool :=
  let arg := word.stringAt 2
  match longMatch table (longName arg) with
  | none => (.refused 0 word, false)
  | some o =>
      if afterName arg ≠ [] then
        if o.hasArg then
          (.option o.val (some (longArg arg)), false)
        else
          (.refused o.val word, false)
      else if o.hasArg then
        match next with
        | some w => (.option o.val (some w), true)
        | none => (.refused o.val word, false)
      else
        (.option o.val none, false)

/-
  The reading of some words, of which the first one may be
  taken already, as the argument of an option before it.
-/
def readWords
    (table : OptionTable) :
    Bool → List CString → CommandLine
| _, [] => ⟨[], []⟩
| true, _ :: words => readWords table false words
| false, word :: words =>
    if word.bytes = asciiBytes "--" then
      ⟨[], words⟩
    else if isOperand word then
      ⟨[], word :: words⟩
    else if word.char 1 = 0x2d then
      let (m, taken) := readLong table word words.head?
      (readWords table taken words).prepend [m]
    else
      (readWords table false words).prepend
        ((word.bytes.drop 1).map (readShort table word))

end Errmark

------------------------------------------------------------
-- Scanning A Command Line
------------------------------------------------------------

namespace Errmark

/-
  Where a scan is: between two words, or within the letters
  of one. The reading is that of what is still to be scanned.
-/
inductive Getopt.At
    (table : OptionTable)
    (argv : List CString) :
    Getopt → CommandLine → Prop where
  | between
      (g : Getopt)
      (hNext : g.nextchar = []) :
      At table argv g
        (readWords table false (argv.drop g.optind))
  | within
      (g : Getopt)
      (word : CString)
      (words : List CString)
      (hNext : g.nextchar ≠ [])
      (hDrop : argv.drop g.optind = word :: words) :
      At table argv g
        ((readWords table false words).prepend
          (g.nextchar.map (readShort table word)))

/- What `getopt_long` returns for an option. -/
def Met.optc : Met → CInt
| .option val _ => val
| .refused _ _ => questionMark

/-
  The variables after the call that returned an option: the
  argument, or what is refused and in which word.
-/
def Met.ToldBy
    (argv : List CString)
    (before after : Getopt) : Met → Prop
| .option _ arg => after.optarg = arg
| .refused optopt word =>
    after.optopt = optopt ∧
      argv[before.optind]? = some word

/- An option that the table can give rise to. -/
def Met.InTable (table : OptionTable) : Met → Prop
| .option val none =>
    (∃ c, table.isShort c = true ∧ val = charToInt c) ∨
      ∃ o ∈ table.long, o.hasArg = false ∧ val = o.val
| .option val (some _) =>
    ∃ o ∈ table.long, o.hasArg = true ∧ val = o.val
| .refused _ _ => True

end Errmark

------------------------------------------------------------
-- One Call
------------------------------------------------------------

namespace Errmark

variable {table : OptionTable}
variable {argv : List CString}
variable {g : Getopt}

/- The word at an index, and those that follow it. -/
theorem getElem?_of_drop
    {i : Nat}
    {word : CString}
    {words : List CString}
    (hDrop : argv.drop i = word :: words) :
    argv[i]? = some word ∧
      argv.drop (i + 1) = words ∧
      argv[i + 1]? = words.head? := by
  have hTail : argv.drop (i + 1) = words := by
    rw [← List.drop_drop, hDrop]
    rfl
  refine ⟨?_, hTail, ?_⟩
  · rw [← List.head?_drop, hDrop]
    rfl
  · rw [← List.head?_drop, hTail]

/- Between two words, all that is left is to be read. -/
theorem Getopt.At.of_drop
    {words : List CString}
    (hNext : g.nextchar = [])
    (hDrop : argv.drop g.optind = words) :
    g.At table argv (readWords table false words) := by
  rw [← hDrop]
  exact .between g hNext

/- A letter is read, wherever it is found. -/
theorem shortOption_spec
    {word : CString}
    {words : List CString}
    (hDrop : argv.drop g.optind = word :: words)
    (before : Getopt)
    (hBefore : before.optind = g.optind)
    (hArg : g.optarg = none)
    (c : UInt8)
    (rest : List UInt8) :
    ∃ g',
      shortOption table g c rest =
          ((readShort table word c).optc, g') ∧
        (readShort table word c).ToldBy argv before g' ∧
        g'.At table argv
          ((readWords table false words).prepend
            (rest.map (readShort table word))) := by
  rcases getElem?_of_drop hDrop with ⟨hWord, hWords, _⟩
  have hAt :
      ∀ optopt,
        Getopt.At table argv
          { g with
            nextchar := rest
            optind :=
              if rest = [] then g.optind + 1 else g.optind
            optopt := optopt }
          ((readWords table false words).prepend
            (rest.map (readShort table word))) := by
    intro optopt
    by_cases hNil : rest = []
    · simp only [hNil, if_true, List.map_nil]
      exact Getopt.At.of_drop rfl hWords
    · simp only [if_neg hNil]
      exact Getopt.At.within _ word words hNil hDrop
  unfold shortOption readShort
  cases hShort : table.isShort c with
  | true => exact ⟨_, rfl, hArg, hAt g.optopt⟩
  | false =>
      refine ⟨_, rfl, ⟨rfl, ?_⟩, hAt (charToInt c)⟩
      rw [hBefore]
      exact hWord

/- A word with two dashes is read. -/
theorem processLongOption_spec
    {word : CString}
    {words : List CString}
    (hDrop : argv.drop g.optind = word :: words)
    (before : Getopt)
    (hBefore : before.optind = g.optind)
    (hArg : g.optarg = none) :
    ∃ g',
      processLongOption table argv g (word.stringAt 2) =
          ((readLong table word words.head?).1.optc, g') ∧
        (readLong table word words.head?).1.ToldBy argv
          before g' ∧
        g'.At table argv
          (readWords table
            (readLong table word words.head?).2 words) := by
  rcases getElem?_of_drop hDrop with
    ⟨hWord, hWords, hNext⟩
  rw [← hBefore] at hWord
  have hAt :
      ∀ optarg optopt,
        Getopt.At table argv
          { g with
            nextchar := []
            optind := g.optind + 1
            optarg := optarg
            optopt := optopt }
          (readWords table false words) := by
    intro optarg optopt
    exact Getopt.At.of_drop rfl hWords
  simp only [processLongOption, readLong]
  cases hMatch :
      longMatch table (longName (word.stringAt 2)) with
  | none => exact ⟨_, rfl, ⟨rfl, hWord⟩, hAt _ _⟩
  | some o =>
      by_cases hAfter : afterName (word.stringAt 2) = []
      · cases hHas : o.hasArg with
        | false =>
            simp only [ne_eq, hAfter, hHas,
              not_true_eq_false, Bool.false_eq_true,
              if_false]
            exact ⟨_, rfl, hArg, hAt _ _⟩
        | true =>
            simp only [ne_eq, hAfter, hHas,
              not_true_eq_false, if_true, if_false, hNext]
            cases words with
            | nil => exact ⟨_, rfl, ⟨rfl, hWord⟩, hAt _ _⟩
            | cons w words =>
                have hRest := (getElem?_of_drop hWords).2.1
                exact
                  ⟨_, rfl, rfl, Getopt.At.of_drop rfl hRest⟩
      · cases hHas : o.hasArg with
        | true =>
            simp only [ne_eq, hAfter, hHas,
              not_false_eq_true, if_true]
            exact ⟨_, rfl, rfl, hAt _ _⟩
        | false =>
            simp only [ne_eq, hAfter, hHas,
              not_false_eq_true, if_true,
              Bool.false_eq_true, if_false]
            exact ⟨_, rfl, ⟨rfl, hWord⟩, hAt _ _⟩

/- What a word stands for decides how it is read. -/
theorem readWords_cons_eq
    (word : CString)
    (words : List CString) :
    readWords table false (word :: words) =
      if word.bytes = asciiBytes "--" then
        ⟨[], words⟩
      else if isOperand word then
        ⟨[], word :: words⟩
      else if word.char 1 = 0x2d then
        (readWords table
          (readLong table word words.head?).2 words).prepend
            [(readLong table word words.head?).1]
      else
        (readWords table false words).prepend
          ((word.bytes.drop 1).map
            (readShort table word)) := by
  rw [readWords]

/- Something follows the dash of a word with options. -/
theorem letters_of_option
    {word : CString}
    (hOption : isOperand word = false) :
    ∃ c rest, word.bytes.drop 1 = c :: rest := by
  cases hDrop : word.bytes.drop 1 with
  | cons c rest => exact ⟨c, rest, rfl⟩
  | nil =>
      have hShort : word.bytes.length ≤ 1 :=
        List.drop_eq_nil_iff.mp hDrop
      have hNul : word.char 1 = 0 := by
        simp [CString.char, hShort]
      simp [isOperand, hNul] at hOption

end Errmark

------------------------------------------------------------
-- getopt_long Follows The Reading
------------------------------------------------------------

namespace Errmark

/-
  The next call returns the first option of the reading, and
  the rest is read from then on. If there is none, the scan
  is at the operands after the call.
-/
def Getopt.Yields
    (table : OptionTable)
    (argv : List CString)
    (g : Getopt) : CommandLine → Prop
| ⟨[], operands⟩ =>
    ∃ g',
      getoptLong table argv g = (noOption, g') ∧
        argv.drop g'.optind = operands
| ⟨m :: ms, operands⟩ =>
    ∃ g',
      getoptLong table argv g = (m.optc, g') ∧
        m.ToldBy argv g g' ∧
        g'.At table argv ⟨ms, operands⟩

variable {table : OptionTable}
variable {argv : List CString}
variable {g : Getopt}

/- The call that finds no more words. -/
theorem yields_of_no_words
    (hNext : g.nextchar = [])
    (hDrop : argv.drop g.optind = []) :
    g.Yields table argv (readWords table false []) := by
  have hNone : argv[g.optind]? = none := by
    rw [← List.head?_drop, hDrop]
    rfl
  simp only [readWords, Getopt.Yields, getoptLong, hNext,
    hNone]
  exact ⟨_, rfl, hDrop⟩

/- The call that looks at the next word. -/
theorem yields_of_word
    {word : CString}
    {words : List CString}
    (hNext : g.nextchar = [])
    (hDrop : argv.drop g.optind = word :: words) :
    g.Yields table argv
      (readWords table false (word :: words)) := by
  rcases getElem?_of_drop hDrop with ⟨hWord, hWords, _⟩
  rw [readWords_cons_eq]
  by_cases hDashes : word.bytes = asciiBytes "--"
  · simp only [if_pos hDashes, Getopt.Yields, getoptLong,
      hNext, hWord]
    exact ⟨_, rfl, hWords⟩
  by_cases hOperand : isOperand word = true
  · simp only [if_neg hDashes, if_pos hOperand,
      Getopt.Yields, getoptLong, hNext, hWord]
    exact ⟨_, rfl, hDrop⟩
  by_cases hLong : word.char 1 = 0x2d
  · simp only [if_neg hDashes, if_neg hOperand,
      if_pos hLong, CommandLine.prepend, List.singleton_append,
      Getopt.Yields, getoptLong, hNext, hWord]
    exact
      processLongOption_spec
        (g := { g with optarg := none }) hDrop g rfl rfl
  · rcases letters_of_option (by simpa using hOperand) with
      ⟨c, rest, hLetters⟩
    simp only [if_neg hDashes, if_neg hOperand,
      if_neg hLong, hLetters, List.map_cons,
      CommandLine.prepend, List.cons_append, Getopt.Yields,
      getoptLong, hNext, hWord]
    exact
      shortOption_spec
        (g := { g with optarg := none }) hDrop g rfl rfl
        c rest

/- Wherever a scan is, the next call follows its reading. -/
theorem Getopt.At.yields
    {r : CommandLine}
    (hAt : g.At table argv r) :
    g.Yields table argv r := by
  cases hAt with
  | within word words hNext hDrop =>
      cases hChars : g.nextchar with
      | nil => exact absurd hChars hNext
      | cons c rest =>
          simp only [List.map_cons, CommandLine.prepend,
            List.cons_append, Getopt.Yields, getoptLong,
            hChars]
          exact
            shortOption_spec
              (g := { g with optarg := none })
              hDrop g rfl rfl c rest
  | between hNext =>
      cases hDrop : argv.drop g.optind with
      | nil => exact yields_of_no_words hNext hDrop
      | cons word words => exact yields_of_word hNext hDrop

end Errmark

------------------------------------------------------------
-- The Index Of The Next Word
------------------------------------------------------------

namespace Errmark

/- `optind` never goes back. -/
theorem optind_le_shortOption
    (table : OptionTable)
    (g : Getopt)
    (c : UInt8)
    (rest : List UInt8) :
    g.optind ≤ (shortOption table g c rest).2.optind := by
  simp only [shortOption]
  split <;> split <;> simp

/- A long option never moves the index back. -/
theorem optind_le_processLongOption
    (table : OptionTable)
    (argv : List CString)
    (g : Getopt)
    (arg : CString) :
    g.optind ≤
      (processLongOption table argv g arg).2.optind := by
  simp only [processLongOption]
  split
  · simp
  · split
    · split <;> simp
    · split
      · split
        · exact Nat.le_add_right g.optind 2
        · simp
      · simp

/- Nor does any other call of `getopt_long`. -/
theorem optind_le_getoptLong
    (table : OptionTable)
    (argv : List CString)
    (g : Getopt) :
    g.optind ≤ (getoptLong table argv g).2.optind := by
  simp only [getoptLong]
  split
  · exact
      optind_le_shortOption table { g with optarg := none }
        _ _
  · split
    · simp
    · split_ifs
      · simp
      · simp
      · exact
          optind_le_processLongOption table argv
            { g with optarg := none } _
      · split
        · exact
            optind_le_shortOption table
              { g with optarg := none } _ _
        · simp

end Errmark

------------------------------------------------------------
-- What A Reading Holds
------------------------------------------------------------

namespace Errmark

variable {table : OptionTable}

/- Every option comes from the table, or is refused. -/
theorem inTable_readShort
    (word : CString)
    (c : UInt8) :
    (readShort table word c).InTable table := by
  unfold readShort
  cases hShort : table.isShort c with
  | true => exact Or.inl ⟨c, hShort, rfl⟩
  | false => trivial

/- A long option that matches is in the table. -/
theorem mem_of_longMatch
    {name : List UInt8}
    {o : LongOption}
    (hMatch : longMatch table name = some o) :
    o ∈ table.long := by
  unfold longMatch at hMatch
  split at hMatch
  · next hFind =>
      cases hMatch
      exact List.mem_of_find?_eq_some hFind
  · next hFind =>
      split at hMatch
      · cases hMatch
      · next first others hFilter =>
          split at hMatch
          · cases hMatch
            have hMem : o ∈ o :: others := by simp
            rw [← hFilter] at hMem
            exact (List.mem_filter.mp hMem).1
          · cases hMatch

/- A long option is met with a value of the table. -/
theorem inTable_readLong
    (word : CString)
    (next : Option CString) :
    (readLong table word next).1.InTable table := by
  simp only [readLong]
  split
  · trivial
  · next o hMatch =>
      have hMem := mem_of_longMatch hMatch
      split_ifs with hAfter hHas hHas
      · exact ⟨o, hMem, hHas, rfl⟩
      · trivial
      · cases next with
        | none => trivial
        | some w => exact ⟨o, hMem, hHas, rfl⟩
      · exact Or.inr ⟨o, hMem, by simpa using hHas, rfl⟩

/-
  What holds of the options of each word holds of all of a
  reading. An argument is a part of the words, too.
-/
theorem forall_met
    {P : Met → Prop}
    {words : List CString}
    (hShort :
      ∀ word ∈ words, ∀ c, P (readShort table word c))
    (hLong :
      ∀ word ∈ words, ∀ next,
        (∀ w, next = some w → w ∈ words) →
        P (readLong table word next).1)
    (taken : Bool) :
    ∀ m ∈ (readWords table taken words).met, P m := by
  induction words generalizing taken with
  | nil =>
      intro m hMem
      cases taken <;> cases hMem
  | cons word words ih =>
      have hRest :
          ∀ taken,
            ∀ m ∈ (readWords table taken words).met,
              P m := by
        apply ih
        · intro word' hMem
          exact hShort word' (List.mem_cons_of_mem _ hMem)
        · intro word' hMem next hNext
          apply hLong word' (List.mem_cons_of_mem _ hMem)
          intro w hSome
          exact List.mem_cons_of_mem _ (hNext w hSome)
      intro m hMem
      cases taken with
      | true => exact hRest false m hMem
      | false =>
          rw [readWords_cons_eq] at hMem
          split_ifs at hMem
          · cases hMem
          · cases hMem
          · rcases List.mem_cons.mp hMem with hFirst | hLater
            · rw [hFirst]
              apply hLong word List.mem_cons_self
              intro w hSome
              exact List.mem_cons_of_mem _
                (List.mem_of_head? hSome)
            · exact hRest _ m hLater
          · rcases List.mem_append.mp hMem with
              hFirst | hLater
            · rcases List.mem_map.mp hFirst with
                ⟨c, _, rfl⟩
              exact hShort word List.mem_cons_self c
            · exact hRest _ m hLater

/- So is every option of a command line. -/
theorem inTable_of_mem_met
    {taken : Bool}
    {words : List CString}
    {m : Met}
    (hMem : m ∈ (readWords table taken words).met) :
    m.InTable table :=
  forall_met (fun word _ => inTable_readShort word)
    (fun word _ next _ => inTable_readLong word next)
    taken m hMem

/- There is no more than one option for each character. -/
theorem length_met_le
    (taken : Bool)
    (words : List CString) :
    (readWords table taken words).met.length ≤
      (words.map CString.length).sum := by
  induction words generalizing taken with
  | nil => cases taken <;> exact Nat.le_refl 0
  | cons word words ih =>
      rw [List.map_cons, List.sum_cons]
      cases taken with
      | true =>
          rw [readWords]
          exact Nat.le_add_left_of_le (ih false)
      | false =>
          rw [readWords_cons_eq]
          split_ifs with hDashes hOperand hLong
          · exact Nat.zero_le _
          · exact Nat.zero_le _
          · have hWord : 1 ≤ word.length := by
              rcases letters_of_option
                (by simpa using hOperand) with
                ⟨c, rest, hLetters⟩
              have hLength := congrArg List.length hLetters
              simp only [List.length_drop, List.length_cons]
                at hLength
              rw [CString.length]
              omega
            have hRest :=
              ih (readLong table word words.head?).2
            simp only [CommandLine.prepend, List.length_append,
              List.length_singleton]
            omega
          · have hRest := ih false
            simp only [CommandLine.prepend, List.length_append,
              List.length_map, List.length_drop,
              CString.length]
            omega

end Errmark
