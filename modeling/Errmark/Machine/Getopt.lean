import Errmark.Machine.CString

/-
  `getopt_long` as glibc has it, with an option string that
  starts with `+`: the scan ends at the first argument that
  is no option. It prints nothing, as `opterr` is 0.

  No short option takes an argument, and a long one takes
  one or none, which covers what a table here may hold. A
  `nextchar` that is NULL and one at a NUL are the same to
  the function, and are both the empty list.

  Key definitions include:
    * `OptionTable`
    * `Getopt`
    * `longMatch`
    * `processLongOption`
    * `getoptLong`
-/

------------------------------------------------------------
-- Options
------------------------------------------------------------

namespace Errmark

/- `struct option` without a flag: `val` is returned. -/
structure LongOption where
  name : String
  hasArg : Bool
  val : CInt
  deriving DecidableEq, Repr

/- The letters after the `+`, and the long options. -/
structure OptionTable where
  short : String
  long : List LongOption

namespace OptionTable

/- The character is one of the short options. -/
def isShort
    (table : OptionTable)
    (c : UInt8) : Bool :=
  c ∈ asciiBytes table.short

end OptionTable

/- What `getopt_long` keeps, and what it leaves behind. -/
structure Getopt where
  optind : Nat
  nextchar : List UInt8
  optarg : Option CString
  optopt : CInt
  deriving DecidableEq

/-
  The option with a name, or the one it abbreviates. Where
  it abbreviates two that differ, it is ambiguous, and
  treated like a name that is not known.
-/
def longMatch
    (table : OptionTable)
    (name : List UInt8) : Option LongOption :=
  match
    table.long.find? fun o => asciiBytes o.name = name with
  | some o => some o
  | none =>
      match
        table.long.filter fun o =>
          name.isPrefixOf (asciiBytes o.name) with
      | [] => none
      | o :: others =>
          if others.all fun p =>
              p.hasArg = o.hasArg ∧ p.val = o.val then
            some o
          else
            none

/- What stands before the first `=`, and what from it on. -/
def longName (arg : CString) : List UInt8 :=
  arg.bytes.takeWhile fun c => c ≠ 0x3d

/- What follows the name of a long option. -/
def afterName (arg : CString) : List UInt8 :=
  arg.bytes.dropWhile fun c => c ≠ 0x3d

/- The string after the `=`. -/
def longArg (arg : CString) : CString :=
  arg.stringAt ((longName arg).length + 1)

end Errmark

------------------------------------------------------------
-- getopt_long
------------------------------------------------------------

namespace Errmark

/- Returned for an option that is refused. -/
def questionMark : CInt := 0x3f

/- Returned when there is no further option. -/
def noOption : CInt := -1

/- An argument that starts with two dashes. -/
def processLongOption
    (table : OptionTable)
    (argv : List CString)
    (g : Getopt)
    (arg : CString) : CInt × Getopt :=
  let g := { g with optind := g.optind + 1, nextchar := [] }
  match longMatch table (longName arg) with
  | none => (questionMark, { g with optopt := 0 })
  | some o =>
      if afterName arg ≠ [] then
        if o.hasArg then
          (o.val, { g with optarg := some (longArg arg) })
        else
          (questionMark, { g with optopt := o.val })
      else if o.hasArg then
        match argv[g.optind]? with
        | some next =>
            (o.val,
              { g with
                optarg := some next
                optind := g.optind + 1 })
        | none => (questionMark, { g with optopt := o.val })
      else
        (o.val, g)

/- The next letter of an argument with one dash. -/
def shortOption
    (table : OptionTable)
    (g : Getopt)
    (c : UInt8)
    (rest : List UInt8) : CInt × Getopt :=
  let g :=
    { g with
      nextchar := rest
      optind := if rest = [] then g.optind + 1 else g.optind }
  if table.isShort c then
    (charToInt c, g)
  else
    (questionMark, { g with optopt := charToInt c })

/- `NONOPTION_P`: no dash, or nothing after it. -/
def isOperand (word : CString) : Bool :=
  word.char 0 ≠ 0x2d ∨ word.char 1 = 0

/-
  `getopt_long`, with `+` at the start of its short
  options.
-/
def getoptLong
    (table : OptionTable)
    (argv : List CString)
    (g : Getopt) : CInt × Getopt :=
  let g := { g with optarg := none }
  match g.nextchar with
  | c :: rest => shortOption table g c rest
  | [] =>
      match argv[g.optind]? with
      | none => (noOption, g)
      | some word =>
          if word.bytes = asciiBytes "--" then
            (noOption, { g with optind := g.optind + 1 })
          else if isOperand word then
            (noOption, g)
          else if word.char 1 = 0x2d then
            processLongOption table argv g (word.stringAt 2)
          else
            match word.bytes.drop 1 with
            | c :: rest => shortOption table g c rest
            -- Not reached: something follows the dash.
            | [] => (noOption, g)

/- The variables before the first call. -/
def Getopt.initial : Getopt where
  optind := 1
  nextchar := []
  optarg := none
  optopt := questionMark

end Errmark
