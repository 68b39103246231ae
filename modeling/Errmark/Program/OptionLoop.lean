import Errmark.Foundation.Loops
import Errmark.Machine.Getopt
import Errmark.Program.Colors
import Errmark.Program.Main
import Errmark.Program.ParseMarkSpecs
import Errmark.Program.Sname

/-
  `main` of `errmark.c`, up to the call of
  `errmark_run_program`.

  A call that prints is kept with the variable its stream is
  taken from, and with the stream found there: the calls
  through a NULL stream are calls, too, but nothing can be
  said about what follows them. The same is true where
  `fshow_str` stores more than its buffer holds.

  Key definitions include:
    * `optionTable`
    * `Progress`
    * `takeOption`
    * `optionTurn`
    * `prepareCommand`
    * `mainBeforeRun`
-/

------------------------------------------------------------
-- Options
------------------------------------------------------------

namespace Errmark

/- A character constant, as the `int` it is. -/
def charCode (c : Char) : CInt :=
  BitVec.ofNat 32 c.toNat

namespace Opt

/- `enum opt` -/
def base : CInt := 0xf000

/- Each code is the one before it and 1. -/
def color : CInt := base + 1

/- `OPT_MARK` -/
def mark : CInt := color + 1

/- `OPT_COPY` -/
def copy : CInt := mark + 1

end Opt

/- `long_options` -/
def longOptions : List LongOption :=
  [⟨"help", false, charCode 'h'⟩,
    ⟨"version", false, charCode 'V'⟩,
    ⟨"verbose", false, charCode 'v'⟩,
    ⟨"debug", false, charCode 'd'⟩,
    ⟨"mark", true, Opt.mark⟩,
    ⟨"color", true, Opt.color⟩,
    ⟨"copy", true, Opt.copy⟩]

/- `+hVdv` and `long_options` -/
def optionTable : OptionTable where
  short := "hVdv"
  long := longOptions

/- `usage_text` -/
def usageText : String :=
  "Options:\n" ++
  "  --help|-h|-?     Show this help message and exit\n" ++
  "  --version        Show ush version information and exit\n" ++
  "  --verbose|-v     verbose\n" ++
  "  --debug|-d       debug\n" ++
  "  --mark|-m        <mark-specification>\n" ++
  "      Where mark-specification = fd:start:end.\n" ++
  "  --color          <color-name>\n" ++
  "  -c|copy          <filename>\n"

end Errmark

------------------------------------------------------------
-- Printing
------------------------------------------------------------

namespace Errmark

open Foundation

/- The variables that a stream is taken from. -/
inductive StreamVar where
  | stdout
  | stderr
  | errprintFh
  | dbgprintFh
  deriving DecidableEq, Repr

/- What is printed; the version texts are not spelt out. -/
inductive Message where
  | text (bytes : List UInt8)
  | programVersion
  deriving DecidableEq, Repr

/- A call that printed something, and where to. -/
structure Print where
  stream : StreamVar
  file : Option File
  message : Message
  deriving DecidableEq, Repr

/- The statics and the locals of `main`, and its calls. -/
structure Progress where
  programName : Option CString
  errprintFh : Option File
  dbgprintFh : Option File
  verbose : Bool
  debug : Bool
  marks : Marks
  copyFname : Option CString
  errCount : Nat
  prints : List Print

/- How `main` ends before it runs the program. -/
inductive MainHalt where
  | exit (code : Nat)
  | undefined
  deriving DecidableEq, Repr

namespace Progress

/- The value of a stream variable. -/
def file (o : Progress) : StreamVar → Option File
| .stdout => some .stdout
| .stderr => some .stderr
| .errprintFh => o.errprintFh
| .dbgprintFh => o.dbgprintFh

/- One call, which goes wrong if its stream is NULL. -/
def print
    (o : Progress)
    (call : StreamVar × Message) :
    Outcome Progress MainHalt :=
  let file := o.file call.1
  let o :=
    { o with
      prints := o.prints ++ [⟨call.1, file, call.2⟩] }
  if file = none then .halt .undefined o else .next o

/- Print one text after the other. -/
def printAll
    (o : Progress)
    (calls : List (StreamVar × Message)) :
    Outcome Progress MainHalt :=
  run print o calls

/- The marks are the statics of `mark-write.c`. -/
def setMarks
    (o : Progress)
    (marks : Marks) : Progress :=
  { o with marks := marks }

/- Some calls, and then `exit`. -/
def exitAfter
    (o : Progress)
    (calls : List (StreamVar × Message))
    (code : Nat) : Outcome Progress MainHalt :=
  (o.printAll calls).andThen fun o => .halt (.exit code) o

end Progress

/- `eprint` and `eprintf` -/
def eprint (text : List UInt8) : StreamVar × Message :=
  (.errprintFh, .text text)

/- `dbg_printf`, where `debug` is set. -/
def dbgPrint (text : List UInt8) : StreamVar × Message :=
  (.dbgprintFh, .text text)

/- `%s`, where glibc has a text for NULL. -/
def stringText (str : Option CString) : List UInt8 :=
  match str with
  | none => asciiBytes "(null)"
  | some str => str.bytes

/- `fshow_str` stores more than its buffer holds. -/
def overruns (str : CString) : Bool :=
  str.bytes.any fun b =>
    dbufSize < (storedInDbuf b).length

/- A call that shows some strings through `fshow_str`. -/
def Progress.printShown
    (o : Progress)
    (call : StreamVar × Message)
    (strs : List CString) : Outcome Progress MainHalt :=
  (o.print call).andThen fun o =>
    if strs.any overruns then .halt .undefined o else .next o

end Errmark

------------------------------------------------------------
-- Handling An Option
------------------------------------------------------------

namespace Errmark

open Foundation

/- `usage` -/
def usageCalls (o : Progress) : List (StreamVar × Message) :=
  [eprint
      (asciiBytes "usage: " ++ stringText o.programName ++
        asciiBytes " [ <options> ]\n"),
    eprint (asciiBytes usageText)]

/- Debug output about what `getopt_long` returned. -/
def showOptc
    (o : Progress)
    (optc : CInt) : Outcome Progress MainHalt :=
  if o.debug then
    o.printAll
      (dbgPrint (asciiBytes ("optc=0x" ++ hexText optc.toNat)) ::
        (if 0 ≤ optc.toInt ∧ optc.toInt ≤ 127 ∧
            isPrint optc then
          [dbgPrint
            (asciiBytes "='" ++
              [UInt8.ofBitVec (optc.setWidth 8)] ++
              asciiBytes "'")]
        else []) ++
        [eprint (asciiBytes "\n")])
  else
    .next o

/-
  `opt_mark`. With `debug` set, `parse_mark_specs` prints
  the marks that it found, after it set them.
-/
def runOptMark
    (o : Progress)
    (markSpecs : CString) : Outcome Progress MainHalt :=
  let parsed := parseMarkSpecs o.debug o.marks markSpecs
  let done := optMark o.verbose o.debug o.marks markSpecs
  let o := o.setMarks done.marks
  (if parsed.printed ≠ [] then
    o.printShown (dbgPrint parsed.printed)
      (parsed.dups.map fun dup =>
        strndup markSpecs dup.1 dup.2)
  else
    .next o).andThen fun o =>
      (if done.printed ≠ [] then
        o.printShown (.stderr, .text done.printed)
          [markSpecs]
      else
        .next o).andThen fun o =>
          match done.exit with
          | some code => .halt (.exit code) o
          | none => .next o

/- What `opt_color` prints for a color it does not know. -/
def unknownColor (colorName : Option CString) : List UInt8 :=
  asciiBytes "Unknown color, '" ++ stringText colorName ++
    asciiBytes "'.\nKnown color names are:\n    " ++
    showColorTable normalColors ++ asciiBytes "\n    " ++
    showColorTable brightColors ++ asciiBytes "\n"

/- `opt_color` -/
def optColor
    (o : Progress)
    (colorName : Option CString) :
    Outcome Progress MainHalt :=
  match lookupColor colorName with
  | none =>
      o.exitAfter
        [(.stderr, .text (unknownColor colorName))] 2
  | some ent =>
      let set := setMark o.marks 2 ent.escStart ent.escEnd
      if set.value then
        .next (o.setMarks set.marks)
      else
        o.exitAfter [(.stderr, .text set.printed)] 2

/- `is_long_option` -/
def isLongOption (s : CString) : Bool :=
  s.char 0 = 0x2d ∧ s.char 1 = 0x2d

/- `vischar_r`, with the size of its buffer. -/
def visCharR (sz : Nat) (c : CInt) : List UInt8 :=
  if isPrint c then [UInt8.ofBitVec (c.setWidth 8)]
  else (escapeText c).take (sz - 1)

/- The branch for an option that was refused. -/
def unknownOption
    (o : Progress)
    (optopt : CInt)
    (word : CString) : Outcome Progress MainHalt :=
  (o.printAll
    [eprint (stringText o.programName),
      eprint (asciiBytes ": "),
      if isLongOption word then
        eprint
          (asciiBytes "unknown long option, '" ++
            word.bytes ++ asciiBytes "'\n")
      else
        eprint
          (asciiBytes "unknown short option, '" ++
            visCharR 10 optopt ++
            asciiBytes "'\n")]).andThen fun o =>
      .next { o with errCount := o.errCount + 1 }

/-
  The body of the loop once `getopt_long` has returned an
  option: its value, the variables it set, and the word that
  it started from. `rv` is 0 in all cases.
-/
def takeOption
    (o : Progress)
    (optc optopt : CInt)
    (optarg word : Option CString) :
    Outcome Progress MainHalt :=
  (showOptc o optc).andThen fun o =>
    let optc :=
      if optc = charCode '?' ∧ optopt = charCode '?' then
        charCode 'h'
      else
        optc
    if optc = charCode 'V' then
      o.exitAfter [(.stdout, .programVersion)] 0
    else if optc = charCode 'h' then
      o.exitAfter
        [(.stdout, .text (asciiBytes usageText))] 0
    else if optc = charCode 'd' then
      .next { o with debug := true }
    else if optc = charCode 'v' then
      .next { o with verbose := true }
    else if optc = Opt.mark then
      match optarg with
      | some markSpecs => runOptMark o markSpecs
      | none => .halt .undefined o
    else if optc = Opt.color then
      optColor o optarg
    else if optc = Opt.copy then
      .next { o with copyFname := optarg }
    else if optc = charCode '?' then
      match word with
      | some word => unknownOption o optopt word
      | none => .halt .undefined o
    else
      o.exitAfter
        [eprint
          (stringText o.programName ++
            asciiBytes
              ": INTERNAL ERROR: unknown option, '" ++
            [UInt8.ofBitVec (optopt.setWidth 8)] ++
            asciiBytes "'\n")] 2

/- More than ten errors end the loop. -/
def tooManyErrors
    (o : Progress) : Outcome Progress MainHalt :=
  (o.printAll
    [eprint
      (stringText o.programName ++
        asciiBytes ": Too many option errors.\n")]).andThen
    fun o => .leave o

end Errmark

------------------------------------------------------------
-- The Loop
------------------------------------------------------------

namespace Errmark

open Foundation

/- The state of `main` and that of `getopt_long`. -/
structure MainState where
  getopt : Getopt
  progress : Progress

/- The body of `while (true)`. -/
def optionTurn
    (argv : List CString)
    (s : MainState) : Outcome MainState MainHalt :=
  if s.progress.errCount > 10 then
    (tooManyErrors s.progress).map (MainState.mk s.getopt)
  else
    let thisOptionOptind :=
      if s.getopt.optind ≠ 0 then s.getopt.optind else 1
    let (optc, getopt) :=
      getoptLong optionTable argv s.getopt
    if optc = noOption then
      .leave { s with getopt := getopt }
    else
      (takeOption s.progress optc getopt.optopt
        getopt.optarg argv[thisOptionOptind]?).map
          (MainState.mk getopt)

/- What `main` finds outside. -/
structure Environment where
  stdoutId : Option Fid
  stderrId : Option Fid
  canOpen : CString → Bool

/- `program_name`, of the first argument if there is one. -/
def programNameOf (argv : List CString) : Option CString :=
  match argv.head? with
  | none => none
  | some path =>
      match sname (some path) with
      | none => none
      | some s => some (path.stringAt s)

/- Before the loop. All statics are zero at first. -/
def Progress.initial
    (env : Environment)
    (argv : List CString) : Progress where
  programName := programNameOf argv
  errprintFh := some (setEprintFh env.stdoutId env.stderrId)
  dbgprintFh := none
  verbose := false
  debug := false
  marks := ⟨none, none, none, none⟩
  copyFname := none
  errCount := 0
  prints := []

/- One iteration for each character, and one to leave. -/
def iterations (argv : List CString) : Nat :=
  (argv.map CString.length).sum + 1

/- The loop over `getopt_long`. -/
def optionLoop
    (env : Environment)
    (argv : List CString) : Outcome MainState MainHalt :=
  loop (optionTurn argv) (iterations argv)
    ⟨Getopt.initial, Progress.initial env argv⟩

end Errmark

------------------------------------------------------------
-- main
------------------------------------------------------------

namespace Errmark

open Foundation

/- `fshow_str_array` -/
def fshowStrArray (av : List CString) : List UInt8 :=
  let maxw := (toString av.length).length
  av.zipIdx.flatMap fun (str, i) =>
    asciiBytes
        (String.ofList
          (List.leftpad maxw ' ' (toString i).toList)) ++
      asciiBytes ") [" ++ fshowStr str ++ asciiBytes "]\n"

/- The rest of the arguments, which `--verbose` shows. -/
def showArguments
    (o : Progress)
    (args : List CString) : Outcome Progress MainHalt :=
  if o.verbose then
    o.printShown (.stderr, .text (fshowStrArray args)) args
  else
    .next o

/- The file for a copy is opened if it was named. -/
def openCopy
    (env : Environment)
    (o : Progress) : Outcome Progress MainHalt :=
  match o.copyFname with
  | none => .next o
  | some fname =>
      if env.canOpen fname then
        .next o
      else
        o.exitAfter
          [eprint
            (asciiBytes "open('" ++ fname.bytes ++
              asciiBytes "', \"w\") failed.\n")] 2

/-
  `main` between its loop and `errmark_run_program`, given
  the arguments from `argv[optind]` on.
-/
def prepareCommand
    (env : Environment)
    (argv args : List CString)
    (o : Progress) : Outcome Progress MainHalt :=
  if o.errCount ≠ 0 then
    o.exitAfter (usageCalls o) 1
  else
    let o := { o with verbose := o.verbose || o.debug }
    if argv.length = 0 then
      o.exitAfter
        (eprint
            (stringText o.programName ++
              asciiBytes
                ": Must supply at least a command name.\n") ::
          usageCalls o) 2
    else
      (showArguments o args).andThen fun o =>
        (openCopy env o).andThen fun o => .leave o

/- It leaves where it calls `errmark_run_program`. -/
def mainBeforeRun
    (env : Environment)
    (argv : List CString) : Outcome MainState MainHalt :=
  match optionLoop env argv with
  | .leave s =>
      (prepareCommand env argv (argv.drop s.getopt.optind)
        s.progress).map (MainState.mk s.getopt)
  | .next s => .next s
  | .halt e s => .halt e s

/- `cmd` as it is then. -/
def MainState.options
    (argv : List CString)
    (s : MainState) : Options where
  verbose := s.progress.verbose
  debug := s.progress.debug
  copyFh := s.progress.copyFname.isSome
  cmdPath := argv[s.getopt.optind]?.map CString.text
  cmdName :=
    argv[s.getopt.optind]?.bind fun path =>
      (sname (some path)).map fun p =>
        (path.stringAt p).text
  argv := (argv.drop s.getopt.optind).map CString.text

end Errmark
