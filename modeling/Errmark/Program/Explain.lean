import Errmark.Program.RunProgram

/-
  How errors, signals and wait statuses are put in words:
  `decode-esym.c`, `decode-signal.c`, `explain-err.c`,
  `fshow-errno.c` and `fshow-wait-status.c`.

  The texts of `strerror_r` and of `_sys_siglist` are those
  of the C library, and parameters here. A result of none
  stands for a text that is not there: an assertion failed,
  or a buffer has no room for anything.

  Key definitions include:
    * `decodeEsymR`
    * `decodeSignalR`
    * `fshowErrno`
    * `fexplainErr`
    * `fshowWaitStatus`
-/

------------------------------------------------------------
-- Error Numbers
------------------------------------------------------------

namespace Errmark

/- `estr`: the symbols of error numbers. -/
def errnoTable : List (Option String) :=
  [none, some "EPERM", some "ENOENT", some "ESRCH",
    some "EINTR", some "EIO", some "ENXIO", some "E2BIG",
    some "ENOEXEC", some "EBADF", some "ECHILD",
    some "EAGAIN", some "ENOMEM", some "EACCES",
    some "EFAULT", some "ENOTBLK", some "EBUSY",
    some "EEXIST", some "EXDEV", some "ENODEV",
    some "ENOTDIR", some "EISDIR", some "EINVAL",
    some "ENFILE", some "EMFILE", some "ENOTTY",
    some "ETXTBSY", some "EFBIG", some "ENOSPC",
    some "ESPIPE", some "EROFS", some "EMLINK",
    some "EPIPE", some "EDOM", some "ERANGE",
    some "EDEADLK", some "ENAMETOOLONG", some "ENOLCK",
    some "ENOSYS", some "ENOTEMPTY", some "ELOOP", none,
    some "ENOMSG", some "EIDRM", some "ECHRNG",
    some "EL2NSYNC", some "EL3HLT", some "EL3RST",
    some "ELNRNG", some "EUNATCH", some "ENOCSI",
    some "EL2HLT", some "EBADE", some "EBADR",
    some "EXFULL", some "ENOANO", some "EBADRQC",
    some "EBADSLT", none, some "EBFONT", some "ENOSTR",
    some "ENODATA", some "ETIME", some "ENOSR",
    some "ENONET", some "ENOPKG", some "EREMOTE",
    some "ENOLINK", some "EADV", some "ESRMNT",
    some "ECOMM", some "EPROTO", some "EMULTIHOP",
    some "EDOTDOT", some "EBADMSG", some "EOVERFLOW",
    some "ENOTUNIQ", some "EBADFD", some "EREMCHG",
    some "ELIBACC", some "ELIBBAD", some "ELIBSCN",
    some "ELIBMAX", some "ELIBEXEC", some "EILSEQ",
    some "ERESTART", some "ESTRPIPE", some "EUSERS",
    some "ENOTSOCK", some "EDESTADDRREQ", some "EMSGSIZE",
    some "EPROTOTYPE", some "ENOPROTOOPT",
    some "EPROTONOSUPPORT", some "ESOCKTNOSUPPORT",
    some "EOPNOTSUPP", some "EPFNOSUPPORT",
    some "EAFNOSUPPORT", some "EADDRINUSE",
    some "EADDRNOTAVAIL", some "ENETDOWN",
    some "ENETUNREACH", some "ENETRESET",
    some "ECONNABORTED", some "ECONNRESET", some "ENOBUFS",
    some "EISCONN", some "ENOTCONN", some "ESHUTDOWN",
    some "ETOOMANYREFS", some "ETIMEDOUT",
    some "ECONNREFUSED", some "EHOSTDOWN",
    some "EHOSTUNREACH", some "EALREADY",
    some "EINPROGRESS", some "ESTALE", some "EUCLEAN",
    some "ENOTNAM", some "ENAVAIL", some "EISNAM",
    some "EREMOTEIO", some "EDQUOT", some "ENOMEDIUM",
    some "EMEDIUMTYPE", some "ECANCELED", some "ENOKEY",
    some "EKEYEXPIRED", some "EKEYREVOKED",
    some "EKEYREJECTED", some "EOWNERDEAD",
    some "ENOTRECOVERABLE", some "ERFKILL",
    some "EHWPOISON"]

/- `snprintf`, and what can be read from its buffer then. -/
def snprintf
    (sz : Nat)
    (text : String) : Option String :=
  if sz = 0 then none
  else some (String.ofList (text.toList.take (sz - 1)))

/- `decode_esym_r` -/
def decodeEsymR
    (bufsz : Nat)
    (err : CInt) : Option String :=
  let sym :=
    if 0 ≤ err.toInt ∧ err.toNat < errnoTable.length then
      errnoTable.getD err.toNat none
    else
      none
  match sym with
  | some sym => some sym
  | none => snprintf bufsz ("#" ++ toString err.toInt)

/- `fshow_errno`, which has 12 bytes for the symbol. -/
def fshowErrno
    (strerror : CInt → String)
    (msg : String)
    (err : CInt) : Option String :=
  (decodeEsymR 12 err).map fun esymp =>
    msg ++ toString err.toInt ++ "=" ++ esymp ++ "=" ++
      strerror err ++ ".\n"

/- `fexplain_err`, which has 32 bytes for it. -/
def fexplainErr
    (strerror : CInt → String)
    (err : CInt) : Option String :=
  (decodeEsymR 32 err).map fun esymp =>
    "    " ++ toString err.toInt ++ "=" ++ esymp ++ "='" ++
      strerror err ++ "'\n"

end Errmark

------------------------------------------------------------
-- Signals
------------------------------------------------------------

namespace Errmark

/- The constants of <signal.h>. -/
def nSig : Int := 65

/- `SIGRTMIN` -/
def sigRtMin : Int := 34

/- `SIGRTMAX` -/
def sigRtMax : Int := 64

/-
  `decode_signal_r`. The text of a signal that is not in the
  list has to be shorter than the buffer by two: `snprintf`
  is given one byte less than there are. Of no bytes at all
  it would be given the most there can be, and overrun them.
-/
def decodeSignalR
    (siglist : Nat → Option String)
    (sz : Nat)
    (sig : Int) : Option String :=
  let desc :=
    if 0 ≤ sig ∧ sig < nSig then siglist sig.toNat
    else none
  match desc with
  | some desc => some desc
  | none =>
      let text :=
        if sigRtMin ≤ sig ∧ sig ≤ sigRtMax then
          "Real-time signal " ++ toString (sig - sigRtMin)
        else
          "Unknown signal " ++ toString sig
      if text.length < sz - 1 then snprintf (sz - 1) text
      else none

end Errmark

------------------------------------------------------------
-- Wait Statuses
------------------------------------------------------------

namespace Errmark

/- `WTERMSIG` and `WIFEXITED` -/
def wTermSig (status : CInt) : Nat :=
  (status &&& 0x7f).toNat

/- `WIFEXITED` -/
def wIfExited (status : CInt) : Bool :=
  wTermSig status = 0

/- `WEXITSTATUS` -/
def wExitStatus (status : CInt) : Nat :=
  ((status &&& 0xff00).sshiftRight 8).toNat

/- `WIFSIGNALED`, with its cast to `signed char`. -/
def wIfSignaled (status : CInt) : Bool :=
  0 < ((((status &&& 0x7f) + 1).setWidth 8).sshiftRight
    1).toInt

/- `WCOREDUMP` and `WIFCONTINUED` -/
def wCoreDump (status : CInt) : Bool :=
  status &&& 0x80 ≠ 0

/- `WIFCONTINUED` -/
def wIfContinued (status : CInt) : Bool :=
  status = 0xffff

/- `fshow_wait_status`, which has 32 bytes for a signal. -/
def fshowWaitStatus
    (siglist : Nat → Option String)
    (name : Option String)
    (status : CInt) : Option String :=
  let head := name.getD "(null)" ++ " ...\n"
  if wIfExited status then
    some
      (head ++ "  exited, status=" ++
        toString (wExitStatus status) ++ "\n")
  else if wIfSignaled status then
    let sig := wTermSig status
    (decodeSignalR siglist 32 sig).map fun desc =>
      head ++ "  killed by signal " ++ toString sig ++
        " (" ++ desc ++ ")" ++
        (if wCoreDump status then " (core dumped)" else "") ++
        "\n"
  else if wIfStopped status then
    let sig := wStopSig status
    (decodeSignalR siglist 32 sig).map fun desc =>
      head ++ "  stopped by signal " ++ toString sig ++
        " (" ++ desc ++ ")\n"
  else if wIfContinued status then
    some (head ++ "  continued\n")
  else
    some
      (head ++ "  *** INTERNAL ERROR *** status=x" ++
        hexByteText status.toNat ++ "\n")

end Errmark
