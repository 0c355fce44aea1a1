import SpeechRom.Attempt
import SpeechRom.Files.Fault

/-!
# Programs that are run

An encoder may be a program of its own.  It is started with arguments on a
system in some state and may do with that system whatever it likes; what is seen
of it in the end is how it ended and what it wrote.
-/

namespace SpeechRom.Encoding

/-- How a program ends: with a code, or by a signal, after which its memory may have been dumped. -/
inductive ExitStatus where
  | exited (code : Nat)
  | signalled (signal : Nat) (dumped : Bool)
  deriving DecidableEq, Repr

/-- The signals by number, with their names without the leading `SIG`. -/
def signalNames : List (Nat × String) :=
  [(1, "HUP"), (2, "INT"), (3, "QUIT"), (4, "ILL"), (5, "TRAP"), (6, "ABRT"), (7, "BUS"),
   (8, "FPE"), (9, "KILL"), (10, "USR1"), (11, "SEGV"), (12, "USR2"), (13, "PIPE"),
   (14, "ALRM"), (15, "TERM"), (16, "STKFLT"), (17, "CHLD"), (18, "CONT"), (19, "STOP"),
   (20, "TSTP"), (21, "TTIN"), (22, "TTOU"), (23, "URG"), (24, "XCPU"), (25, "XFSZ"),
   (26, "VTALRM"), (27, "PROF"), (28, "WINCH"), (29, "IO"), (30, "PWR"), (31, "SYS")]

namespace ExitStatus

/-- Whether the program reports success. -/
def isSuccess : ExitStatus → Bool
  | .exited code => code == 0
  | .signalled .. => false

/-- How messages name the end of a program. -/
def describe : ExitStatus → String
  | .exited code => s!"exit status: {code}"
  | .signalled signal dumped =>
    let name := match signalNames.lookup signal with
      | some name => s!" (SIG{name})"
      | none => ""
    s!"signal: {signal}{name}" ++ if dumped then " (core dumped)" else ""

end ExitStatus

/-- What is seen of a program that has run to its end. -/
structure Completion where
  status : ExitStatus
  output : List UInt8
  errorOutput : List UInt8
  deriving DecidableEq, Repr

/-- A way to run programs on a system with states in `φ`: a program is run by its name or path, with
its arguments and nothing to read, unless the system refuses to start it. -/
abbrev Launcher (φ : Type) : Type :=
  (program : String) → (arguments : List String) → Attempt Files.SystemError φ Completion

end SpeechRom.Encoding
