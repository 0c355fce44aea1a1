import SpeechRom.Encoding.Program

/-!
# How a process ends

A process exits with a number, zero for success, or is ended by a signal.
-/

namespace SpeechRom.Shell

open Encoding (ExitStatus signalNames)

/-- The end of a process. -/
inductive Status where
  | exited (code : Nat)
  | signalled (signal : Nat)
  deriving DecidableEq, Repr, Inhabited

/-- The words for the end of a process by a signal. -/
def signalWords : List (Nat × String) :=
  [(1, "Hangup"), (2, "Interrupt"), (3, "Quit"), (4, "Illegal instruction"),
   (5, "Trace/breakpoint trap"), (6, "Aborted"), (7, "Bus error"),
   (8, "Floating point exception"), (9, "Killed"), (10, "User defined signal 1"),
   (11, "Segmentation fault"), (12, "User defined signal 2"), (13, "Broken pipe"),
   (14, "Alarm clock"), (15, "Terminated"), (16, "Stack fault"), (24, "CPU time limit exceeded"),
   (25, "File size limit exceeded"), (26, "Virtual timer expired"),
   (27, "Profiling timer expired"), (29, "I/O possible"), (30, "Power failure"),
   (31, "Bad system call")]

/-- The signal for a process that writes what nobody reads. -/
def brokenPipeSignal : Nat := 13

/-- The signals that leave a process running. -/
def harmlessSignals : List Nat := [0, 17, 18, 23, 28]

/-- The words for the end of a process by any signal. -/
def wordsOfSignal (signal : Nat) : String :=
  match signalWords.lookup signal with
  | some words => words
  | none =>
    if signal < 34 then s!"Unknown signal {signal}" else s!"Real-time signal {signal - 34}"

/-- The number of signals, and zero. -/
def signalCount : Nat := 65

/-- The name under which commands know a signal; some are known by their numbers only. -/
def signalName (signal : Nat) : String :=
  if signal = 0 then "EXIT"
  else if signal = 34 then "RTMIN"
  else if signal = 64 then "RTMAX"
  else if 34 < signal && signal < 50 then s!"RTMIN+{signal - 34}"
  else if 49 < signal && signal < 64 then s!"RTMAX-{64 - signal}"
  else if signal = 16 then "16"
  else (signalNames.lookup signal).getD (toString signal)

/-- The number of a signal by its name, in letters of any case. -/
def signalNumber? (name : String) : Option Nat :=
  let capitals := String.ofList (name.toList.map Char.toUpper)
  (List.range signalCount).find? fun signal => signalName signal = capitals

namespace Status

/-- The number by which a shell knows the end of a process. -/
def number : Status → Nat
  | .exited code => code
  | .signalled signal => 128 + signal

/-- The end of the process as others see it. -/
def exitStatus : Status → ExitStatus
  | .exited code => .exited code
  | .signalled signal => .signalled signal false

end Status

end SpeechRom.Shell
