import SpeechRom.Shell.Builtin.Basic
import SpeechRom.Shell.Process

/-!
# Commands on signals and processes
-/

namespace SpeechRom.Shell

/-! ## Sending signals -/

/-- The signal that a text means, by its number or its name; zero is no name for `kill`. -/
def signalOf? (least : Nat) (text : Bytes) : Option Nat :=
  let letters := lettersOf text
  if !letters.isEmpty && letters.all Char.isDigit then
    let n := digitsValue 10 letters
    if n < signalCount then some n else none
  else (signalNumber? (String.ofList letters)).filter fun signal => least ≤ signal

/-- The complaint about a job that does not exist. -/
def noJob {α : Type} (word : Bytes) : Step α := fail (utf8 "No such job: " ++ word)

/-- How `kill` is used. -/
def killUsage {α : Type} : Step α :=
  fail (utf8 ("Usage: kill [-s sigspec | -signum | -sigspec] [pid | job]... or\n" ++
    "kill -l [exitstatus]"))

/-- List the signals, or name the one that has ended a process. -/
def listSignals : List Bytes → Step Nat
  | [] => do
    say (utf8 "0\n")
    (List.range (signalCount - 1)).forM fun n => say (utf8 (signalName (n + 1) ++ "\n"))
    return 0
  | word :: _ => do
    let n ← operand word
    let signal := if n > 128 then n - 128 else n
    if signal = 0 || signalCount ≤ signal then
      fail (utf8 "invalid signal number or exit status: " ++ word)
    say (utf8 (signalName signal ++ "\n"))
    return 0

/-- Whether a process exists, as far as a session can tell. -/
def Session.knowsProcess (session : Session) (process : Nat) : Bool :=
  process = session.process || process = session.ownProcess || process = session.parentProcess ||
    session.jobs.any fun job => job.process = process && !job.known

/-- Send a signal to the process that a word names; the answer is whether there is one. -/
def killProcess (signal : Nat) (word : Bytes) : Step Bool := do
  match word with
  | 0x25 :: _ => noJob word
  | 0x2d :: rest =>
    let _ ← operand rest
    complain (utf8 "No such process\n")
    return false
  | word =>
    let process ← operand word
    if (← get).knowsProcess process then
      if signal ≠ 0 then sendSignal process signal
      return true
    else
      complain (utf8 "No such process\n")
      return false

/-- Send a signal to each process that a word names. -/
def killProcesses (signal : Nat) (words : List Bytes) : Step Nat := do
  if words.isEmpty then killUsage
  let sent ← words.mapM (killProcess signal)
  receiveSignals
  return if sent.all id then 0 else 1

/-- Send signals, or list them. -/
def killCommand : Builtin := fun words => do
  match words with
  | (0x2d :: text) :: rest =>
    match signalOf? 1 text with
    | some signal => killProcesses signal rest
    | none =>
      let (options, rest) ← readOptions [('l', false), ('s', true)] words
      let signal ← options.foldlM (fun signal (option, text) => do
        if option = 's' then
          match signalOf? 1 text with
          | some signal => return some signal
          | none => fail (utf8 "invalid signal number or name: " ++ text)
        else return signal) none
      let lists := options.any (·.1 = 'l')
      match signal, lists with
      | none, true => listSignals rest
      | some _, true => killUsage
      | signal, false => killProcesses (signal.getD 15) rest
  | words => killProcesses 15 words

/-! ## Traps -/

/-- List the traps, as commands that would set them. -/
def listTraps : Step Unit := do
  let session ← get
  (List.range signalCount).forM fun signal =>
    match session.traps.lookup signal with
    | some action =>
      say (utf8 "trap -- " ++ inQuotes action ++ utf8 (" " ++ signalName signal ++ "\n"))
    | none => return ()

/-- Set or reset the traps of signals; the answer is the status. -/
def setTraps (action : Option Bytes) : List Bytes → Step Nat
  | [] => return 0
  | word :: rest => do
    match signalOf? 0 word with
    | none =>
      let _ ← write 2 (utf8 "trap: " ++ word ++ utf8 ": bad trap\n")
      return 1
    | some signal =>
      modify fun session =>
        let others := session.traps.filter fun entry => entry.1 ≠ signal
        { session with traps := match action with
          | some action => (signal, action) :: others
          | none => others }
      setTraps action rest

/-- Set, reset or list traps. -/
def trapCommand : Builtin := fun arguments => do
  match ← withoutOptions arguments with
  | [] =>
    listTraps
    return 0
  | [signal] => setTraps none [signal]
  | first :: rest =>
    let isNumber := (lettersOf first).all Char.isDigit && (signalOf? 0 first).isSome
    if isNumber then setTraps none (first :: rest)
    else setTraps (if first = [0x2d] then none else some first) rest

/-! ## Jobs -/

/-- The status of the job that a word names, if there is one. -/
def waitFor (status : Nat) (word : Bytes) : Step Nat := do
  if word.head? = some 0x25 then noJob word
  let process ← operand word
  let session ← get
  match session.jobs.find? fun job => job.process = process with
  | none => return status
  | some job =>
    releaseJob job
    let noted := session.jobs.map fun (job : Job) =>
      if job.process = process then { job with known := true } else job
    modify fun session => { session with jobs := noted }
    return job.status.number

/-- Wait for background jobs. -/
def waitCommand : Builtin := fun arguments => do
  let words ← withoutOptions arguments
  if words.isEmpty then
    releaseJobs
    modify fun session =>
      { session with jobs := session.jobs.map fun job => { job with known := true } }
    return 0
  else words.foldlM waitFor 127

/-- Go on with a job: none is stopped. -/
def continueCommand : Builtin := fun arguments => do
  match ← withoutOptions arguments with
  | [] => fail (utf8 "No current job")
  | word :: _ => noJob word

/-- List the jobs that go on: there are none. -/
def jobsCommand : Builtin := fun arguments => do
  let (_, words) ← readOptions [('l', false), ('p', false)] arguments
  match words with
  | [] => return 0
  | word :: _ => noJob word

end SpeechRom.Shell
