import SpeechRom.Shell.Expansion

/-!
# Processes

A script runs parts of itself in processes of their own, which start with all
that the script knows and whose changes end with them, files aside.  Processes
run one after another.  Signals that were sent to a process wait until it goes
on.
-/

namespace SpeechRom.Shell

/-- What the place of a command asks of it. -/
structure Position where
  /-- Whether the status is tested, so that failure does not end the script. -/
  tested : Bool
  /-- Whether nothing else is to be done in the process. -/
  last : Bool

/-- A program that is started. -/
structure Launch where
  program : String
  /-- The name under which it is run, and its arguments. -/
  words : List Bytes
  environment : List (String × Bytes)
  process : Nat
  parent : Nat

/-- What commands need to run others. -/
structure Engine where
  /-- Run a program in a process. -/
  launch : Launch → Work Status
  run : Position → Command → Step Unit
  /-- Run the lines of a text, which may be those of a file; the answer is the last status. -/
  runText : (tested ofFile : Bool) → Bytes → Step Nat
  /-- A bound for the steps of an expansion. -/
  fuel : Nat

/-! ## Signals -/

/-- Receive a signal: it waits for its trap, is ignored, or ends the process. -/
def acceptSignal (signal : Nat) : Step Unit := do
  let session ← get
  let unstoppable := signal = 9
  match session.traps.lookup signal with
  | some action =>
    if unstoppable then throw (.killed signal)
    else if !action.isEmpty && !session.pending.contains signal then
      set { session with pending := session.pending ++ [signal] }
  | none => if !harmlessSignals.contains signal then throw (.killed signal)

/-- Receive the signals that were sent to the process. -/
def receiveSignals : Step Unit := do
  let session ← get
  let (own, others) := session.machine.signals.partition fun entry =>
    entry.1 = session.ownProcess
  if !own.isEmpty then
    set { session with machine := { session.machine with signals := others } }
    own.forM fun (_, signal) => acceptSignal signal

/-- Send a signal to a process. -/
def sendSignal (process signal : Nat) : Step Unit :=
  modify fun session =>
    let signals := session.machine.signals ++ [(process, signal)]
    { session with machine := { session.machine with signals } }

/-- Run the traps of the signals that wait. -/
def runTraps (engine : Engine) : Step Unit := do
  let pending := (← get).pending
  pending.forM fun signal => do
    let session ← get
    set { session with pending := session.pending.filter (· ≠ signal) }
    match session.traps.lookup signal with
    | none => return ()
    | some action =>
      let result ← (engine.runText false false action).caught
      match result with
      | .ok _ => note session.status
      | .error (.giveBack true) => throw (.giveBack true)
      | .error (.giveBack false) =>
        note session.status
        throw (.giveBack false)
      | .error (.leave levels) =>
        note session.status
        throw (.leave levels)
      | .error (.again levels) =>
        note session.status
        throw (.again levels)
      | .error other => throw other

/-- Report that a process was ended by a signal, unless that is common. -/
def reportSignal : Status → Step Unit
  | .exited _ => return ()
  | .signalled signal => do
    if signal ≠ 2 && signal ≠ 13 then
      let _ ← write 2 (utf8 (wordsOfSignal signal) ++ [0x0a])

/-! ## Held output -/

/-- Pass on what a background job has written. -/
def releaseJob (job : Job) : Step Unit :=
  job.held.forM fun (held, target) => do
    let machine := (← get).machine
    let content := machine.drained held
    let machine := machine.setChannel held (.pipe [] [] none)
    let machine := match machine.channels[target]? with
      | some (.pipe front later room) =>
        if content.isEmpty then machine
        else machine.setChannel target (.pipe front (content :: later) room)
      | _ => machine
    modify fun session => { session with machine }

/-- Pass on what background jobs have written. -/
def releaseJobs : Step Unit := do
  let session ← get
  session.jobs.forM releaseJob

/-! ## The life of a process -/

/-- The status with which a process ends after its trap for the end, which runs with `status` as
the last one. -/
def afterEndTrap (engine : Engine) (status : Nat) : Step Status := do
  let session ← get
  match session.traps.lookup 0 with
  | none => return .exited status
  | some action =>
    set { session with traps := session.traps.filter fun entry => entry.1 ≠ 0 }
    match ← (engine.runText false false action).caught with
    | .error (.replaced status) => return status
    | .error (.killed signal) => return .signalled signal
    | .error (.exit (some asked)) => return .exited asked
    | .error .fault => return .exited (← get).status
    | _ => return .exited status

/-- Do something as the whole of a process; the answer is how the process ends. -/
def wholeProcess (engine : Engine) (body : Step Unit) : Step Status := do
  let result ← body.caught
  let status ← (do
    match result with
    | .error (.replaced status) => return status
    | .error (.killed signal) => return .signalled signal
    | .error (.exit (some asked)) =>
      note asked
      afterEndTrap engine asked
    | _ => afterEndTrap engine (← get).status)
  releaseJobs
  return match status with
    | .exited code => .exited (code % 256)
    | status => status

/-- Do something in a process of its own, which starts with a changed session. -/
def inProcess (engine : Engine) (prepare : Session → Session) (body : Step Unit) : Step Status := do
  let session ← get
  let number := session.machine.lastProcess + 1
  let child := prepare { session with
    machine := { session.machine with lastProcess := number }
    ownProcess := number
    parentProcess := session.ownProcess
    traps := session.traps.filter fun entry => entry.2.isEmpty
    jobs := []
    pending := [] }
  let (status, after) := (wholeProcess engine body).runFrom child
  set { session with
    machine := Machine.afterProcess session.machine after.machine
    documents := after.documents }
  receiveSignals
  return status.toOption.getD (.exited 2)

/-- A new channel of the process. -/
def newChannel (channel : Channel) : Step Nat :=
  work fun machine => machine.addChannel channel

/-- Let a stream of a session lead to a channel. -/
def Session.withStream (stream : Nat) (channel : Option Nat) (session : Session) : Session :=
  { session with machine := session.machine.setStream stream channel }

/-! ## Substitutions -/

/-- Run a script for its output; NUL and the line ends at the end are dropped. -/
def Engine.substitute (engine : Engine) : Substitute := fun script => do
  if script.isEmpty then
    modify fun session => { session with substituted := 0 }
    return []
  let channel ← newChannel (.pipe [] [] none)
  let status ← inProcess engine (Session.withStream 1 (some channel))
    (engine.run ⟨false, true⟩ (.ofScript script))
  let output := (← get).machine.drained channel
  reportSignal status
  modify fun session => { session with substituted := status.number }
  return dropLineEnds (output.filter (· != 0))

/-! ## Programs -/

/-- The variables that programs are given. -/
def Session.environment (session : Session) : List (String × Bytes) :=
  session.bindings.filterMap fun (name, binding) =>
    if binding.exported then binding.value.map (name, ·) else none

/-- Start a program and wait for its end. -/
def startProgram (engine : Engine) (program : String) (words : List Bytes) : Step Status := do
  let session ← get
  let process := session.machine.lastProcess + 1
  let launch : Launch := ⟨program, words, session.environment, process, session.ownProcess⟩
  let (status, after) := engine.launch launch { session.machine with lastProcess := process }
  set { session with machine := Machine.afterProcess session.machine after }
  receiveSignals
  return status

/-- Become a program; nothing of the session stays but what others hold of its channels. -/
def becomeProgram {α : Type} (engine : Engine) (program : String) (words : List Bytes) :
    Step α := do
  let session ← get
  let launch : Launch :=
    ⟨program, words, session.environment, session.ownProcess, session.parentProcess⟩
  let (status, machine) := engine.launch launch session.machine
  set { session with machine }
  throw (.replaced status)

end SpeechRom.Shell
