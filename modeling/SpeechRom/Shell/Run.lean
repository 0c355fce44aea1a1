import SpeechRom.Shell.Builtin.Flow
import SpeechRom.Shell.Builtin.Input
import SpeechRom.Shell.Builtin.Names
import SpeechRom.Shell.Builtin.Output
import SpeechRom.Shell.Builtin.Signals
import SpeechRom.Shell.Builtin.Surroundings
import SpeechRom.Shell.Builtin.Variables

/-!
# Running scripts

What each form of command does to a session.  The commands within a command are
run by an engine, so that every form stands for itself; `run` ties the knot and
bounds how deep commands nest.
-/

namespace SpeechRom.Shell

/-! ## Commands of the shell -/

/-- The command of the shell of a name. -/
def builtinOf (engine : Engine) (tested : Bool) : String → Builtin
  | "." => sourceCommand engine
  | ":" | "true" => fun _ => return 0
  | "[" => testCommand true
  | "alias" => aliasCommand
  | "bg" | "fg" => continueCommand
  | "break" => loopCommand .leave
  | "cd" | "chdir" => cdCommand
  | "command" => describeCommand
  | "continue" => loopCommand .again
  | "echo" => echoCommand
  | "eval" => evalCommand engine tested
  | "exec" => execCommand engine
  | "exit" => exitCommand
  | "export" => exportCommand
  | "getopts" => getoptsCommand
  | "hash" => hashCommand
  | "jobs" => jobsCommand
  | "kill" => killCommand
  | "local" => localCommand
  | "printf" => printfCommand
  | "pwd" => pwdCommand
  | "read" => readCommand
  | "readonly" => readonlyCommand
  | "return" => returnCommand
  | "set" => setCommand
  | "shift" => shiftCommand
  | "test" => testCommand false
  | "times" => timesCommand
  | "trap" => trapCommand
  | "type" => typeCommand
  | "ulimit" => ulimitCommand
  | "umask" => umaskCommand
  | "unalias" => unaliasCommand
  | "unset" => unsetCommand
  | "wait" => waitCommand
  | _ => fun _ => return 1

/-- Run a command of the shell.  An error in it ends the script only if the command is special. -/
def runBuiltin (special : Bool) (name : Bytes) (builtin : Builtin) (arguments : List Bytes) :
    Step Unit := do
  modify fun session => { session with outputFailed := false }
  let result ← (speaking name do
    let status ← builtin arguments
    if (← get).outputFailed then
      complain (name ++ utf8 ": I/O error")
      return status ||| 1
    else return status).caught
  match result with
  | .ok status => note status
  | .error .fault => if special then throw .fault
  | .error other => throw other

/-! ## Functions and programs -/

/-- The number of functions that may call each other. -/
def maxCalls : Nat := 1000

/-- Call a function: it has arguments of its own, and loops around the call are not around it. -/
def callFunction (engine : Engine) (tested : Bool) (body : Command) (arguments : List Bytes) :
    Step Unit := do
  let before ← get
  if before.calls = maxCalls then
    fail (utf8 s!"Maximum function recursion depth ({maxCalls}) reached")
  set { before.withArguments arguments with loops := 0, calls := before.calls + 1 }
  let result ← (engine.run ⟨tested, false⟩ body).caught
  modify fun session =>
    { session with arguments := before.arguments, loops := before.loops, calls := before.calls,
                   optionPlace := before.optionPlace }
  match result with
  | .ok () | .error (.giveBack _) => return ()
  | .error other => throw other

/-- Whether a session has traps that do something. -/
def Session.hasTraps (session : Session) : Bool := session.traps.any fun entry => !entry.2.isEmpty

/-- Run a program; the last thing that a process does it becomes. -/
def runProgram (engine : Engine) (position : Position) (path : Option Bytes) (words : List Bytes) :
    Step Unit := do
  let session ← get
  let word := words.headD []
  match session.findRunnable (path.getD session.searchPath) words with
  | .error reason =>
    complain (word ++ utf8 (": " ++ programFault reason))
    note (if isPath word then programFaultStatus reason else 127)
  | .ok program =>
    trackProgram word
    if position.last && !session.hasTraps then becomeProgram engine program words
    else
      let status ← startProgram engine program words
      reportSignal status
      note status.number

/-! ## Simple commands -/

/-- The words behind `command`, if it runs a command, and whether that is looked for in the
standard directories. -/
def behindCommand : List Bytes → Option (Bool × List Bytes)
  | [] => none
  | word :: rest =>
    match lettersOf word with
    | ['-', '-'] => if rest.isEmpty then none else some (false, rest)
    | '-' :: letter :: letters =>
      if (letter :: letters).all (· == 'p') then
        (behindCommand rest).map fun (_, words) => (true, words)
      else none
    | _ => some (false, word :: rest)

/-- What a simple command comes down to. -/
structure Invocation where
  words : List Bytes
  /-- What the first word means; nothing if there is none. -/
  meaning : Option Meaning
  /-- Whether the command was reached through `command`. -/
  direct : Bool
  /-- The directories to look in, if they are not the usual ones. -/
  path : Option Bytes

/-- What words come down to. -/
def Session.invocationOf (session : Session) : (fuel : Nat) → (direct : Bool) → Option Bytes →
    List Bytes → Invocation
  | _, direct, path, [] => ⟨[], none, direct, path⟩
  | fuel, direct, path, word :: rest =>
    let meaning := session.meaningOf direct word
    match fuel, meaning with
    | fuel + 1, .builtin _ "command" =>
      match behindCommand rest with
      | some (standard, words) =>
        session.invocationOf fuel true (if standard then some standardPath else path) words
      | none => ⟨word :: rest, some meaning, true, path⟩
    | _, _ => ⟨word :: rest, some meaning, direct, path⟩

/-- Whether the words so far belong to a command that declares variables: the words after it that
assign are no fields. -/
def Session.declares (session : Session) (fields : List Bytes) : Bool :=
  match (session.invocationOf (fields.length + 1) false none fields).meaning with
  | some (.builtin _ name) => ["alias", "export", "local", "readonly"].contains name
  | _ => false

/-- The fields of the words of a command. -/
def expandCommand (engine : Engine) (words : List Word) : Step (List Bytes) :=
  words.foldlM (fun fields word => do
    let session ← get
    match if session.declares fields then assignment? word else none with
    | some (name, value) =>
      let text ← expandText engine.substitute engine.fuel .value value
      return fields ++ [utf8 (name ++ "=") ++ text]
    | none => return fields ++ (← expandFields engine.substitute engine.fuel word)) []

/-- Give the variables of a command their values, in the scope of the command or to stay; the
answer is the assignments as text. -/
def assignAll (engine : Engine) (passing exported : Bool) (assignments : List (String × Word)) :
    Step (List Bytes) :=
  assignments.mapM fun (name, word) => do
    let value ← expandText engine.substitute engine.fuel .value word
    let text := utf8 (name ++ "=") ++ value
    if passing then makeLocal text true
    else
      assign name value
      if exported then
        modify fun session => session.withBinding name
          ((session.bindings.lookup name).map fun binding => { binding with exported := true })
    return text

/-- Write to the channel that the error output led to in an earlier session. -/
def writeError (before : Session) (bytes : Bytes) : Step Unit :=
  work fun machine =>
    let (_, after) := Machine.write 2 bytes
      (machine.setStream 2 (before.machine.streams.lookup 2))
    ((), { after with streams := machine.streams })

/-- Note the line of a command. -/
def noteLine (line : Nat) : Step Unit := modify fun session => { session with line }

/-- Refuse a text. -/
def reject {α : Type} (rejection : Rejection) : Step α := do
  noteLine rejection.line
  fail (utf8 ("Syntax error: " ++ rejection.fault.message))

/-- What stands in front of a command that is shown.  It is expanded, unless that fails; commands in
it are not shown. -/
def traceMark (engine : Engine) : Step Bytes := do
  let session ← get
  let text := (session.contentOf? "PS4").getD []
  let expanded ← (do
    match templateOf (lettersOf text) session.documents with
    | .error rejection => reject rejection
    | .ok (word, documents) =>
      set ({ session with documents }.setOption 'x' false)
      expandText engine.substitute engine.fuel .document word : Step Bytes).caught
  modify fun after => { after with options := session.options, line := session.line }
  match expanded with
  | .ok mark => return mark
  | .error .fault => return text
  | .error interruption => throw interruption

/-- Show a command before it is run, if that is asked for. -/
def trace (engine : Engine) (before : Session) (texts : List Bytes) : Step Unit := do
  if (← get).has 'x' then
    let mark ← traceMark engine
    writeError before (mark ++ joinWords texts ++ [0x0a])

/-- Run what a simple command comes down to. -/
def runInvocation (engine : Engine) (position : Position) (invocation : Invocation) :
    Step Unit := do
  let words := invocation.words
  let arguments := words.drop 1
  match invocation.meaning with
  | none => note (← get).substituted
  | some (.function body) => callFunction engine position.tested body arguments
  | some (.builtin special name) =>
    runBuiltin (special && !invocation.direct) (words.headD [])
      (builtinOf engine position.tested name) arguments
  | some .program => runProgram engine position invocation.path words

/-- Run a simple command: the words are expanded, the streams redirected and the variables set
before what the first word means is run. -/
def runSimple (engine : Engine) (position : Position) (assignments : List (String × Word))
    (words : List Word) (redirections : List Redirection) : Step Unit := do
  modify fun session => { session with substituted := 0 }
  let fields ← expandCommand engine words
  let before ← get
  let invocation := before.invocationOf (fields.length + 1) false none fields
  let special := !invocation.direct && match invocation.meaning with
    | some (.builtin special _) => special
    | _ => false
  let executes := match invocation.meaning with
    | some (.builtin _ "exec") => true
    | _ => false
  let passing := !special && invocation.meaning.isSome
  let targets ← redirections.mapM (targetOf engine)
  let opened ← withTargets engine targets executes (do
    if passing then modify fun session => { session with scopes := [] :: session.scopes }
    let action := do
      let texts ← assignAll engine passing (executes && invocation.words.length > 1) assignments
      trace engine before (texts ++ fields)
      runInvocation engine position invocation
    if passing then action.ensuring leaveScope else action)
  if !opened && special then throw .fault

/-! ## Loops -/

/-- How a part of a loop ends. -/
inductive LoopEnd where
  | passed
  | continued
  | left
  deriving DecidableEq

/-- Do a part of a loop. -/
def loopPart (part : Step Unit) : Step LoopEnd := do
  match ← part.caught with
  | .ok () => return .passed
  | .error (.leave levels) => if levels ≤ 1 then return .left else throw (.leave (levels - 1))
  | .error (.again levels) => if levels ≤ 1 then return .continued else throw (.again (levels - 1))
  | .error other => throw other

/-- Do something within a loop. -/
def withinLoop {α : Type} (action : Step α) : Step α := do
  modify fun session => { session with loops := session.loops + 1 }
  action.ensuring (modify fun session => { session with loops := session.loops - 1 })

/-- The number of turns after which a loop counts as endless. -/
def maxTurns : Nat := 1000000

/-- Repeat a body as long as a condition holds; the answer is the status of the last turn. -/
def repeatLoop (untilSuccess : Bool) (condition body : Step Unit) : (turns : Nat) → (status : Nat) →
    Step Nat
  | 0, status => return status
  | turns + 1, status => do
    match ← loopPart condition with
    | .left => return status
    | .continued => repeatLoop untilSuccess condition body turns status
    | .passed =>
      if ((← get).status = 0) = untilSuccess then return status
      else
        let ending ← loopPart body
        let status := (← get).status
        if ending = .left then return status
        else repeatLoop untilSuccess condition body turns status

/-- Run a body for each value of a variable; the answer is the status of the last turn. -/
def eachLoop (name : String) (body : Step Unit) : List Bytes → (status : Nat) → Step Nat
  | [], status => return status
  | value :: rest, _ => do
    assign name value
    let ending ← loopPart body
    let status := (← get).status
    if ending = .left then return status else eachLoop name body rest status

/-! ## Choices -/

/-- Whether one of some patterns matches a text. -/
def matchesAny (engine : Engine) (text : Bytes) : List Word → Step Bool
  | [] => return false
  | word :: rest => do
    let pattern := patternOf (← expandWord engine.substitute engine.fuel .text word)
    if Pattern.accepts pattern text then return true else matchesAny engine text rest

/-- The body of the first arm that a text chooses. -/
def chosenArm (engine : Engine) (text : Bytes) : List (List Word × Command) → Step (Option Command)
  | [] => return none
  | (patterns, body) :: rest => do
    if ← matchesAny engine text patterns then return some body
    else chosenArm engine text rest

/-! ## Processes -/

/-- Let the input and the output of a session lead to channels, if they are given. -/
def stageStreams (input output : Option Nat) (session : Session) : Session :=
  let session := match input with
    | some channel => session.withStream 0 (some channel)
    | none => session
  match output with
  | some channel => session.withStream 1 (some channel)
  | none => session

/-- The number of pieces that wait in a pipe before its writer is taken to be endless: the reader
has ended before it has read them all. -/
def pipeRoom : Nat := 65536

/-- Run commands that pass on their output; the answer is how the last one ends. -/
def runStages (engine : Engine) (tested : Bool) : (input : Option Nat) → List Command → Step Status
  | _, [] => return .exited 0
  | input, [last] => do
    let status ← inProcess engine (stageStreams input none) (engine.run ⟨tested, true⟩ last)
    reportSignal status
    return status
  | input, stage :: rest => do
    let output ← newChannel (.pipe [] [] (some pipeRoom))
    let status ← inProcess engine (stageStreams input (some output))
      (engine.run ⟨tested, true⟩ stage)
    reportSignal status
    runStages engine tested (some output) rest

/-- The streams of a session that write to pipes, with new channels instead; what is written to
those is held back. -/
def heldStreams : List (Nat × Nat) → Step (List (Nat × Nat))
  | [] => return []
  | (stream, target) :: rest => do
    let held ← heldStreams rest
    match stream, (← get).machine.channels[target]? with
    | 0, _ => return held
    | _, some (.pipe _ _ _) =>
      if held.any (·.2 = target) then return held
      else return (← newChannel (.pipe [] [] none), target) :: held
    | _, _ => return held

/-- Start a command in the background: it reads nothing, and its output is held back. -/
def startJob (engine : Engine) (body : Command) : Step Unit := do
  let held ← heldStreams (← get).machine.streams
  let nothing ← newChannel (.device .null true true)
  let number := (← get).machine.lastProcess + 1
  let redirect := fun (session : Session) =>
    let machine := session.machine
    let streams := machine.streams.map fun (stream, channel) =>
      (stream, ((held.find? (·.2 = channel)).map (·.1)).getD channel)
    ({ session with machine := { machine with streams } }).withStream 0 (some nothing)
  let status ← inProcess engine redirect (engine.run ⟨false, true⟩ body)
  modify fun session =>
    { session with jobs := session.jobs ++ [⟨number, status, held, false⟩]
                   background := some number }

/-! ## All commands -/

/-- Give up if a command has failed, unless its status is tested, where a script asks for that. -/
def checkFailure (position : Position) : Step Unit := do
  let session ← get
  if session.has 'e' && !position.tested && session.status ≠ 0 then
    throw (.exit (some session.status))

/-- Run commands one after another. -/
def runSequence (engine : Engine) (position : Position) : Script → Step Unit
  | [] => note 0
  | [last] => engine.run position last
  | first :: rest => do
    engine.run ⟨position.tested, false⟩ first
    runSequence engine position rest

/-- Run a command. -/
def runCommand (engine : Engine) (position : Position) : Command → Step Unit
  | .simple line assignments words redirections => do
    noteLine line
    runSimple engine position assignments words redirections
    checkFailure position
  | .pipeline stages => do
    let status ← runStages engine position.tested none stages
    note status.number
    checkFailure position
  | .negation command => do
    engine.run ⟨true, false⟩ command
    note (if (← get).status = 0 then 1 else 0)
  | .both first second => do
    engine.run ⟨true, false⟩ first
    if (← get).status = 0 then engine.run position second
  | .either first second => do
    engine.run ⟨true, false⟩ first
    if (← get).status ≠ 0 then engine.run position second
  | .background line body => do
    noteLine line
    startJob engine body
    note 0
  | .sequence commands => runSequence engine position commands
  | .subshell line body redirections => do
    noteLine line
    let targets ← redirections.mapM (targetOf engine)
    let status ← inProcess engine id do
      targets.forM (openTarget engine false)
      engine.run ⟨position.tested, true⟩ body
    reportSignal status
    note status.number
    checkFailure position
  | .redirected line body redirections => do
    noteLine line
    let targets ← redirections.mapM (targetOf engine)
    if !(← withTargets engine targets false (engine.run ⟨position.tested, false⟩ body)) then
      checkFailure position
  | .branch condition yes no => do
    engine.run ⟨true, false⟩ condition
    engine.run position (if (← get).status = 0 then yes else no)
  | .loop untilSuccess condition body => do
    note (← withinLoop (repeatLoop untilSuccess (engine.run ⟨true, false⟩ condition)
      (engine.run ⟨position.tested, false⟩ body) maxTurns 0))
  | .each line name words body => do
    noteLine line
    let values ← expandAll engine.substitute engine.fuel words
    note (← withinLoop (eachLoop name (engine.run ⟨position.tested, false⟩ body) values 0))
  | .choice line subject arms => do
    noteLine line
    let text ← expandText engine.substitute engine.fuel .text subject
    match ← chosenArm engine text arms with
    | some body => engine.run position body
    | none => note 0
  | .definition name body => do
    modify fun session => { session with functions := replaced name body session.functions }
    note 0

/-- The letters of a text that come to be seen when all but `left` of them have been read and all
but `unseen` were seen before: whole lines are seen at once.  The answer holds the number of those
that are still unseen. -/
def newlySeen (text : Bytes) (unseen left : Nat) : Bytes × Nat :=
  let ahead := text.drop (text.length - unseen)
  let front := ahead.take (unseen - left)
  let seen := match front.getLast? with
    | none | some 0x0a => front
    | some _ => front ++ (Machine.splitLine (ahead.drop front.length)).1
  (seen, unseen - seen.length)

/-- Show the lines of a file that come to be seen, if that is asked for; the answer is the number of
letters that are still unseen. -/
def showSeen (text : Bytes) (unseen left : Nat) : Step Nat := do
  let (seen, unseen) := newlySeen text unseen left
  if (← get).has 'v' then
    let _ ← write 2 seen
  return unseen

/-- Run the lines of a text as they are read: what stands in front of a fault has been run then.
The answer is the last status. -/
def runLines (run : Command → Step Unit) (shown : Option Bytes) : (fuel unseen : Nat) → Reader →
    (status : Nat) → Step Nat
  | 0, _, _, status => return status
  | fuel + 1, unseen, reader, status => do
    let session ← get
    let aliases := session.aliases.map fun (name, value) => (name, lettersOf value)
    let (next, reader) :=
      { reader with documents := session.documents, aliases }.nextCommands
    set { session with documents := reader.documents }
    let left := match next with
      | .rejected rejection => rejection.left
      | _ => reader.lettersLeft
    let unseen ← match shown with
      | some text => showSeen text unseen left
      | none => pure unseen
    match next with
    | .ended => return status
    | .rejected rejection => reject rejection
    | .commands [] => runLines run shown fuel unseen reader status
    | .commands script =>
      run (.ofScript script)
      runLines run shown fuel unseen reader (← get).status

/-- Run a text line by line.  The lines of a file hold no NUL, and may be shown as they are read. -/
def runTextBy (run : Command → Step Unit) (ofFile : Bool) (text : Bytes) : Step Nat :=
  let text := if ofFile then text.filter (· != 0) else text
  runLines run (if ofFile then some text else none) (text.length + 1) text.length
    (.ofLetters (lettersOf text) #[] []) 0

/-- A bound for the steps of the expansion of a word. -/
def expansionFuel : Nat := 1000000

/-- The engine that runs commands in a given way. -/
def engineBy (launch : Launch → Work Status) (run : Position → Command → Step Unit) : Engine :=
  { launch, run, fuel := expansionFuel, runText := fun tested => runTextBy (run ⟨tested, false⟩) }

/-- Run a command in which commands nest no deeper than `depth`; a process that goes deeper runs out
of room and is ended. -/
def run (launch : Launch → Work Status) : (depth : Nat) → Position → Command → Step Unit
  | 0, _, _ => throw (.killed 11)
  | depth + 1, position, command => do
    if (← get).has 'n' then return ()
    let engine := engineBy launch (run launch depth)
    runTraps engine
    runCommand engine position command
    runTraps engine

end SpeechRom.Shell
