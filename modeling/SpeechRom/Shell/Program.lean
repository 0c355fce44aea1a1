import SpeechRom.Shell.Run

/-!
# The shell as a program

A shell reads its options, takes its script from an argument, a file or the
input, and runs it.  Programs are started by their names, shells among them.

This is one way to run programs (`launcher`), for trees of files, so that
commands can be tried where there is no system.  Nothing that is proved of a
build rests on it: there, any launcher may run the encoder.
-/

namespace SpeechRom.Shell

open Files

/-! ## Starting a shell -/

/-- The variables of a new shell, apart from those that it is given. -/
def ownVariables (launch : Launch) (workingPath : Bytes) : List (String × Bytes × Bool) :=
  [("IFS", [0x20, 0x09, 0x0a], false), ("OPTIND", utf8 "1", false),
   ("PPID", decimalText launch.parent, false), ("PWD", workingPath, true)]

/-- The variables that a shell has unless it is given them. -/
def usualVariables : List (String × Bytes) :=
  [("PATH", standardPath), ("PS1", utf8 "# "), ("PS2", utf8 "> "), ("PS4", utf8 "+ ")]

/-- The variables of a new shell. -/
def initialBindings (launch : Launch) (workingPath : Bytes) : List (String × Binding) :=
  let usual := usualVariables.map fun (name, value) =>
    (name, (⟨some value, false, false⟩ : Binding))
  let given := launch.environment.filter fun entry => isVariableName entry.1.toList
  let bindings := given.foldl (fun bindings (name, value) =>
    replaced name ⟨some value, true, false⟩ bindings) usual
  (ownVariables launch workingPath).foldl (fun bindings (name, value, exported) =>
    let exported := exported || ((bindings.lookup name).map Binding.exported).getD false
    replaced name ⟨some value, exported, false⟩ bindings) bindings

/-- The session of a new shell. -/
def Session.initial (launch : Launch) (machine : Machine) : Session :=
  let workingPath := utf8 (absolutePath machine.files.workingDirectory)
  { machine, name := launch.words.headD [], arguments := []
    bindings := initialBindings launch workingPath
    functions := [], aliases := [], options := [], status := 0, line := 0, speaker := none
    loops := 0, calls := 0, scopes := [], traps := [], documents := #[]
    process := launch.process, ownProcess := launch.process, parentProcess := launch.parent
    substituted := 0, background := none, jobs := [], pending := [], optionPlace := ⟨1, none⟩
    tracked := [], mask := 18, outputFailed := false }

/-- Give the script a name and arguments; the name stays if there are none. -/
def setNames (words : List Bytes) : Step Unit :=
  modify fun session =>
    match words with
    | [] => session
    | name :: arguments => { session with name, arguments }

/-- The text of the script at a path; a directory holds none. -/
def scriptAt (path : Bytes) : Step Bytes := do
  match (← get).machine.files.readBytes (pathOf path) with
  | .ok content => return content
  | .error .isADirectory => return []
  | .error reason => fail (utf8 "cannot open " ++ path ++ utf8 (": " ++ openFault false reason))

/-- The text of the script that the arguments of a shell ask for, and whether it is that of a file
or of the input. -/
def scriptFor (arguments : List Bytes) : Step (Bytes × Bool) := do
  let words := (← setOptions true (arguments.length + 1) arguments).getD []
  modify fun session => if session.has 'i' then session.setOption 'm' true else session
  giveUpJobs
  let session ← get
  let given := session.has 'c'
  set ((session.setOption 'c' false).setOption 'l' false)
  match given, words with
  | true, [] => fail (utf8 "-c requires an argument")
  | true, text :: rest =>
    setNames rest
    return (text, false)
  | false, words =>
    if words.isEmpty || session.has 's' then
      modify fun session => { session.setOption 's' true with arguments := words }
      return (((← work (Machine.takeAll 0)).toOption).getD [], true)
    else
      let text ← scriptAt (words.headD [])
      setNames words
      return (text, true)

/-- Run a shell: its options, its script, and its end. -/
def runShell (engine : Engine) (launch : Launch) : Work Status := fun machine =>
  let body := do
    let (text, ofFile) ← scriptFor (launch.words.drop 1)
    let _ ← engine.runText false ofFile text
  let (status, session) := (wholeProcess engine body).runFrom (.initial launch machine)
  (status.toOption.getD (.exited 2), session.machine)

/-! ## Starting programs -/

/-- How deep the commands of a script nest at most. -/
def maxDepth : Nat := 20000

/-- How deep shells nest at most that start each other. -/
def maxShells : Nat := 60

/-- Run a program; shells start each other no deeper than `levels`. -/
def runLaunch : (levels : Nat) → Launch → Work Status
  | 0, _ => return .signalled 11
  | levels + 1, launch => do
    if launch.program = "sh" then
      let inner := runLaunch levels
      runShell (engineBy inner (run inner maxDepth)) launch
    else utility launch.program (launch.words.headD []) (launch.words.drop 1)

/-- The program that a name or path starts.  A file that is no program is a reason to refuse only
if no directory holds a program of the name. -/
def findStarted (tree : FileTree) (program : String) : Except SystemError String := do
  FileTree.checkPath program
  let word := utf8 program
  if isPath word then programAt tree word
  else return (← searchProgram tree standardPath word).1

/-- The number of a process that is started from outside. -/
def firstProcess : Nat := 1000

/-- Run a program to its end on a tree of files; it has nothing to read. -/
def spawn (tree : FileTree) (program : String) (arguments : List String) :
    Except SystemError (Encoding.Completion × FileTree) := do
  if (program :: arguments).any (·.contains '\x00') then .error .nulInPath
  else
    let found ← findStarted tree program
    let environment := [("HOME", utf8 "/root"), ("PATH", standardPath)]
    let words := (program :: arguments).map utf8
    checkArguments words environment
    let machine : Machine :=
      { files := { tree with input := [] }
        channels := #[.device .null true false, .pipe [] [] none, .pipe [] [] none]
        streams := [(0, 0), (1, 1), (2, 2)], lastProcess := firstProcess, signals := [] }
    let (status, after) :=
      runLaunch maxShells ⟨found, words, environment, firstProcess, 1⟩ machine
    let files :=
      { after.files with workingDirectory := tree.workingDirectory, input := tree.input }
    return (⟨status.exitStatus, after.drained 1, after.drained 2⟩, files)

/-- The programs that are known here, as those of a tree of files. -/
def launcher : Encoding.Launcher FileTree := fun program arguments => do
  let (completion, after) ← Attempt.ofExcept (spawn (← get) program arguments)
  set after
  return completion

end SpeechRom.Shell
