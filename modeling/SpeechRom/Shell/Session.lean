import SpeechRom.Attempt
import SpeechRom.Shell.Grammar
import SpeechRom.Shell.Machine
import SpeechRom.Shell.Numeral
import SpeechRom.Shell.Status

/-!
# Sessions of a shell

What a running script knows: its files and streams, variables, functions,
options, traps and the status of its last command.  A step of a script works on
the session and may be interrupted, and what it has done stays done then.
-/

namespace SpeechRom.Shell

open Files

/-- A variable of a session. -/
structure Binding where
  value : Option Bytes
  exported : Bool
  readOnly : Bool
  deriving Inhabited

/-- A command that was started in the background and has ended; what it has written is held back
until the script waits for it. -/
structure Job where
  process : Nat
  status : Status
  /-- The channels that hold something back, with the channels it belongs to. -/
  held : List (Nat × Nat)
  /-- Whether the script knows that it has ended. -/
  known : Bool

/-- Why a command does not simply end. -/
inductive Interrupt where
  /-- Some loops are left. -/
  | leave (levels : Nat)
  /-- Some loops are left but for the last, which goes on. -/
  | again (levels : Nat)
  /-- A function or a script is left, perhaps with a status of its own. -/
  | giveBack (given : Bool)
  /-- The shell ends, with a status that was asked for or else with the last one. -/
  | exit (status : Option Nat)
  /-- An error, of a command or of the script; the status is noted. -/
  | fault
  /-- The process has become a program, which has ended. -/
  | replaced (status : Status)
  /-- The process is ended by a signal. -/
  | killed (signal : Nat)
  deriving DecidableEq, Repr

/-- The place of the reader of options among the arguments. -/
structure OptionPlace where
  /-- The next argument to look at. -/
  index : Nat
  /-- The letter to look at within the argument before that, if one is begun. -/
  offset : Option Nat
  deriving DecidableEq, Repr

/-- What a function that runs has hidden and gives back at its end. -/
inductive Hidden where
  | binding (name : String) (old : Option Binding)
  | options (letters : List Char)

/-- The state of a running script. -/
structure Session where
  machine : Machine
  /-- The name under which the script runs. -/
  name : Bytes
  arguments : List Bytes
  bindings : List (String × Binding)
  functions : List (String × Command)
  aliases : List (String × Bytes)
  /-- The letters of the options that are set. -/
  options : List Char
  /-- The status of the last command. -/
  status : Nat
  /-- The line of the command that runs. -/
  line : Nat
  /-- The command that speaks in complaints. -/
  speaker : Option Bytes
  /-- The number of loops around the command. -/
  loops : Nat
  /-- The number of functions that run. -/
  calls : Nat
  /-- What the functions that run have hidden, for each of them the last first. -/
  scopes : List (List Hidden)
  traps : List (Nat × Bytes)
  documents : Array Word
  /-- The number of the process that started to run the script. -/
  process : Nat
  /-- The number of the process that runs it now, and of the one that has started that. -/
  ownProcess : Nat
  parentProcess : Nat
  /-- The status of the last substitution. -/
  substituted : Nat
  background : Option Nat
  jobs : List Job
  /-- The signals that wait for their traps. -/
  pending : List Nat
  optionPlace : OptionPlace
  /-- The programs that were found by their names. -/
  tracked : List String
  mask : Nat
  /-- Whether output could not be written. -/
  outputFailed : Bool

/-- A step of a script. -/
abbrev Step (α : Type) := Attempt Interrupt Session α

/-- Do something on the files and streams. -/
def work {α : Type} (action : Work α) : Step α := do
  let session ← get
  let (a, machine) := action session.machine
  set { session with machine }
  return a

/-- Write to a stream; the answer is whether it could be written.  A process ends if nobody reads
what it writes, unless it has a trap for that. -/
def write (stream : Nat) (bytes : Bytes) : Step Bool := do
  match ← work (Machine.write stream bytes) with
  | .ok () => return true
  | .error reason =>
    if reason = .brokenPipe && ((← get).traps.lookup brokenPipeSignal).isNone then
      throw (.killed brokenPipeSignal)
    return false

/-- Write to the output. -/
def say (bytes : Bytes) : Step Unit := do
  if !bytes.isEmpty && !(← write 1 bytes) then
    modify fun session => { session with outputFailed := true }

/-! ## Complaints -/

/-- The opening of a complaint: the script, the line, and the command that speaks. -/
def Session.opening (session : Session) : Bytes :=
  session.name ++ utf8 ": " ++ decimalText session.line ++ utf8 ": " ++
    match session.speaker with
    | some command => command ++ utf8 ": "
    | none => []

/-- Complain. -/
def complain (text : Bytes) : Step Unit := do
  let _ ← write 2 ((← get).opening ++ text ++ [0x0a])

/-- Note the status of a command. -/
def note (status : Nat) : Step Unit := modify fun session => { session with status }

/-- Complain and give up what is being done. -/
def fail {α : Type} (text : Bytes) : Step α := do
  complain text
  note 2
  throw .fault

/-- Let a command speak in complaints while something is done. -/
def speaking {α : Type} (command : Bytes) (action : Step α) : Step α := do
  let before := (← get).speaker
  modify fun session => { session with speaker := some command }
  action.ensuring (modify fun session => { session with speaker := before })

/-! ## Options -/

/-- The options by letter, with their names, in the order in which they are shown; what has no
letter of its own has an invisible one. -/
def optionNames : List (Char × String) :=
  [('e', "errexit"), ('f', "noglob"), ('I', "ignoreeof"), ('i', "interactive"), ('m', "monitor"),
   ('n', "noexec"), ('s', "stdin"), ('x', "xtrace"), ('v', "verbose"), ('V', "vi"),
   ('E', "emacs"), ('C', "noclobber"), ('a', "allexport"), ('b', "notify"), ('u', "nounset"),
   ('p', "privileged"), ('\x01', "nolog"), ('\x02', "debug")]

/-- Whether an option is set. -/
def Session.has (session : Session) (option : Char) : Bool := session.options.contains option

/-- Set or clear an option. -/
def Session.setOption (session : Session) (option : Char) (on : Bool) : Session :=
  let others := session.options.filter (· ≠ option)
  { session with options := if on then option :: others else others }

/-! ## Variables -/

/-- The value that a list of pairs has for a name, replaced or added at the end. -/
def replaced {α : Type} (name : String) (value : α) : List (String × α) → List (String × α)
  | [] => [(name, value)]
  | (other, old) :: rest =>
    if other = name then (name, value) :: rest else (other, old) :: replaced name value rest

/-- The value of a variable. -/
def Session.contentOf? (session : Session) (name : String) : Option Bytes :=
  (session.bindings.lookup name).bind Binding.value

/-- The signs that separate fields, unless they are unset. -/
def Session.separators? (session : Session) : Option Bytes := session.contentOf? "IFS"

/-- Put a variable in place, or remove it; the reader of options follows its variable, and programs
are looked for again where they are looked for elsewhere. -/
def Session.withBinding (session : Session) (name : String) (binding : Option Binding) : Session :=
  let session := match binding with
    | some binding => { session with bindings := replaced name binding session.bindings }
    | none => { session with bindings := session.bindings.filter fun entry => entry.1 ≠ name }
  match name with
  | "OPTIND" =>
    let index := ((session.contentOf? name).bind operandOf?).getD 1
    { session with optionPlace := ⟨max 1 index, none⟩ }
  | "PATH" => { session with tracked := [] }
  | _ => session

/-- Change a variable that is not read-only. -/
def changeBinding (name : String) (change : Option Binding → Option Binding) : Step Unit := do
  let session ← get
  let old := session.bindings.lookup name
  if (old.map Binding.readOnly).getD false then fail (utf8 (name ++ ": is read only"))
  set (session.withBinding name (change old))

/-- Refuse a word that is no name of a variable. -/
def checkName (name : Bytes) : Step String := do
  let letters := lettersOf name
  if isVariableName letters then return String.ofList letters
  else fail (name ++ utf8 ": bad variable name")

/-- Give a variable a value. -/
def assign (name : String) (value : Bytes) : Step Unit := do
  let exportsAll := (← get).has 'a'
  changeBinding name fun old =>
    let exported := exportsAll || (old.map Binding.exported).getD false
    some { value, exported, readOnly := false }

/-- The name and the value of a word that assigns, or only the name. -/
def splitAssignment (word : Bytes) : Bytes × Option Bytes :=
  let name := word.takeWhile (· != 0x3d)
  (name, (word.drop name.length).tail?)

/-! ## Scopes -/

/-- Note in the innermost scope what is hidden. -/
def hide (hidden : Hidden) : Step Unit :=
  modify fun session =>
    match session.scopes with
    | [] => session
    | scope :: outer => { session with scopes := (hidden :: scope) :: outer }

/-- Make a variable local to the innermost scope and give it a value, if one is given. -/
def makeLocal (word : Bytes) (exported : Bool) : Step Unit := do
  let session ← get
  if word = [0x2d] then hide (.options session.options)
  else
    let (text, value) := splitAssignment word
    let letters := lettersOf text
    let old := session.bindings.lookup (String.ofList letters)
    let name ← if old.isSome then pure (String.ofList letters) else checkName text
    hide (.binding name old)
    if value.isSome || old.isNone then
      changeBinding name fun old =>
        let binding := old.getD ⟨none, false, false⟩
        some { binding with value, exported := exported || session.has 'a' || binding.exported }
    else if exported then
      modify fun session =>
        session.withBinding name (old.map fun binding => { binding with exported := true })

/-- Leave the innermost scope: what was hidden comes back. -/
def leaveScope : Step Unit :=
  modify fun session =>
    match session.scopes with
    | [] => session
    | scope :: outer =>
      scope.foldl (fun session hidden =>
        match hidden with
        | .options options => { session with options }
        | .binding name old => session.withBinding name old) { session with scopes := outer }

/-! ## Quoting for output -/

/-- A text in quotes, from which the shell reads it back: single quotes around all but the single
quotes themselves, which stand in double quotes. -/
def quotedText : (fuel : Nat) → Bytes → Bytes
  | 0, _ => []
  | fuel + 1, text =>
    let bare := text.takeWhile (· != 0x27)
    let after := text.drop bare.length
    let quotes := after.takeWhile (· == 0x27)
    let rest := after.drop quotes.length
    let front := 0x27 :: bare ++ [0x27]
    if quotes.isEmpty then front
    else
      let front := front ++ 0x22 :: quotes ++ [0x22]
      if rest.isEmpty then front else front ++ quotedText fuel rest

/-- A text in quotes. -/
def inQuotes (text : Bytes) : Bytes := quotedText (text.length + 1) text

end SpeechRom.Shell
