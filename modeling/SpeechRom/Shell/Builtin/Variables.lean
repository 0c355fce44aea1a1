import SpeechRom.Shell.Builtin.Basic
import SpeechRom.Shell.Glob

/-!
# Commands on variables, options and arguments
-/

namespace SpeechRom.Shell

/-! ## Variables -/

/-- Variables of a kind in the order of their names, as commands that would make them. -/
def listVariables (command : Bytes) (belongs : Binding → Bool) : Step Unit := do
  let named := (← get).bindings.filter fun entry => belongs entry.2
  let sorted := named.mergeSort fun a b => Glob.comesFirst (utf8 a.1) (utf8 b.1)
  let front := if command.isEmpty then [] else command ++ [0x20]
  sorted.forM fun (name, binding) =>
    say (front ++ utf8 name ++ (match binding.value with
      | some value => 0x3d :: inQuotes value
      | none => []) ++ [0x0a])

/-- Mark the variable that a word names, and give it a value if the word does. -/
def declareWord (marked : Binding → Binding) (word : Bytes) : Step Unit := do
  let session ← get
  let (text, value) := splitAssignment word
  let known := String.ofList (lettersOf text)
  match value, session.bindings.lookup known with
  | none, some binding => set (session.withBinding known (some (marked binding)))
  | _, _ =>
    let name ← checkName text
    changeBinding name fun old =>
      let binding := old.getD ⟨none, false, false⟩
      some (marked { binding with value, exported := session.has 'a' || binding.exported })

/-- Declare variables, or list those that are declared. -/
def declare (command : String) (marked : Binding → Binding) (belongs : Binding → Bool) : Builtin :=
  fun arguments => do
    let (options, words) ← readOptions [('p', false)] arguments
    if options.isEmpty && !words.isEmpty then words.forM (declareWord marked)
    else listVariables (utf8 command) belongs
    return 0

/-- Mark variables for programs. -/
def exportCommand : Builtin :=
  declare "export" (fun binding => { binding with exported := true }) Binding.exported

/-- Protect variables from changes. -/
def readonlyCommand : Builtin :=
  declare "readonly" (fun binding => { binding with readOnly := true }) Binding.readOnly

/-- Make variables local to a function. -/
def localCommand : Builtin := fun words => do
  if (← get).scopes.isEmpty then fail (utf8 "not in a function")
  words.forM (makeLocal · false)
  return 0

/-- Forget variables or functions. -/
def unsetCommand : Builtin := fun arguments => do
  let (options, words) ← readOptions [('v', false), ('f', false)] arguments
  words.forM fun word => do
    if lastOption options = some 'f' then
      modify fun session =>
        { session with functions := session.functions.filter fun entry => utf8 entry.1 ≠ word }
    else changeBinding (← checkName word) fun _ => none
  return 0

/-! ## Options -/

/-- A text filled with blanks up to a width. -/
def leftAligned (width : Nat) (text : String) : String :=
  text ++ String.ofList (List.replicate (width - text.length) ' ')

/-- Show the options, as a table or as commands. -/
def listOptions (table : Bool) : Step Unit := do
  let session ← get
  if table then say (utf8 "Current option settings\n")
  optionNames.forM fun (letter, name) =>
    let on := session.has letter
    if table then say (utf8 (leftAligned 16 name ++ (if on then "on" else "off") ++ "\n"))
    else say (utf8 ("set " ++ (if on then "-o " else "+o ") ++ name ++ "\n"))

/-- Set or clear the option of a name, or show all options if no name is left. -/
def setNamedOption (on : Bool) : List Bytes → Step (List Bytes)
  | [] => do
    listOptions on
    return []
  | name :: rest => do
    match optionNames.find? fun entry => utf8 entry.2 = name with
    | some (letter, _) =>
      modify (·.setOption letter on)
      return rest
    | none => fail (utf8 "Illegal option -o " ++ name)

/-- Set or clear the options of a group of letters; the answer is the arguments that are left. -/
def setLetters (started : Bool) (on : Bool) : Bytes → List Bytes → Step (List Bytes)
  | [], rest => return rest
  | letter :: letters, rest => do
    let option := Char.ofNat letter.toNat
    if option = 'o' then setLetters started on letters (← setNamedOption on rest)
    else if (started && (option = 'c' || option = 'l')) ||
        (optionNames.lookup option).isSome then
      modify (·.setOption option on)
      setLetters started on letters rest
    else fail (utf8 "Illegal option -" ++ [letter])

/-- Set the options in front of arguments; the answer is the arguments that follow, unless there
is nothing that says so.  `started` tells whether a shell is being started. -/
def setOptions (started : Bool) : (fuel : Nat) → List Bytes → Step (Option (List Bytes))
  | fuel + 1, word :: rest => do
    match word with
    | [0x2d] =>
      if !started then modify fun session => (session.setOption 'x' false).setOption 'v' false
      return if rest.isEmpty then none else some rest
    | [0x2d, 0x2d] => return some rest
    | 0x2d :: letters => setOptions started fuel (← setLetters started true letters rest)
    | 0x2b :: letters => setOptions started fuel (← setLetters started false letters rest)
    | _ => return some (word :: rest)
  | _, _ => return none

/-- Give up the control of jobs, which needs a terminal.  Subshells have none to give up. -/
def giveUpJobs : Step Unit := do
  let session ← get
  if session.has 'm' && session.process = session.ownProcess then
    complain (utf8 "can't access tty; job control turned off")
    modify (·.setOption 'm' false)

/-- Replace the arguments of the script. -/
def Session.withArguments (session : Session) (arguments : List Bytes) : Session :=
  { session with arguments, optionPlace := ⟨1, none⟩ }

/-- Set options and arguments, or list the variables. -/
def setCommand : Builtin := fun words => do
  if words.isEmpty then listVariables [] fun binding => binding.value.isSome
  else
    let arguments ← setOptions false (words.length + 1) words
    giveUpJobs
    if let some arguments := arguments then modify (·.withArguments arguments)
  return 0

/-- Drop arguments from the front. -/
def shiftCommand : Builtin := fun words => do
  let count ← match words with
    | [] => pure 1
    | word :: _ => operand word
  let session ← get
  if count > session.arguments.length then fail (utf8 "can't shift that many")
  set (session.withArguments (session.arguments.drop count))
  return 0

end SpeechRom.Shell
