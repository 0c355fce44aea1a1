import SpeechRom.Shell.Builtin.Basic
import SpeechRom.Shell.Lookup

/-!
# Commands on command names
-/

namespace SpeechRom.Shell

open Files

/-! ## Aliases -/

/-- An alias as text that would make it. -/
def aliasText (name : String) (value : Bytes) : Bytes :=
  utf8 (name ++ "=") ++ inQuotes value ++ [0x0a]

/-- Make the alias of a word, or show it if the word has no value. -/
def aliasWord (word : Bytes) : Step Bool := do
  let session ← get
  let (text, value) := splitAssignment word
  let name := asciiText text
  match if text.isEmpty then none else value, session.aliases.lookup (asciiText word) with
  | some value, _ =>
    set { session with aliases := replaced name value session.aliases }
    return true
  | none, some value =>
    say (aliasText (asciiText word) value)
    return true
  | none, none =>
    let _ ← write 2 (utf8 "alias: " ++ word ++ utf8 " not found\n")
    return false

/-- Make aliases, or show them. -/
def aliasCommand : Builtin := fun words => do
  if words.isEmpty then
    (← get).aliases.forM fun (name, value) => say (aliasText name value)
    return 0
  return if (← words.mapM aliasWord).all id then 0 else 1

/-- Forget aliases. -/
def unaliasCommand : Builtin := fun arguments => do
  let (options, words) ← readOptions [('a', false)] arguments
  if !options.isEmpty then
    modify fun session => { session with aliases := [] }
    return 0
  let known ← words.mapM fun word => do
    let session ← get
    let name := asciiText word
    if (session.aliases.lookup name).isSome then
      set { session with aliases := session.aliases.filter fun entry => entry.1 ≠ name }
      return true
    else
      let _ ← write 2 (utf8 "unalias: " ++ word ++ utf8 " not found\n")
      return false
  return if known.all id then 0 else 1

/-! ## Meanings -/

/-- Write what a command name means, in words or so that it can be used. -/
def describeName (inWords : Bool) (path word : Bytes) : Step Nat := do
  let session ← get
  let name := asciiText word
  let tell := fun (words : String) (short : Bytes) => do
    say ((if inWords then word ++ utf8 words else short) ++ [0x0a])
    return 0
  let missing := do
    if inWords then say (word ++ utf8 ": not found\n")
    return 127
  if reservedWords.contains name then tell " is a shell keyword" word
  else
    match session.aliases.lookup name, session.meaningOf false word with
    | some value, _ =>
      if inWords then say (word ++ utf8 " is an alias for " ++ value ++ [0x0a])
      else say (utf8 "alias " ++ aliasText name value)
      return 0
    | none, .function _ => tell " is a shell function" word
    | none, .builtin special _ =>
      tell (if special then " is a special shell builtin" else " is a shell builtin") word
    | none, .program =>
      if isPath word then
        if pathExists session.machine.files (pathOf word) then
          tell (" is " ++ pathOf word) word
        else missing
      else
        match session.findProgram path word with
        | .error _ => missing
        | .ok (_, found) =>
          let tracked := session.tracked.contains name
          tell ((if tracked then " is a tracked alias for " else " is ") ++ pathOf found) found

/-- Tell what names mean. -/
def typeCommand : Builtin := fun words => do
  let path := (← get).searchPath
  let statuses ← words.mapM (describeName true path)
  return statuses.foldl (· ||| ·) 0

/-- Tell what a name means to the command `command`. -/
def describeCommand : Builtin := fun arguments => do
  let (options, words) ← readOptions [('p', false), ('v', false), ('V', false)] arguments
  let session ← get
  let path := if options.any (·.1 = 'p') then standardPath else session.searchPath
  let asked := options.filter fun option => option.1 ≠ 'p'
  match words with
  | word :: _ =>
    if asked.isEmpty then return 0
    else describeName (asked.any (·.1 = 'V')) path word
  | [] => return 0

/-- Look for programs, or tell where those are that were found. -/
def hashCommand : Builtin := fun arguments => do
  let (options, words) ← readOptions [('r', false)] arguments
  let session ← get
  if !options.isEmpty then
    set { session with tracked := [] }
    return 0
  if words.isEmpty then
    session.tracked.forM fun name =>
      match session.findProgram session.searchPath (utf8 name) with
      | .ok (_, found) => say (found ++ [0x0a])
      | .error _ => return ()
    return 0
  let found ← words.mapM fun word => do
    match session.meaningOf false word, session.findProgram session.searchPath word with
    | .program, .error reason =>
      complain (word ++ utf8 (": " ++ programFault reason))
      return false
    | .program, .ok _ =>
      trackProgram word
      return true
    | _, _ => return true
  return if found.all id then 0 else 1

end SpeechRom.Shell
