import SpeechRom.Shell.Builtin.Basic
import SpeechRom.Shell.Lookup

/-!
# Commands that change what is run next
-/

namespace SpeechRom.Shell

/-- End the shell. -/
def exitCommand : Builtin := fun words => do
  match words with
  | [] => throw (.exit none)
  | word :: _ => throw (.exit (some (← operand word)))

/-- Leave a function or a script. -/
def returnCommand : Builtin := fun words => do
  match words with
  | [] => throw (.giveBack false)
  | word :: _ =>
    note (← operand word)
    throw (.giveBack true)

/-- Leave loops, or go on with one. -/
def loopCommand (interrupt : Nat → Interrupt) : Builtin := fun words => do
  let levels ← match words with
    | [] => pure 1
    | word :: _ => do
      let levels ← operand word
      if levels = 0 then fail (utf8 "Illegal number: " ++ word)
      pure levels
  let levels := min levels (← get).loops
  if levels = 0 then return 0
  note 0
  throw (interrupt levels)

/-- Run the arguments as a script. -/
def evalCommand (engine : Engine) (tested : Bool) : Builtin := fun words => do
  if words.isEmpty then return 0 else engine.runText tested false (joinWords words)

/-- The file that is read for a word: a path, or a name that is looked for. -/
def sourcePath (session : Session) (word : Bytes) : Option Bytes :=
  let files := session.machine.files
  if isPath word then some word
  else (candidates session.searchPath word).find? fun path => Files.isFile files (pathOf path)

/-- Run the lines of a file. -/
def sourceCommand (engine : Engine) : Builtin := fun arguments => do
  match ← withoutOptions arguments with
  | [] => return 0
  | word :: _ =>
    let session ← get
    match sourcePath session word with
    | none => fail (word ++ utf8 ": not found")
    | some path =>
      let content ← (do
        match session.machine.files.readBytes (pathOf path) with
        | .ok content => return content
        | .error .isADirectory => return []
        | .error reason =>
          fail (utf8 "cannot open " ++ path ++ utf8 (": " ++ openFault false reason)))
      match ← (speaking path (engine.runText false true content)).caught with
      | .ok status => return status
      | .error (.giveBack _) => return (← get).status
      | .error other => throw other

/-- Become a program. -/
def execCommand (engine : Engine) : Builtin := fun words => do
  match words with
  | [] => return 0
  | word :: _ =>
    let session ← get
    match session.findRunnable session.searchPath words with
    | .ok program => becomeProgram engine program words
    | .error reason =>
      complain (word ++ utf8 (": " ++ programFault reason))
      throw (.exit (some (programFaultStatus reason)))

end SpeechRom.Shell
