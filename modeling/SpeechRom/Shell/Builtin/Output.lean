import SpeechRom.Shell.Builtin.Basic
import SpeechRom.Shell.Utilities

/-!
# Commands that write or test
-/

namespace SpeechRom.Shell

/-- Write the arguments; escapes count. -/
def echoCommand : Builtin := fun arguments => do
  let bare := arguments.head? = some (utf8 "-n")
  let text := joinWords (if bare then arguments.drop 1 else arguments)
  let (text, stopped) := Printf.unescape (text.length + 1) text
  say (if bare || stopped then text else text ++ [0x0a])
  return 0

/-- Write the arguments by a format. -/
def printfCommand : Builtin := fun arguments => do
  match ← withoutOptions arguments with
  | [] => fail (utf8 "usage: printf format [arg ...]")
  | format :: arguments =>
    let result := Printf.run format arguments
    result.flaws.forM fun (argument, flaw) => complain (flaw.message argument)
    match result.fault with
    | some fault =>
      complain fault
      say result.output
      return 2
    | none =>
      say result.output
      return if result.flaws.isEmpty then 0 else 1

/-- Test a condition. -/
def testCommand (bracketed : Bool) : Builtin := fun arguments => do
  match conditionWords bracketed arguments with
  | none => fail (utf8 "missing ]")
  | some words =>
    match Condition.truth (← get).machine words with
    | .ok truth => return if truth then 0 else 1
    | .error complaint => fail complaint

/-- Write the times that were used: none. -/
def timesCommand : Builtin := fun _ => do
  say (utf8 "0m0.000000s 0m0.000000s\n0m0.000000s 0m0.000000s\n")
  return 0

end SpeechRom.Shell
